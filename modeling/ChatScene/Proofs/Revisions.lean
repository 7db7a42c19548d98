/-
  Settings that are in force are sound.

  1. **Setting one** — seconds are converted from many sorts of values, but whatever they come from, they are compared
     with zero in the end (`readSeconds_nonneg`), and what is no number does not compare with anything.  So no setting
     is given a value that it must not have, and setting one leaves the others as they are: `Settings.Sets` lists all
     that setting one can do (`sets_of_set`).

  2. **Setting all** — a document is taken setting by setting (`Sound.setAll`), and refused as a whole when a member is
     no setting (`ofJson_stranger`).

  3. **Documents of settings** — sound settings are read from the document that spells them (`Sound.ofJson_document`).

  4. **Revisions** — what holds after each revision holds after any number of them (`sound_inForce`, by induction on the
     revisions).

  The main result, `settings_stay_sound`, puts these together: after any revisions the settings are sound, a revision
  that is refused changes nothing, one of a single setting changes no other, and all sound settings can be had.
-/
import Mathlib.Data.List.Induction
import ChatScene.Settings

namespace ChatScene

/-! ## Sound settings -/

/-- Settings that a session can work with. -/
structure Settings.Sound (s : Settings) : Prop where
  delay_not_nan : s.settleDelay.isNaN = false
  delay_nonneg : 0 ≤ s.settleDelay
  mark_length : 1 ≤ s.commentMark.length

/-- What is no number is not compared with anything, in the model of doubles. -/
theorem isNaN_eq_false_of_unpacked_le {x y : Float.Model.UnpackedFloat} (h : x.le y = true) : y.isNaN = false := by
  cases y with
  | notANumber => cases x <;> cases h
  | _ => rfl

/-- A double that another one is at most is a number. -/
theorem isNaN_eq_false_of_le {x y : Float} (h : x ≤ y) : y.isNaN = false :=
  isNaN_eq_false_of_unpacked_le (of_decide_eq_true h)

/-- The settings that a session begins with are sound (`Sound`). -/
theorem Settings.sound_default : ({} : Settings).Sound := by
  have hdelay : (0 : Float) ≤ 0.5 := by decide
  exact ⟨isNaN_eq_false_of_le hdelay, hdelay, by decide⟩

/-! ## Setting one -/

theorem exists_of_map_eq_ok {α β ε : Type} {r : Except ε α} {f : α → β} {y : β} (h : r.map f = .ok y) :
    ∃ x, r = .ok x ∧ f x = y := by
  cases r with
  | error e => cases h
  | ok x => exact ⟨x, rfl, Except.ok.inj h⟩

/-- Seconds that are read are not negative, whatever they are read from. -/
theorem readSeconds_nonneg {j : Json} {x : Float} (h : readSeconds j = .ok x) : 0 ≤ x := by
  unfold readSeconds at h
  dsimp only at h
  split at h
  · split at h
    · cases h
      assumption
    · cases h
  · cases h

/-- A comment mark that is read is not empty. -/
theorem readMark_length {j : Json} {mark : String} (h : readMark j = .ok mark) : 1 ≤ mark.length := by
  cases j with
  | str w =>
    simp only [readMark] at h
    split at h
    · cases h
    · split at h
      · cases h
      · rename_i hne
        cases h
        exact Nat.one_le_iff_ne_zero.mpr fun hlength => hne (String.length_eq_zero_iff.mp hlength)
  | _ => cases h

/-- The settings with one of them set to a value that it may have. -/
inductive Settings.Sets (s : Settings) : Setting → Settings → Prop
  | settleDelay {x : Float} : 0 ≤ x → Sets s .settleDelay { s with settleDelay := x }
  | choiceEndsBeat (b : Bool) : Sets s .choiceEndsBeat { s with choiceEndsBeat := b }
  | jumpEndsBeat (b : Bool) : Sets s .jumpEndsBeat { s with jumpEndsBeat := b }
  | commentMark {mark : String} : 1 ≤ mark.length → Sets s .commentMark { s with commentMark := mark }

namespace Settings

variable {s s' : Settings} {which : Setting} {name : String} {given : Json}

/-- All that setting one can do, one case for each setting. -/
theorem sets_of_set (h : s.set which given = .ok s') : s.Sets which s' := by
  cases which with
  | settleDelay =>
    obtain ⟨x, hread, rfl⟩ := exists_of_map_eq_ok h
    exact .settleDelay (readSeconds_nonneg hread)
  | choiceEndsBeat =>
    obtain ⟨b, -, rfl⟩ := exists_of_map_eq_ok h
    exact .choiceEndsBeat b
  | jumpEndsBeat =>
    obtain ⟨b, -, rfl⟩ := exists_of_map_eq_ok h
    exact .jumpEndsBeat b
  | commentMark =>
    obtain ⟨mark, hread, rfl⟩ := exists_of_map_eq_ok h
    exact .commentMark (readMark_length hread)

theorem Sound.sets (h : s.Sound) (hsets : s.Sets which s') : s'.Sound := by
  cases hsets with
  | settleDelay hx => exact ⟨isNaN_eq_false_of_le hx, hx, h.mark_length⟩
  | choiceEndsBeat b => exact ⟨h.delay_not_nan, h.delay_nonneg, h.mark_length⟩
  | jumpEndsBeat b => exact ⟨h.delay_not_nan, h.delay_nonneg, h.mark_length⟩
  | commentMark hmark => exact ⟨h.delay_not_nan, h.delay_nonneg, hmark⟩

/-- The value of one of the settings, as in a document. -/
def value (s : Settings) : Setting → Json
  | .settleDelay => .float s.settleDelay
  | .choiceEndsBeat => .bool s.choiceEndsBeat
  | .jumpEndsBeat => .bool s.jumpEndsBeat
  | .commentMark => .str s.commentMark

theorem Sets.value_eq (h : s.Sets which s') {other : Setting} (hother : other ≠ which) :
    s'.value other = s.value other := by
  cases h <;> cases other <;> first | rfl | exact absurd rfl hother

/-- Assigning by name sets the setting that has this name. -/
theorem assign_eq_ok (h : s.assign name given = .ok s') : ∃ which, which.name = name ∧ s.Sets which s' := by
  rw [assign] at h
  split at h
  · cases h
  · rename_i which hname
    cases hset : s.set which given with
    | error fault => rw [hset] at h; cases h
    | ok t =>
      rw [hset] at h
      cases h
      exact ⟨which, by simpa using List.find?_some hname, sets_of_set hset⟩

/-! ## Setting all -/

/-- Setting all of them (`setAll`), one after the other; those that are refused keep their values. -/
theorem Sound.setAll (h : s.Sound) (members : List (Text.Wide × Json)) (ws : List Setting) :
    (s.setAll members ws).1.Sound := by
  induction ws generalizing s with
  | nil => exact h
  | cons which ws ih =>
    rw [Settings.setAll]
    split
    · exact ih h
    · split
      · rename_i hset
        exact ih (h.sets (sets_of_set hset))
      · exact ih h

/-- What a document gives is sound (`Sound`). -/
theorem sound_of_ofJson {j : Json} (h : ofJson j = .ok s) : s.Sound := by
  cases j with
  | obj members =>
    simp only [ofJson] at h
    split at h
    · cases h
      exact sound_default.setAll members Setting.all
    · cases h
  | _ => cases h

/-- A document with a member that is no setting is refused, and the refusal names the member. -/
theorem ofJson_stranger {members : List (Text.Wide × Json)} {name : Text.Wide} (hmem : (name, given) ∈ members)
    (hname : ∀ which ∈ Setting.all, Text.ofString which.name ≠ name) :
    ∃ errors, ofJson (.obj members) = .error errors ∧
      ⟨some (Text.spelled name), strangerFault name, given⟩ ∈ errors := by
  have hnone : (Setting.ofName? name).isNone = true := by
    rw [Option.isNone_iff_eq_none, Setting.ofName?, List.find?_eq_none]
    intro which hwhich heq
    exact hname which hwhich (of_decide_eq_true heq)
  have hstranger : ⟨some (Text.spelled name), strangerFault name, given⟩ ∈
      (({} : Settings).setAll members Setting.all).2 ++
        (members.filter fun m => (Setting.ofName? m.1).isNone).map fun m =>
          ⟨some (Text.spelled m.1), strangerFault m.1, m.2⟩ :=
    List.mem_append_right _ (List.mem_map.mpr ⟨(name, given), List.mem_filter.mpr ⟨hmem, hnone⟩, rfl⟩)
  refine ⟨_, ?_, hstranger⟩
  simp only [ofJson]
  rw [if_neg fun hempty => ?_]
  rw [List.isEmpty_iff.mp hempty] at hstranger
  exact List.not_mem_nil hstranger

/-- The settings as the members of an object. -/
def members (s : Settings) : List (Text.Wide × Json) :=
  Setting.all.map fun which => (Text.ofString which.name, s.value which)

/-- The document that spells the settings. -/
def document (s : Settings) : Json := .obj s.members

/-- In the document of settings each is found under its name. -/
theorem lookup_members (s : Settings) (which : Setting) :
    Json.lookup which.name s.members = some (s.value which) := by
  cases which <;> rfl

/-- One of the settings as others have it. -/
def adopt (s t : Settings) : Setting → Settings
  | .settleDelay => { t with settleDelay := s.settleDelay }
  | .choiceEndsBeat => { t with choiceEndsBeat := s.choiceEndsBeat }
  | .jumpEndsBeat => { t with jumpEndsBeat := s.jumpEndsBeat }
  | .commentMark => { t with commentMark := s.commentMark }

/-- A value that sound settings have is accepted, for any other settings. -/
theorem Sound.set_value (h : s.Sound) (t : Settings) (which : Setting) :
    t.set which (s.value which) = .ok (s.adopt t which) := by
  cases which with
  | settleDelay =>
    have hread : readSeconds (.float s.settleDelay) = .ok s.settleDelay := if_pos h.delay_nonneg
    rw [set, value, hread]
    rfl
  | choiceEndsBeat => rfl
  | jumpEndsBeat => rfl
  | commentMark =>
    -- a mark has a character, so it is not empty
    have hmark : s.commentMark ≠ "" := by
      intro hempty
      have hlength := h.mark_length
      rw [hempty] at hlength
      exact absurd hlength (by decide)
    have hread : readMark (.str s.commentMark) = .ok s.commentMark := by
      simp only [readMark, readWhole_ofString, if_neg hmark]
    rw [set, value, hread]
    rfl

theorem Sound.setAll_members (h : s.Sound) (t : Settings) (ws : List Setting) :
    t.setAll s.members ws = (ws.foldl s.adopt t, []) := by
  induction ws generalizing t with
  | nil => rfl
  | cons which ws ih =>
    simp only [Settings.setAll, lookup_members, h.set_value]
    exact ih (s.adopt t which)

/-- Sound settings are read from the document that spells them. -/
theorem Sound.ofJson_document (h : s.Sound) : ofJson s.document = .ok s := by
  have hstrangers : (s.members.filter fun m => (Setting.ofName? m.1).isNone) = [] := rfl
  simp only [ofJson, document, h.setAll_members, hstrangers]
  rfl

end Settings

/-! ## Revisions -/

namespace Revision

/-- The settings in force after a series of revisions. -/
def inForce (rs : List Revision) : Option Settings := rs.foldl Revision.apply none

theorem inForce_concat (rs : List Revision) (r : Revision) : inForce (rs ++ [r]) = r.apply (inForce rs) :=
  List.foldl_append

variable {current : Option Settings} {r : Revision} {s : Settings}

/-- What a revision of a single setting does, if it is accepted: there were settings before, and this one is set
    (`Sets`). -/
theorem single_accepted {name : String} {given : Json}
    (h : (Revision.single name given).outcome current = some (.ok s)) :
    ∃ old which, current = some old ∧ which.name = name ∧ old.Sets which s := by
  obtain ⟨old, hold, hassign⟩ := Option.map_eq_some_iff.mp h
  cases hnew : old.assign name given with
  | error e => rw [hnew] at hassign; cases hassign
  | ok new =>
    rw [hnew] at hassign
    cases hassign
    obtain ⟨which, hname, hsets⟩ := Settings.assign_eq_ok hnew
    exact ⟨old, which, hold, hname, hsets⟩

/-- What a revision gives is sound, if the settings before were. -/
theorem sound_of_outcome (h : ∀ s, current = some s → s.Sound) (houtcome : r.outcome current = some (.ok s)) :
    s.Sound := by
  cases r with
  | whole document => exact Settings.sound_of_ofJson (Option.some.inj houtcome)
  | single name given =>
    obtain ⟨old, which, hold, -, hsets⟩ := single_accepted houtcome
    exact (h old hold).sets hsets

/-- Settings stay sound when they are revised: a revision that is refused leaves them as
    they were (`Revision.apply`). -/
theorem sound_apply (h : ∀ s, current = some s → s.Sound) (r : Revision) :
    ∀ s, r.apply current = some s → s.Sound := by
  intro s hs
  rw [apply] at hs
  split at hs
  · rename_i houtcome
    cases hs
    exact sound_of_outcome h houtcome
  · exact h s hs

/-- After any number of revisions the settings in force are sound. -/
theorem sound_inForce (rs : List Revision) : ∀ s, inForce rs = some s → s.Sound := by
  induction rs using List.reverseRecOn with
  | nil => exact nofun
  | append_singleton rs r ih =>
    rw [inForce_concat]
    exact sound_apply ih r

/-- Settings stay sound (`Sound`), whatever they are revised with.  A revision that is refused changes nothing; one of
    a single setting that is accepted changes no other; a document with a member that is no setting is refused; and
    all sound settings can be had. -/
theorem settings_stay_sound (rs : List Revision) :
    (∀ s, inForce rs = some s → s.Sound) ∧
    (∀ r errors, r.outcome (inForce rs) = some (.error errors) → inForce (rs ++ [r]) = inForce rs) ∧
    (∀ name given s, (Revision.single name given).outcome (inForce rs) = some (.ok s) →
      inForce (rs ++ [.single name given]) = some s ∧
      ∃ old which, inForce rs = some old ∧ which.name = name ∧
        ∀ other, other ≠ which → s.value other = old.value other) ∧
    (∀ members name given, (name, given) ∈ members → (∀ which ∈ Setting.all, Text.ofString which.name ≠ name) →
      ∃ errors, (Revision.whole (.obj members)).outcome (inForce rs) = some (.error errors) ∧
        ⟨some (Text.spelled name), strangerFault name, given⟩ ∈ errors) ∧
    ∀ s : Settings, s.Sound → inForce (rs ++ [.whole s.document]) = some s := by
  refine ⟨sound_inForce rs, fun r errors h => ?_, fun name given s h => ⟨?_, ?_⟩,
    fun members name given hmem hname => ?_, fun s hs => ?_⟩
  · rw [inForce_concat, apply, h]
  · rw [inForce_concat, apply, h]
  · obtain ⟨old, which, hold, hname, hsets⟩ := single_accepted h
    exact ⟨old, which, hold, hname, fun other => hsets.value_eq⟩
  · obtain ⟨errors, herrors, hstranger⟩ := Settings.ofJson_stranger hmem hname
    exact ⟨errors, congrArg some herrors, hstranger⟩
  · rw [inForce_concat, apply, outcome, hs.ofJson_document]

/-- A truth value for the seconds, a negative number that is refused, and a word for a switch. -/
def hurried : List Revision :=
  [.whole (.obj [("settle_delay", .bool true), ("comment_prefix", .str "//")]), .single "settle_delay" (.float (-0.5)),
   .single "goto_ends_beat" (.str "Yes")]

theorem settings_stay_sound_hurried :
    inForce hurried = some ⟨1, true, true, "//"⟩ ∧ Settings.Sound ⟨1, true, true, "//"⟩ ∧
      inForce (hurried ++ [.single "settle_delay" (.str " NaN ")]) = inForce hurried ∧
      inForce (hurried ++ [.single "settle_delay" (.str "1e1")]) = some ⟨10, true, true, "//"⟩ ∧
      (∃ errors, (Revision.whole (.obj [("typing_speed", .int 30)])).outcome (inForce hurried) = some (.error errors) ∧
        ⟨some "typing_speed", .notASetting, .int 30⟩ ∈ errors) ∧
      inForce (hurried ++ [.whole (Settings.document ⟨1, true, true, "//"⟩)]) = inForce hurried := by
  obtain ⟨hsound, hrefused, hsingle, hstranger, hall⟩ := settings_stay_sound hurried
  have hcurrent : inForce hurried = some ⟨1, true, true, "//"⟩ := rfl
  exact ⟨hcurrent, hsound _ hcurrent, hrefused _ _ rfl, (hsingle _ _ _ rfl).1,
    hstranger _ "typing_speed" _ List.mem_cons_self (by decide), hall _ (hsound _ hcurrent)⟩

end Revision

end ChatScene
