/-
  The depth of a context and the advances in flight.

  An advance is in flight on a context from entering it to leaving it.  The journal tells both, so the number of
  advances in flight can be read off the journal, and it is the number of frames that still have the context to leave.
  The depth follows that number up and down but is also set to zero, by a load and by the end of a scene; so it never
  exceeds the number, and it is the number as long as it has not been set to zero meanwhile.

  1. **Journals** — `Underway context js n` says that `n` advances are underway after the journal `js` and that none has
     left without having entered.  Then `n` is the difference of the two counts (`Underway.flights_eq`), the depth is at
     most `n` (`Underway.depth_le`), and it is `n` if nothing has set it to zero since none was underway
     (`Underway.depth_eq`).

  2. **Resets** — a context is set to zero as part of the end of a scene only (`ResetsAtEnds`), so it is enough to look
     for ends and loads.

  3. **Frames** — a frame counts as one if it has the context to leave (`Frame.holds`).  Over all chains this makes
     `Stage.inFlight`, and every stride keeps the account (`Underway.plays`).

  4. **Main result** (`depth_counts_flights`) — at every moment, for every context; and a scene that has an advance in
     flight says that it cannot advance, unless there was an end or a load since.
-/
import ChatScene.Proofs.Moves
import ChatScene.Proofs.Pause

namespace ChatScene

/-! ## Counting in a journal -/

/-- An advance passes through the context in this way. -/
def Deed.crosses (context : Context) (passage : Passage) : Deed → Bool
  | .pass other way => other = context && way = passage
  | _ => false

/-- `entered context journal` — how many advances have entered the context. -/
def entered (context : Context) (journal : List Deed) : Nat := journal.countP (Deed.crosses context .enter)

/-- `departed context journal` — how many advances have left the context. -/
def departed (context : Context) (journal : List Deed) : Nat := journal.countP (Deed.crosses context .leave)

/-- `flights context journal` — how many advances have entered the context and not left it. -/
def flights (context : Context) (journal : List Deed) : Nat := entered context journal - departed context journal

/-- A load or the end of a scene. -/
def Deed.isBreak : Deed → Bool
  | .load _ | .finish => true
  | _ => false

/-- Some context is set to zero. -/
def Deed.isReset : Deed → Bool
  | .pass _ .reset => true
  | _ => false

/-- So many advances are underway on a context after a journal: none leaves that has not entered. -/
inductive Underway (context : Context) : List Deed → Nat → Prop where
  | nil : Underway context [] 0
  | enter {js : List Deed} {n : Nat} : Underway context js n → Underway context (.pass context .enter :: js) (n + 1)
  | leave {js : List Deed} {n : Nat} : Underway context js (n + 1) → Underway context (.pass context .leave :: js) n
  | other {d : Deed} {js : List Deed} {n : Nat} : d.crosses context .enter = false → d.crosses context .leave = false →
      Underway context js n → Underway context (d :: js) n

namespace Underway

variable {context : Context} {js : List Deed} {n : Nat}

/-- At every earlier moment some number of advances was underway (`Underway`), too. -/
theorem of_suffix (h : Underway context js n) {past : List Deed} (hpast : past <:+ js) :
    ∃ k, Underway context past k := by
  induction h with
  | nil =>
    rw [List.suffix_nil.mp hpast]
    exact ⟨0, .nil⟩
  | enter h ih =>
    rcases List.suffix_cons_iff.mp hpast with rfl | hpast
    · exact ⟨_, .enter h⟩
    · exact ih hpast
  | leave h ih =>
    rcases List.suffix_cons_iff.mp hpast with rfl | hpast
    · exact ⟨_, .leave h⟩
    · exact ih hpast
  | other henter hleave h ih =>
    rcases List.suffix_cons_iff.mp hpast with rfl | hpast
    · exact ⟨_, .other henter hleave h⟩
    · exact ih hpast

/-- As many have entered as have left or are underway (`Underway`). -/
theorem entered_eq (h : Underway context js n) : entered context js = departed context js + n := by
  induction h with
  | nil => rfl
  | enter _ ih =>
    simp only [entered, departed, List.countP_cons, Deed.crosses] at ih ⊢
    simp
    omega
  | leave _ ih =>
    simp only [entered, departed, List.countP_cons, Deed.crosses] at ih ⊢
    simp
    omega
  | other henter hleave _ ih =>
    simp only [entered, departed, List.countP_cons, henter, hleave] at ih ⊢
    simpa using ih

/-- So their number can be read off the journal. -/
theorem flights_eq (h : Underway context js n) : flights context js = n := by
  have hcount := h.entered_eq
  simp only [flights]
  omega

/-- A deed that is no passage through the `context` by an advance leaves its depth alone or sets it to zero. -/
theorem deepen_other {d : Deed} (henter : d.crosses context .enter = false) (hleave : d.crosses context .leave = false)
    (depth : Nat) :
    d.deepen context depth = depth ∨ d.deepen context depth = 0 ∧ (d.isBreak = true ∨ d.isReset = true) := by
  cases d with
  | pass other way =>
    by_cases hother : other = context
    · cases way with
      | enter => simp [Deed.crosses, hother] at henter
      | leave => simp [Deed.crosses, hother] at hleave
      | reset => exact .inr ⟨by simp [Deed.deepen, hother, Passage.edit], .inr rfl⟩
    · exact .inl (by simp [Deed.deepen, hother])
  | load script =>
    by_cases hown : context = .own
    · exact .inr ⟨by simp [Deed.deepen, hown], .inl rfl⟩
    · exact .inl (by simp [Deed.deepen, hown])
  | answer | collect | offer | jump | finish | adjust | attach => exact .inl rfl

/-- The depth never exceeds the number of advances that are underway: leaving takes one off both, or the depth is zero
    already. -/
theorem depth_le (h : Underway context js n) : depthAfter context 0 js ≤ n := by
  induction h with
  | nil => exact Nat.le_refl 0
  | @enter js n _ ih =>
    have hdepth : depthAfter context 0 (.pass context .enter :: js) = depthAfter context 0 js + 1 := by
      simp [depthAfter, Deed.deepen, Passage.edit]
    omega
  | @leave js n _ ih =>
    have hdepth : depthAfter context 0 (.pass context .leave :: js) = depthAfter context 0 js - 1 := by
      simp [depthAfter, Deed.deepen, Passage.edit]
    omega
  | @other d js n henter hleave _ ih =>
    have hdepth : depthAfter context 0 (d :: js) = d.deepen context (depthAfter context 0 js) := rfl
    rcases deepen_other henter hleave (depthAfter context 0 js) with heq | ⟨heq, -⟩
    all_goals omega

/-- It is that number when it has not been set to zero since none was underway. -/
theorem depth_eq {since before : List Deed} (h : Underway context (since ++ before) n)
    (hbefore : Underway context before 0) (hsince : ∀ d ∈ since, d.isBreak = false ∧ d.isReset = false) :
    depthAfter context 0 (since ++ before) = n := by
  induction since generalizing n with
  | nil =>
    have hzero : n = 0 := h.flights_eq.symm.trans hbefore.flights_eq
    have hle := hbefore.depth_le
    simp only [List.nil_append]
    omega
  | cons d since ih =>
    have hd := hsince d List.mem_cons_self
    have hrest : ∀ e ∈ since, e.isBreak = false ∧ e.isReset = false :=
      fun e he => hsince e (List.mem_cons_of_mem d he)
    -- the number after the earlier deeds says what the last one does to it
    cases h with
    | @enter _ k h =>
      have hk := ih h hrest
      simpa [depthAfter, Deed.deepen, Passage.edit] using hk
    | leave h =>
      have hk := ih h hrest
      simp only [depthAfter, List.foldr_cons, List.cons_append, Deed.deepen, Passage.edit, if_true] at hk ⊢
      omega
    | other henter hleave h =>
      have hk := ih h hrest
      have hdepth : depthAfter context 0 (d :: (since ++ before)) =
          d.deepen context (depthAfter context 0 (since ++ before)) := rfl
      rcases deepen_other henter hleave (depthAfter context 0 (since ++ before)) with heq | ⟨-, hbreak⟩
      · exact (hdepth.trans heq).trans hk
      · simp [hd] at hbreak

/-- Deeds on the side (`isAside`) are no passages. -/
theorem asides (h : Underway context js n) {asides : List Deed} (hasides : ∀ d ∈ asides, d.isAside = true) :
    Underway context (asides ++ js) n := by
  induction asides with
  | nil => exact h
  | cons d asides ih =>
    have hd := hasides d List.mem_cons_self
    refine .other ?_ ?_ (ih fun e he => hasides e (List.mem_cons_of_mem d he))
    all_goals cases d with
    | pass => cases hd
    | load | answer | collect | offer | jump | finish | adjust | attach => rfl

end Underway

/-- Contexts are set to zero as part of the end of a scene only. -/
inductive ResetsAtEnds : List Deed → Prop where
  | nil : ResetsAtEnds []
  | ends {js : List Deed} (context : Context) :
      ResetsAtEnds js → ResetsAtEnds (.finish :: .pass context .reset :: js)
  | other {d : Deed} {js : List Deed} : d.isReset = false → ResetsAtEnds js → ResetsAtEnds (d :: js)

namespace ResetsAtEnds

theorem append {js ds : List Deed} (h : ResetsAtEnds js) (hds : ∀ d ∈ ds, d.isReset = false) :
    ResetsAtEnds (ds ++ js) := by
  induction ds with
  | nil => exact h
  | cons d ds ih => exact .other (hds d List.mem_cons_self) (ih fun e he => hds e (List.mem_cons_of_mem d he))

/-- Where no end has come no context has been set to zero. -/
theorem not_reset {since before : List Deed} (h : ResetsAtEnds (since ++ before))
    (hsince : ∀ d ∈ since, d.isBreak = false) : ∀ d ∈ since, d.isReset = false := by
  induction since with
  | nil => simp
  | cons d since ih =>
    rw [List.cons_append] at h
    generalize heq : since ++ before = js at h
    cases h with
    | ends context h =>
      have hbreak := hsince .finish List.mem_cons_self
      cases hbreak
    | other hd h =>
      have hrest := ih (heq ▸ h) fun e he => hsince e (List.mem_cons_of_mem d he)
      simp only [List.mem_cons]
      rintro e (rfl | he)
      · exact hd
      · exact hrest e he

theorem asides {js asides : List Deed} (h : ResetsAtEnds js) (hasides : ∀ d ∈ asides, d.isAside = true) :
    ResetsAtEnds (asides ++ js) := by
  refine h.append fun d hd => ?_
  have haside := hasides d hd
  cases d with
  | pass => cases haside
  | load | answer | collect | offer | jump | finish | adjust | attach => rfl

/-- A `Round` that ends the scene sets its context to zero and tells of the end, one right after the other. -/
theorem round {js : List Deed} {beat : List Command} {script : Script} {number chain : Nat}
    {context : Context} {t : Stride} (hround : Round beat script number chain context t) (h : ResetsAtEnds js) :
    ResetsAtEnds (t.deeds ++ js) := by
  cases hround with
  | ends hbeat => exact .ends context (.other rfl h)
  | collects hbeat => exact .other rfl h

/-- The strides (`Plays`): only a round sets a context to zero. -/
theorem plays {react : Reactions} {s : Session} {group : Option Nat} {number chain : Nat}
    {failure : Option Failure} {frame : Frame} {t : Stride} {js : List Deed}
    (hplays : Plays react s number group chain failure frame t) (h : ResetsAtEnds js) :
    ResetsAtEnds (t.deeds ++ js) := by
  cases hplays with
  | idles | shows | dwells | nests | announces | starts | reports | deserted | fails => exact h
  | offers | jumps | stops | leaves | gives => exact .other rfl h
  | enters hfinished hround =>
    rw [List.append_assoc]
    exact round hround (.other rfl h)
  | continues hfinished hround => exact round hround h

end ResetsAtEnds

/-! ## Frames in flight -/

/-- `f.holds context` — a frame counts as one if it has the context to leave. -/
def Frame.holds (context : Context) (f : Frame) : Nat := if f.context? = some context then 1 else 0

namespace Underway

variable {context other : Context} {js : List Deed} {n k : Nat}

/-- An advance enters some `context`, as the frame that will leave it appears.  If it is another one, nothing has
    happened to ours. -/
theorem enters (h : Underway context js n) (other : Context) :
    Underway context (.pass other .enter :: js) (n + (Frame.leave other).holds context) := by
  by_cases hother : other = context
  · rw [hother]
    have hone : (Frame.leave context).holds context = 1 := by simp [Frame.holds, Frame.context?]
    rw [hone]
    exact .enter h
  · have hzero : (Frame.leave other).holds context = 0 := by simp [Frame.holds, Frame.context?, hother]
    rw [hzero]
    exact .other (by simp [Deed.crosses, hother]) (by simp [Deed.crosses]) h

/-- And it leaves the `context`, as the frame disappears. -/
theorem leaves (h : Underway context js (n + (Frame.leave other).holds context)) :
    Underway context (.pass other .leave :: js) n := by
  by_cases hother : other = context
  · rw [hother] at h ⊢
    have hone : (Frame.leave context).holds context = 1 := by simp [Frame.holds, Frame.context?]
    rw [hone] at h
    exact .leave h
  · have hzero : (Frame.leave other).holds context = 0 := by simp [Frame.holds, Frame.context?, hother]
    rw [hzero] at h
    exact .other (by simp [Deed.crosses]) (by simp [Deed.crosses, hother]) h

/-- Setting to zero is no passage of an advance. -/
theorem resets (h : Underway context js n) (other : Context) : Underway context (.pass other .reset :: js) n :=
  .other (by simp [Deed.crosses]) (by simp [Deed.crosses]) h

/-- The advance of a `Round` is in flight before and after it, or leaves with it. -/
theorem round {beat : List Command} {script : Script} {number chain : Nat} {t : Stride}
    (hround : Round beat script number chain other t) (h : Underway context js n)
    (hk : k + (Frame.leave other).holds context = n + t.yields (Frame.holds context)) :
    Underway context (t.deeds ++ js) k := by
  cases hround with
  | ends hbeat =>
    have hsame : k = n := by simpa [Stride.yields, Frame.holds, Frame.context?] using hk
    exact .other rfl rfl (resets (.other rfl rfl (hsame ▸ h)) other)
  | collects hbeat =>
    have hsame : k = n := by simpa [Stride.yields, Frame.holds, Frame.context?] using hk
    exact .other rfl rfl (hsame ▸ h)

/-- Every stride keeps the account: what enters brings a frame that holds the context, and what leaves takes it away. -/
theorem plays {react : Reactions} {s : Session} {group : Option Nat} {number chain : Nat}
    {failure : Option Failure} {frame : Frame} {t : Stride}
    (hplays : Plays react s number group chain failure frame t) (h : Underway context js n)
    (hk : k + frame.holds context = n + t.yields (Frame.holds context)) : Underway context (t.deeds ++ js) k := by
  cases hplays with
  | idles hidle hfree =>
    have hfree : frame.context? = none := by
      cases frame with
      | command | acts | settle | advance | sleep => rfl
      | announce | start | beat | reportEnd | leave => cases hidle
    have hsame : k = n := by simpa [Stride.yields, Frame.holds, hfree] using hk
    exact hsame ▸ h
  | shows | dwells | nests | announces | reports | deserted =>
    have hsame : k = n := by simpa [Stride.yields, Frame.holds, Frame.context?] using hk
    exact hsame ▸ h
  | starts =>
    have hsame : k = n := by simpa [Stride.yields, Frame.holds, Frame.context?] using hk
    exact hsame ▸ h
  | offers | jumps =>
    have hsame : k = n := by simpa [Stride.yields, Frame.holds, Frame.context?] using hk
    exact .other rfl rfl (hsame ▸ h)
  -- entering counts one more, and the frames of the round will leave
  | @enters other t hfinished hround =>
    have hnone : (Frame.advance other).holds context = 0 := rfl
    have hyields : Stride.yields (Frame.holds context) { t with deeds := t.deeds ++ [.pass other .enter] } =
        t.yields (Frame.holds context) := rfl
    rw [hnone, hyields] at hk
    rw [List.append_assoc]
    exact round hround (h.enters other) (by omega)
  | @continues other onChoice t hfinished hround => exact round hround h hk
  -- the frame that holds the context is gone, and with it the advance has left
  | stops | leaves =>
    simp only [Stride.yields, List.map_nil, List.sum_nil, add_zero] at hk
    rw [← hk] at h
    exact leaves h
  | fails hnone =>
    have hsame : k = n := by simpa [Stride.yields, Frame.holds, hnone] using hk
    exact hsame ▸ h
  -- so it is when the advance is given up
  | @gives frame other failure hsome =>
    simp only [Frame.holds, hsome, Stride.yields, List.map_nil, List.sum_nil, add_zero] at hk
    exact leaves (hk ▸ h)

end Underway

namespace Stage

variable {react : Reactions} {w w' : Stage} {context : Context}

/-- `w.inFlight context` — how many advances are in flight on the context. -/
def inFlight (w : Stage) (context : Context) : Nat := w.gear.tally (Frame.holds context)

/-- Whatever happens next keeps the account, by the cases of `Stage.Change.weighs`. -/
theorem underway_next (h : Underway context w.journal (w.inFlight context)) (hnext : Next react w w') :
    Underway context w'.journal (w'.inFlight context) := by
  obtain ⟨m, hmakes⟩ := hnext.makes
  cases hmakes.change.weighs (Frame.holds context) fun _ => rfl with
  | keeps hasides htally hrecords =>
    rw [hrecords.journal_eq, inFlight, htally]
    exact h.asides hasides
  | strides hplays hasides htally hrecords =>
    rw [hrecords.journal_eq, List.append_assoc]
    exact (Underway.plays hplays h htally).asides hasides
  -- from outside come advances and commands that have entered nothing yet
  | @spawns _ frames hframes htally hrecords =>
    have hnone : (frames.map (Frame.holds context)).sum = 0 := by
      refine List.sum_eq_zero fun n hn => ?_
      obtain ⟨f, hf, rfl⟩ := List.mem_map.mp hn
      have houtside := hframes f hf
      cases f with
      | advance | sleep | command => rfl
      | acts | settle | announce | start | beat | reportEnd | leave => cases houtside
    rw [hrecords.journal_eq, inFlight, htally, hnone]
    exact h

theorem resetsAtEnds_next (h : ResetsAtEnds w.journal) (hnext : Next react w w') : ResetsAtEnds w'.journal := by
  obtain ⟨m, hmakes⟩ := hnext.makes
  cases hmakes.change with
  | aside haside =>
    obtain ⟨asides, hasides, hrecords⟩ := haside.records
    exact hrecords.journal_eq ▸ h.asides hasides
  | strides _ _ hplays _ hasides hrecords =>
    rw [hrecords.journal_eq, List.append_assoc]
    exact (h.plays hplays).asides hasides
  | acts _ _ _ _ hasides hrecords => exact hrecords.journal_eq ▸ h.asides hasides
  | turns _ hrecords => exact hrecords.journal_eq ▸ h
  | spawns _ _ hrecords => exact hrecords.journal_eq ▸ h

/-- The journal of a reachable stage tells how many advances are in flight (`inFlight`). -/
theorem New.underway {w₀ : Stage} (h₀ : w₀.New) (h : Reaches react w₀ w) (context : Context) :
    Underway context w.journal (w.inFlight context) ∧ ResetsAtEnds w.journal := by
  induction h with
  | refl =>
    have hchains : w₀.gear.chains = [] := congrArg Gear.chains h₀.gear_eq
    have hnone : w₀.inFlight context = 0 := by simp [inFlight, Gear.tally, hchains]
    rw [hnone, h₀.journal_eq]
    exact ⟨.nil, .nil⟩
  | tail _ hnext ih => exact ⟨underway_next ih.1 hnext, resetsAtEnds_next ih.2 hnext⟩

/-- In all that a reachable stage has passed through the depth of a context is at most the number of advances that have
    entered it and not left it, which are the ones in flight (`inFlight`); and it is that number when neither a
    load nor the end of a scene has come since none was in flight.  So the session can advance when none is in
    flight on its own context, and cannot while one is, up to a load or an end. -/
theorem depth_counts_flights {w₀ : Stage} (h₀ : w₀.New) (h : Reaches react w₀ w) (context : Context) :
    w.depth context = depthAfter context 0 w.journal ∧
    flights context w.journal = w.inFlight context ∧
    (∀ past, past <:+ w.journal →
      departed context past ≤ entered context past ∧ depthAfter context 0 past ≤ flights context past) ∧
    (∀ since before, w.journal = since ++ before → flights context before = 0 →
      (∀ d ∈ since, d.isBreak = false) →
      ∀ past, past <:+ w.journal → before <:+ past → depthAfter context 0 past = flights context past) ∧
    (w.inFlight .own = 0 → w.view.canAdvance = true) ∧
    ∀ since before, w.journal = since ++ before → flights .own before = 0 → (∀ d ∈ since, d.isBreak = false) →
      0 < w.inFlight .own → w.view.canAdvance = false := by
  have hexact : ∀ (context : Context) since before, w.journal = since ++ before → flights context before = 0 →
      (∀ d ∈ since, d.isBreak = false) →
      ∀ past, past <:+ w.journal → before <:+ past → depthAfter context 0 past = flights context past := by
    intro context since before hsplit hnone hsince past hpast hbefore
    obtain ⟨hunderway, hresets⟩ := h₀.underway h context
    rw [hsplit] at hresets hpast
    have hreset := hresets.not_reset hsince
    obtain ⟨n, hn⟩ := hunderway.of_suffix (hsplit ▸ hpast)
    obtain ⟨k, hk⟩ := hunderway.of_suffix (hsplit ▸ List.suffix_append since before)
    obtain ⟨between, rfl⟩ := hbefore
    obtain ⟨after, hafter⟩ := hpast
    -- what lies between is a part of what has been done since
    have hpart : since = after ++ between := by
      rw [← List.append_assoc] at hafter
      exact (List.append_cancel_right hafter).symm
    rw [hn.flights_eq]
    rw [hk.flights_eq] at hnone
    refine hn.depth_eq (hnone ▸ hk) fun d hd => ?_
    have hmem : d ∈ since := hpart ▸ List.mem_append_right after hd
    exact ⟨hsince d hmem, hreset d hmem⟩
  have hview : w.view.canAdvance = decide (depthAfter .own 0 w.journal = 0) := by
    rw [← h₀.depth_reaches h .own]
    rfl
  have hown := (h₀.underway h .own).1
  refine ⟨h₀.depth_reaches h context, (h₀.underway h context).1.flights_eq, fun past hpast => ?_, hexact context, ?_,
    ?_⟩
  · obtain ⟨n, hn⟩ := (h₀.underway h context).1.of_suffix hpast
    have hcount := hn.entered_eq
    rw [hn.flights_eq]
    exact ⟨by omega, hn.depth_le⟩
  · intro hnone
    have hle := hown.depth_le
    rw [hview]
    exact decide_eq_true (by omega)
  · intro since before hsplit hnone hsince hpos
    have heq := hexact .own since before hsplit hnone hsince w.journal (List.suffix_refl _)
      (hsplit ▸ List.suffix_append since before)
    rw [hown.flights_eq] at heq
    rw [hview]
    exact decide_eq_false (by omega)

/-- When a listener advances from within an advance two of them are in flight, and both count. -/
theorem depth_counts_flights_shortcut :
    ({} : Stage).New ∧
      ∃ w, Reaches eager {} w ∧ w.inFlight .own = 2 ∧ w.depth .own = 2 ∧ w.view.canAdvance = false := by
  have hnew : ({} : Stage).New := ⟨⟨rfl, rfl, rfl⟩, rfl, rfl⟩
  obtain ⟨w, hrun, hjournal⟩ := Option.map_eq_some_iff.mp shortcut_journal
  obtain ⟨v, hload, hsteps⟩ := Option.bind_eq_some_iff.mp hrun
  have hspawn : Next eager v (v.spawn [.advance .own] none) := .spawn (by simp [Frame.FromOutside])
  have hreach : Reaches eager {} w :=
    (Reaches.loadScript shortcut_read hload).trans (.head hspawn (Reaches.steps hsteps))
  obtain ⟨hdepth, hflights, -, hexact, -, hbusy⟩ := depth_counts_flights hnew hreach .own
  -- nothing has been in flight before the load
  have hsplit : w.journal = w.journal.take 4 ++ [.load shortcut] := by rw [hjournal]; rfl
  have hstride : ∀ d ∈ w.journal.take 4, d.isBreak = false := by
    rw [hjournal]
    simp [Deed.isBreak]
  have htwo : flights .own w.journal = 2 := by rw [hjournal]; rfl
  have hsuffix : [.load shortcut] <:+ w.journal := ⟨_, hsplit.symm⟩
  refine ⟨hnew, w, hreach, hflights ▸ htwo, ?_, ?_⟩
  · rw [hdepth, hexact _ _ hsplit rfl hstride _ (List.suffix_refl _) hsuffix, htwo]
  · exact hbusy _ _ hsplit rfl hstride (by omega)

end Stage

end ChatScene
