/-
  A console records only what it offers.

  While a scene is played on a terminal nobody sets a variable but the console, and the console sets one only to answer
  the choice that waits.  That is the choice that was shown last, with a number before each answer; the console reads
  lines until one of them is such a number, and takes the answer that stands after it.

  1. **Lines** — a line `Prompt.Names` an answer if it is read as a number between one and the number of choices.
     `pick` takes just these lines (`pick_eq_some_iff`), and asking goes on until the first of them (`askFrom_cases`).

  2. **Rounds** — between two rounds (`Console.BetweenRounds`) nothing is on its way, no choice waits and all variables
     have been offered.  An advance ends in the same way, but for the choice that waits, which was shown last
     (`Console.Advanced`); then the console answers it, and is between two rounds again.

  3. **Ends** — how a round ends is listed by `Console.Concludes`: the scene ends, or an answer is taken and recorded,
     or the input ends while the choice waits.

  4. **Main result** (`records_only_offers`) — on every stage that the console passes through, each variable holds a
     choice that the script offers for it, and every round concludes in one of these ways.

  The acts of a listener or a handler could set variables too, so it is assumed of them that they neither call nor fail
  (`NeitherCallsNorFails`).
-/
import ChatScene.Proofs.Observers
import ChatScene.Proofs.Offering
import ChatScene.Proofs.Sights
import ChatScene.Proofs.Trimming

namespace ChatScene

open Relation (ReflTransGen)

/-! ## Reading numbers of choices -/

/-- Blanks around a number do not matter to reading it, so it makes no difference whether a line is trimmed (`trim`)
    first. -/
theorem Decimal.readInt_trim (cs : List Char) : Decimal.readInt (Text.trim cs) = Decimal.readInt cs := by
  simp only [Decimal.readInt, Text.trim_trim]

namespace Prompt

variable {choices : List String} {line text : String}

/-- `Names count line n` — a line that is read as a number between one and the number of choices. -/
def Names (count : Nat) (line : String) (n : Nat) : Prop :=
  Decimal.readInt line.toList = some (n : Int) ∧ 1 ≤ n ∧ n ≤ count

/-- A line picks the answer with the number that it names. -/
theorem pick_eq_some_iff :
    pick choices line = some text ↔ ∃ n, Names choices.length line n ∧ choices[n - 1]? = some text := by
  unfold pick Names
  rw [Decimal.readInt_trim]
  constructor
  · intro h
    split at h
    · rename_i n hn
      split at h
      · -- the number has to be positive, and the position must exist
        rename_i hpos
        obtain ⟨hlt, -⟩ := List.getElem?_eq_some_iff.mp h
        refine ⟨n.toNat, ⟨?_, by omega, by omega⟩, h⟩
        rw [hn, Int.toNat_of_nonneg (by omega)]
      · cases h
    · cases h
  · rintro ⟨n, ⟨hn, hpos, -⟩, htext⟩
    rw [hn]
    have hle : (1 : Int) ≤ n := by omega
    simpa [hle] using htext

/-- And it picks nothing just when it names no answer. -/
theorem pick_eq_none_iff : pick choices line = none ↔ ∀ n, ¬ Names choices.length line n := by
  rw [← not_iff_not, ← Ne, Option.ne_none_iff_exists']
  constructor
  · rintro ⟨text, htext⟩ hnone
    obtain ⟨n, hn, -⟩ := pick_eq_some_iff.mp htext
    exact hnone n hn
  · intro h
    obtain ⟨n, hn⟩ := not_forall_not.mp h
    have hlt : n - 1 < choices.length := by
      have := hn.2
      omega
    exact ⟨choices[n - 1], pick_eq_some_iff.mpr ⟨n, hn, List.getElem?_eq_getElem hlt⟩⟩

/-- The lines are read one after the other until one of them picks an answer (`pick`); those before it are turned down.
    If there is none, all lines are. -/
theorem askFrom_cases (choices : List String) (turned : Nat) (lines : List String) :
    (∃ bad line rest text, lines = bad ++ line :: rest ∧ (∀ l ∈ bad, pick choices l = none) ∧
      pick choices line = some text ∧ askFrom choices turned lines = ⟨some text, turned + bad.length, rest⟩) ∨
    (∀ l ∈ lines, pick choices l = none) ∧ askFrom choices turned lines = ⟨none, turned + lines.length, []⟩ := by
  -- on the lines, with the count of those that were turned down before left open
  induction lines generalizing turned with
  | nil => exact .inr ⟨by simp, rfl⟩
  | cons line lines ih =>
    cases hpick : pick choices line with
    | some text => exact .inl ⟨[], line, lines, text, rfl, by simp, hpick, by simp [askFrom, hpick]⟩
    | none =>
      have hcount : ∀ bad : List String, turned + 1 + bad.length = turned + (line :: bad).length := by
        intro bad
        rw [List.length_cons]
        omega
      have hask : askFrom choices turned (line :: lines) = askFrom choices (turned + 1) lines := by
        simp [askFrom, hpick]
      rw [hask]
      rcases ih (turned + 1) with ⟨bad, good, rest, text, rfl, hbad, hgood, heq⟩ | ⟨hall, heq⟩
      · refine .inl ⟨line :: bad, good, rest, text, rfl, ?_, hgood, by rw [heq, hcount]⟩
        exact List.forall_mem_cons.mpr ⟨hpick, hbad⟩
      · exact .inr ⟨List.forall_mem_cons.mpr ⟨hpick, hall⟩, by rw [heq, hcount]⟩

/-- `exchange count bad` — what is written while lines are turned down: the question, and for every line one reproof
    and the question again. -/
def exchange (count : Nat) (bad : List String) : List Piece :=
  .ask (question count) :: bad.flatMap fun _ => [.out (reproof count), .ask (question count)]

/-- What is written (`exchange`) depends on how many lines have been turned down, and not on what they say. -/
theorem Dialogue.written_eq {d : Dialogue} {bad : List String} (h : d.rejected = bad.length) (count : Nat) :
    d.written count = exchange count bad := by
  have hreplicate : List.replicate bad.length (reproof count) = bad.map fun _ => reproof count :=
    (List.map_const' ..).symm
  rw [Dialogue.written, Dialogue.reproofs, h, hreplicate, exchange, List.flatMap_map]

end Prompt

/-- The answers of a choice stand after their numbers: number `n` in the line that has index `n - 1`. -/
theorem presentCommand_choice {catalog : Option Catalog} {d : Command} {var : String} {choices : List String}
    (hbody : d.body = .choice var choices) {n : Nat} (hpos : 1 ≤ n) {text : String}
    (htext : choices[n - 1]? = some text) :
    (presentCommand catalog d)[n - 1]? = some (.line s!"  {n}) {text}") := by
  have hnumber : n - 1 + 1 = n := by omega
  simp [presentCommand, hbody, htext, hnumber]

/-! ## Rounds of a console -/

/-- `ShowsLast script offer d seen` — a choice of the script is shown, and no other choice after it. -/
structure ShowsLast (script : Script) (offer : Offer) (d : Command) (seen : List Moment) : Prop where
  mem : d ∈ script.commands
  body_eq : d.body = .choice offer.var offer.choices
  last : ∃ before time after, seen = before ++ .shown d time :: after ∧
    ∀ e time', Moment.shown e time' ∈ after → e.offer? = none

/-- The last offer among the calls is the one that was seen last. -/
theorem lastOffer_filterMap (seen : List Moment) :
    lastOffer (seen.filterMap Moment.call?) = seen.reverse.findSome? fun m => m.call?.bind Call.offer? := by
  rw [lastOffer, ← List.filterMap_reverse, ← List.head?_filterMap, List.filterMap_filterMap, List.head?_filterMap]

/-- An offer is seen when its choice is shown, and at no other moment. -/
theorem Moment.shown_of_offer {m : Moment} {offer : Offer} (h : (m.call?.bind Call.offer?) = some offer) :
    ∃ d time, m = .shown d time ∧ d.offer? = some offer := by
  cases m with
  | shown d time => exact ⟨d, time, rfl, h⟩
  | ended | log | heard | note | view => cases h

namespace Console

variable {react : Reactions} {script : Script} {c c' : Console} {lines : List String} {fuel : Nat}
  {failure : Option ConsoleFailure}

/-- How a round ends, when these lines are left on the input before it. -/
inductive Concludes (script : Script) (c : Console) (lines : List String) : Console → Option ConsoleFailure → Prop where
  /-- No choice is shown: nothing is asked, no line is read, and no variable is set. -/
  | goesOn {c' : Console} {seen : List Moment} :
      (∀ e time, Moment.shown e time ∈ seen → e.offer? = none) →
      c'.written = c.written ++ seen.flatMap (Moment.present c.catalog) →
      c'.asked = c.asked → c'.answers = .lines lines →
      c'.stage.session.store = c.stage.session.store → c'.stage.session.pending = none →
      Concludes script c lines c' none
  /-- The choice that is shown last is asked for.  The lines before the first one that names an answer are turned down,
      each with one reproof, and the answer that was written after the number is recorded. -/
  | takes {c' : Console} {d : Command} {offer : Offer} {seen later : List Moment} {time : Float}
      {bad rest : List String} {line text : String} {n : Nat} :
      ShowsLast script offer d seen →
      lines = bad ++ line :: rest → (∀ l ∈ bad, ∀ m, ¬ Prompt.Names offer.choices.length l m) →
      Prompt.Names offer.choices.length line n →
      (presentCommand c.catalog d)[n - 1]? = some (.line s!"  {n}) {text}") → offer.choices[n - 1]? = some text →
      c'.written = c.written ++ seen.flatMap (Moment.present c.catalog) ++
        .clock time :: Prompt.exchange offer.choices.length bad ++ later.flatMap (Moment.present c.catalog) →
      c'.asked = c.asked ++ [offer] → c'.answers = .lines rest →
      c'.stage.session.store = putVariable offer.var text c.stage.session.store → c'.stage.session.pending = none →
      Concludes script c lines c' none
  /-- No line names an answer: all are turned down, and nothing is recorded. -/
  | runsOut {c' : Console} {d : Command} {offer : Offer} {seen : List Moment} {time : Float} :
      ShowsLast script offer d seen → (∀ l ∈ lines, ∀ m, ¬ Prompt.Names offer.choices.length l m) →
      c'.written = c.written ++ seen.flatMap (Moment.present c.catalog) ++
        .clock time :: Prompt.exchange offer.choices.length lines →
      c'.asked = c.asked ++ [offer] → c'.answers = .lines [] →
      c'.stage.session.store = c.stage.session.store →
      Concludes script c lines c' (some .endOfInput)

/-- The console writes all that is new (`Moment.present`), after what it has written. -/
theorem display_sees {v : Stage} (h : c.stage.SeesMore v) :
    ∃ seen : List Moment, v.calls = c.stage.calls ++ seen.filterMap Moment.call? ∧
      c.display v =
        { c with stage := v, written := c.written ++ seen.flatMap (Moment.present c.catalog) } := by
  obtain ⟨fresh, hfresh⟩ := h
  refine ⟨fresh.reverse, ?_, ?_⟩
  · simp [Stage.calls, ← hfresh]
  · simp [display, ← hfresh]

/-- `c.asking offer bad rest` — the console after it has asked for a choice: these lines have been turned down, and
    those are left. -/
def asking (c : Console) (offer : Offer) (bad rest : List String) : Console :=
  { c with answers := .lines rest, asked := c.asked ++ [offer]
           written := c.written ++ .clock c.stage.now :: Prompt.exchange offer.choices.length bad }

/-- Asking reads lines until one of them names an answer (`Prompt.Names`), and fails when there are no more. -/
theorem consult_cases (hlines : c.answers = .lines lines) (offer : Offer) :
    (∃ bad line rest n text, lines = bad ++ line :: rest ∧
      (∀ l ∈ bad, ∀ m, ¬ Prompt.Names offer.choices.length l m) ∧ Prompt.Names offer.choices.length line n ∧
      offer.choices[n - 1]? = some text ∧ c.consult offer = (c.asking offer bad rest, .ok text)) ∨
    (∀ l ∈ lines, ∀ m, ¬ Prompt.Names offer.choices.length l m) ∧
      c.consult offer = (c.asking offer lines [], .error .endOfInput) := by
  rcases Prompt.askFrom_cases offer.choices 0 lines with
    ⟨bad, line, rest, text, hsplit, hbad, hgood, hask⟩ | ⟨hbad, hask⟩
  · obtain ⟨n, hn, htext⟩ := Prompt.pick_eq_some_iff.mp hgood
    refine .inl ⟨bad, line, rest, n, text, hsplit, fun l hl => Prompt.pick_eq_none_iff.mp (hbad l hl), hn, htext, ?_⟩
    have hwritten := Prompt.Dialogue.written_eq (d := ⟨some text, 0 + bad.length, rest⟩) (Nat.zero_add _)
      offer.choices.length
    simp [consult, asking, Answers.reply, hlines, Prompt.ask, hask, ← hwritten]
  · refine .inr ⟨fun l hl => Prompt.pick_eq_none_iff.mp (hbad l hl), ?_⟩
    have hwritten := Prompt.Dialogue.written_eq (d := ⟨none, 0 + lines.length, []⟩) (Nat.zero_add _)
      offer.choices.length
    simp [consult, asking, Answers.reply, hlines, Prompt.ask, hask, ← hwritten]

/-- `c.BetweenRounds script lines` — between two rounds, with these lines left on the input. -/
structure BetweenRounds (script : Script) (lines : List String) (c : Console) : Prop where
  stage : c.stage.BetweenRounds script
  answered : c.stage.session.pending = none
  answers_eq : c.answers = .lines lines

/-- `c.Advanced script v seen` — an advance of the console has returned, and this has been seen meanwhile: the choice
    that waits now, if there is one, was shown last. -/
structure Advanced (script : Script) (c : Console) (v : Stage) (seen : List Moment) : Prop where
  stage : v.BetweenRounds script
  store_eq : v.session.store = c.stage.session.store
  display_eq : c.display v = { c with stage := v, written := c.written ++ seen.flatMap (Moment.present c.catalog) }
  none_shown : v.session.pending = none → ∀ e time, Moment.shown e time ∈ seen → e.offer? = none
  shows_last : ∀ offer, v.session.pending = some offer → ∃ d, ShowsLast script offer d seen

/-- The host advances between two rounds (`BetweenRounds`).  The advance does not fail, and if a choice waits
    afterwards it was shown last. -/
theorem BetweenRounds.advance (hreact : NeitherCallsNorFails react) (h : c.BetweenRounds script lines)
    {v : Stage} {failure : Option Failure}
    (hr : c.stage.advance react fuel .own = some (v, failure)) : failure = none ∧ ∃ seen, c.Advanced script v seen := by
  obtain ⟨hfailure, hv, calls, hleads⟩ := h.stage.advance hreact hr
  obtain ⟨seen, hcalls, hdisplay⟩ := display_sees (Stage.SeesMore.of_advance hr)
  -- the calls of the advance are those among the moments, so the choice that waits is found in what was seen
  have hsame : calls = seen.filterMap Moment.call? := List.append_cancel_left (hleads.calls_eq.symm.trans hcalls)
  have hpending : v.session.pending = seen.reverse.findSome? fun m => m.call?.bind Call.offer? := by
    have hwaiting : v.session.pending = (lastOffer calls).or c.stage.session.pending := hleads.pending_eq
    rw [hwaiting, h.answered, Option.or_none, hsame, lastOffer_filterMap]
  refine ⟨hfailure, seen, hv, hleads.store_eq, hdisplay, fun hnone e time he => ?_, fun offer hoffer => ?_⟩
  · rw [hpending, List.findSome?_eq_none_iff] at hnone
    exact hnone _ (List.mem_reverse.mpr he)
  · rw [hpending, List.findSome?_eq_some_iff] at hoffer
    obtain ⟨after, m, before, hsplit, hm, hafter⟩ := hoffer
    have hseen : seen = before.reverse ++ m :: after.reverse := by
      rw [← List.reverse_reverse seen, hsplit]
      simp
    obtain ⟨d, time, rfl, hoffer⟩ := Moment.shown_of_offer hm
    have hmem : Call.shown d ∈ calls := by
      rw [hsame, hseen]
      simp [Moment.call?]
    refine ⟨d, ?_, d.body_of_offer? hoffer, before.reverse, time, after.reverse, hseen, ?_⟩
    · rw [← h.stage.script_eq]
      exact hleads.mem d hmem
    · intro e time' he
      exact hafter _ (List.mem_reverse.mp he)

/-- What comes of the choice that waits after an advance (`Concludes`): an answer is recorded, or the input ends. -/
theorem Advanced.answer (hreact : NeitherCallsNorFails react) (hlines : c.answers = .lines lines) {v : Stage}
    {seen : List Moment} (h : c.Advanced script v seen) {offer : Offer} (hpending : v.session.pending = some offer)
    (hr : (c.display v).answer fuel react = some (c', failure)) :
    c.Concludes script lines c' failure ∧ (failure = none → ∃ rest, rest <:+ lines ∧ c'.BetweenRounds script rest) := by
  obtain ⟨d, hd⟩ := h.shows_last offer hpending
  rw [h.display_eq] at hr
  simp only [Console.answer, hpending] at hr
  -- the lines are read up to the first answer that counts, or to their end
  rcases consult_cases (c := { c with stage := v, written := _ }) hlines offer with
    ⟨bad, line, rest, n, text, hsplit, hbad, hn, htext, hconsult⟩ | ⟨hbad, hconsult⟩
  · rw [hconsult] at hr
    obtain ⟨⟨u, f⟩, hset, heq⟩ := Option.map_eq_some_iff.mp hr
    cases heq
    -- the answer is one of those that were offered, so setting the variable is what the choice allows
    have hvalue : text ∈ offer.choices := List.mem_of_getElem? htext
    obtain ⟨rfl, hu, hstore, hnone⟩ := h.stage.setVariable hreact hd.mem hd.body_eq hvalue hset
    obtain ⟨later, -, hlater⟩ := display_sees (c := asking _ offer bad rest) (Stage.SeesMore.of_doAct hset)
    rw [hlater]
    refine ⟨.takes hd hsplit hbad hn (presentCommand_choice hd.body_eq hn.2.1 htext) htext rfl rfl rfl ?_ hnone,
      fun _ => ⟨rest, ?_, hu, hnone, rfl⟩⟩
    · rw [← h.store_eq]
      exact hstore
    · rw [hsplit]
      exact (List.suffix_cons line rest).trans (List.suffix_append bad _)
  · rw [hconsult] at hr
    cases hr
    exact ⟨.runsOut hd hbad rfl rfl rfl h.store_eq, fun hnone => by cases hnone⟩

/-- A round concludes, and leaves the console ready for another one unless it failed. -/
theorem BetweenRounds.round (hreact : NeitherCallsNorFails react) (h : c.BetweenRounds script lines)
    (hr : c.round fuel react = some (c', failure)) :
    c.Concludes script lines c' failure ∧ (failure = none → ∃ rest, rest <:+ lines ∧ c'.BetweenRounds script rest) := by
  simp only [Console.round] at hr
  split at hr
  · cases hr
  · -- cannot be: an advance between two rounds does not fail
    rename_i v f hadvance
    obtain ⟨hnone, -⟩ := h.advance hreact hadvance
    cases hnone
  · rename_i v hadvance
    obtain ⟨-, seen, hv⟩ := h.advance hreact hadvance
    cases hpending : v.session.pending with
    | some offer => exact hv.answer hreact h.answers_eq hpending hr
    | none =>
      rw [hv.display_eq] at hr
      simp only [Console.answer, hpending] at hr
      cases hr
      exact ⟨.goesOn (hv.none_shown hpending) rfl rfl h.answers_eq hv.store_eq hpending,
        fun _ => ⟨lines, List.suffix_refl _, hv.stage, hpending, h.answers_eq⟩⟩

/-- After any number of rounds the console is between two rounds (`BetweenRounds`), with a part of the lines left. -/
theorem BetweenRounds.rounds (hreact : NeitherCallsNorFails react) (h : c.BetweenRounds script lines)
    (hrounds : ReflTransGen (Rounds react) c c') :
    ∃ rest, rest <:+ lines ∧ c'.BetweenRounds script rest := by
  induction hrounds with
  | refl => exact ⟨lines, List.suffix_refl _, h⟩
  | tail _ hround ih =>
    obtain ⟨rest, hrest, hbetween⟩ := ih
    obtain ⟨fuel, hr⟩ := hround
    obtain ⟨rest', hrest', hbetween'⟩ := (hbetween.round hreact hr).2 rfl
    exact ⟨rest', hrest'.trans hrest, hbetween'⟩

/-- On every stage of a round (`Passes`) all variables have been offered (`Script.Offers`), in the middle of an advance
    too. -/
theorem BetweenRounds.offers (hreact : NeitherCallsNorFails react) (h : c.BetweenRounds script lines) {w : Stage}
    (hpasses : c.Passes react w) :
    script.Offers w.session.store := by
  cases hpasses with
  | starts => exact h.stage.offered
  | advances harrives =>
    rw [(h.stage.acts_advancing hreact).store_arrives hreact harrives]
    exact h.stage.offered
  -- the answer is one of the choices, so setting it keeps all variables offered
  | @answers fuel v _ offer value hadvance hpending hvalue hsteps =>
    obtain ⟨-, seen, hv⟩ := h.advance hreact hadvance
    obtain ⟨d, hd⟩ := hv.shows_last offer hpending
    have hchosen : value ∈ offer.choices := by
      have hlines : (c.display v).answers = .lines lines := h.answers_eq
      rcases consult_cases hlines offer with ⟨_, _, _, n, text, -, -, -, htext, hconsult⟩ | ⟨-, hconsult⟩
      · rw [hconsult] at hvalue
        cases hvalue
        exact List.mem_of_getElem? htext
      · rw [hconsult] at hvalue
        cases hvalue
    obtain ⟨-, -, hplot⟩ := Stage.setVariable_samePlotAndGear hreact v offer.var value
    have hactsLeft := hv.stage.actsNeitherCallNorFail.of_reaches hreact (.single (.act (.setVariable offer.var value)))
    have hstore : (v.carryOut react (.setVariable offer.var value)).1.session.store =
        putVariable offer.var value v.session.store := congrArg (·.session.store) hplot
    rw [hactsLeft.store_arrives hreact (Stage.Stepping.arrives hsteps 0), hstore]
    exact hv.stage.offered.put hd.mem hd.body_eq hchosen

/-- A scene is played round by round: until it has ended (`finished`), or until a round fails. -/
theorem playOn_rounds {n : Nat} (h : c.playOn fuel react n = some (c', failure)) :
    ∃ u, ReflTransGen (Rounds react) c u ∧
      (u = c' ∧ failure = none ∧ c'.stage.session.finished = true ∨
        u.round fuel react = some (c', failure) ∧ failure ≠ none) := by
  induction n generalizing c with
  | zero => cases h
  | succ n ih =>
    simp only [playOn] at h
    split at h
    · rename_i hfinished
      cases h
      exact ⟨_, .refl, .inl ⟨rfl, rfl, hfinished⟩⟩
    · split at h
      · cases h
      · rename_i u f hround
        cases h
        exact ⟨c, .refl, .inr ⟨hround, by simp⟩⟩
      · -- a round that did not fail, and the rounds after it
        rename_i u hround
        obtain ⟨last, hrounds, hlast⟩ := ih h
        exact ⟨last, .head ⟨fuel, hround⟩ hrounds, hlast⟩

/-- A round whose advance returns comes to its end, with any fuel from some `N` on. -/
theorem BetweenRounds.round_returns (hreact : NeitherCallsNorFails react) (h : c.BetweenRounds script lines)
    (hdrains : ∀ w, c.Passes react w → Stage.Drains react w) {v : Stage}
    (hr : c.stage.advance react fuel .own = some (v, none)) :
    ∃ c' failure N, ∀ more ≥ N, c.round more react = some (c', failure) := by
  obtain ⟨-, seen, hv⟩ := h.advance hreact hr
  have hmore : ∀ more ≥ fuel, c.stage.advance react more .own = some (v, none) :=
    fun more hle => Stage.await_mono hr hle
  have hstage : (c.display v).stage = v := rfl
  cases hpending : v.session.pending with
  | none =>
    refine ⟨c.display v, none, fuel, fun more hle => ?_⟩
    simp [Console.round, hmore more hle, Console.answer, hstage, hpending]
  | some offer =>
    -- asking takes no fuel; only the answer does, since its event has to be delivered
    obtain ⟨asked, hasked⟩ : ∃ asked, asked = (c.display v).consult offer := ⟨_, rfl⟩
    obtain ⟨c', reply⟩ := asked
    have hc' : c'.stage = v := congrArg (·.1.stage) hasked
    cases reply with
    | error f =>
      refine ⟨c', some f, fuel, fun more hle => ?_⟩
      simp [Console.round, hmore more hle, Console.answer, hstage, hpending, ← hasked]
    | ok value =>
      have hset := hdrains _ (.answers hr hpending (congrArg Prod.snd hasked.symm) .refl)
      obtain ⟨u, N, hset, -⟩ := hv.stage.atRest.setsVariable hreact hset
      refine ⟨c'.display u, none, max fuel N, fun more hle => ?_⟩
      have hdone := hset more (by omega)
      simp [Console.round, hmore more (by omega), Console.answer, hstage, hpending, ← hasked, hc', hdone]

/-- A scene that has been loaded leaves the console before its first round, which is `BetweenRounds` with all of the
    input: no choice waits and no variable is set. -/
theorem betweenRounds_of_load {c₀ : Console} (hreact : NeitherCallsNorFails react)
    (hactsLeft : c₀.stage.ActsNeitherCallNorFail) (hidle : c₀.stage.gear.Idle)
    (hattached : c₀.stage.session.attached = true) (hlines : c₀.answers = .lines lines)
    (hload : c₀.load fuel script react = some c) : c.BetweenRounds script lines := by
  obtain ⟨v, hv, rfl⟩ := Option.map_eq_some_iff.mp hload
  obtain ⟨hrest, hsamePlot⟩ := Stage.loadScript_atRest hreact hidle hv
  have hgear : v.gear = c₀.stage.gear := hsamePlot.gear_eq
  have hplot : v.plot = (c₀.stage.record (.load script)).plot := hsamePlot.plot_eq
  have hstore : v.session.store = [] := congrArg (·.session.store) hplot
  refine ⟨⟨hrest, ?_, ?_, ?_, ?_⟩, ?_, hlines⟩
  · show v.gear.Every _
    rw [hgear]
    exact hactsLeft
  · exact (congrArg (·.session.attached) hplot).trans hattached
  · exact congrArg (·.session.script) hplot
  · show script.Offers v.session.store
    rw [hstore]
    exact fun _ hentry => by cases hentry
  · exact congrArg (·.session.pending) hplot

/-- A scene is loaded on a console that reads its answers from an input; no chain is on its way, there is a listener,
    and whoever reacts to the session neither calls nor fails.  However far the scene is played (`Rounds`):

    - on every stage of every round, each variable has one of the answers of a choice of the script for that variable;
    - every round concludes (`Concludes`): a round that shows a choice asks for the one that it showed last, takes the
      first line that is read as the number of an answer, with one reproof for each line before, and records the answer
      that was written after this number; where there is no such line, the round fails and nothing is recorded;
    - a round in which every publish comes to an end comes to its end once its advance has;
    - playing the scene is nothing but such rounds. -/
theorem records_only_offers {w₀ : Stage} {c₀ c₁ : Console} {input : List String} (h₀ : w₀.Fresh)
    (hreaches : Stage.Reaches react w₀ c₀.stage) (hidle : c₀.stage.gear.Idle)
    (hattached : c₀.stage.session.attached = true) (hreact : NeitherCallsNorFails react)
    (hinput : c₀.answers = .lines input) (hload : c₀.load fuel script react = some c₁) :
    (∀ c, ReflTransGen (Rounds react) c₁ c →
      (∀ w, c.Passes react w → script.Offers w.session.store) ∧
      (∃ lines, lines <:+ input ∧ c.answers = .lines lines ∧
        ∀ more c' failure, c.round more react = some (c', failure) → c.Concludes script lines c' failure) ∧
      ((∀ w, c.Passes react w → Stage.Drains react w) → ∀ more v, c.stage.advance react more .own = some (v, none) →
        ∃ c' failure N, ∀ more ≥ N, c.round more react = some (c', failure))) ∧
    ∀ more c₂ failure, c₁.play more react = some (c₂, failure) →
      ∃ c, ReflTransGen (Rounds react) c₁ c ∧
        (c = c₂ ∧ failure = none ∧ c₂.stage.session.finished = true ∨
          c.round more react = some (c₂, failure) ∧ failure ≠ none) := by
  have hactsLeft := h₀.actsNeitherCallNorFail.of_reaches hreact hreaches
  have hbetween := betweenRounds_of_load hreact hactsLeft hidle hattached hinput hload
  constructor
  · intro c hrounds
    -- any number of rounds leaves the console between two rounds, with some of the lines left
    obtain ⟨lines, hlines, hc⟩ := hbetween.rounds hreact hrounds
    refine ⟨fun w hw => hc.offers hreact hw, ⟨lines, hlines, hc.answers_eq, ?_⟩, ?_⟩
    · intro more c' failure hr
      exact (hc.round hreact hr).1
    · intro hdrains more v hr
      exact hc.round_returns hreact hdrains hr
  · intro more c₂ failure hplay
    have hlisten : c₁.stage.session.attached = true := hbetween.stage.attached
    simp only [play, hlisten, if_true] at hplay
    exact playOn_rounds hplay

/-! ## A choice that is asked twice -/

/-- The texts on the terminal. -/
def shownTexts (written : List Piece) : List String :=
  written.filterMap fun
    | .out text => some (Text.spelled text)
    | .ask text => some text
    | .refused _ | .err _ | .log _ | .clock _ => none

/-- A console for the scene with a jump into its own beat.  Two of the lines are numbers of answers: one in wide digits,
    between blanks, and the last one. -/
def bypassReader : Console where
  stage := { session := { settings := { choiceEndsBeat := false, jumpEndsBeat := false } }, bus := some {} }
  answers := .lines ["", "three", "3", " ２ ", "1_", "1"]

/-- Two choices are shown in the first beat, and the second of them is asked for, once more after the jump. -/
theorem bypassReader_writes :
    ((bypassReader.load 10 bypass Stage.noting).bind fun c => c.play 50 Stage.noting).map
      (fun r => (r.2.isNone, r.1.stage.session.store, shownTexts r.1.written)) =
    some (true, [("v", "c")],
      ["  1) a\n", "  2) b\n", "  1) c\n", "  2) d\n",
       "Choose 1-2: ", "Please enter a number between 1 and 2.\n",
       "Choose 1-2: ", "Please enter a number between 1 and 2.\n",
       "Choose 1-2: ", "Please enter a number between 1 and 2.\n", "Choose 1-2: ",
       "  1) c\n", "  2) d\n",
       "Choose 1-2: ", "Please enter a number between 1 and 2.\n", "Choose 1-2: ",
       "-- end of chat --\n"]) := by
  rfl

/-- The scene satisfies the assumptions and is played to its end. -/
theorem records_only_offers_bypass :
    bypassReader.stage.Fresh ∧ bypassReader.stage.gear.Idle ∧ NeitherCallsNorFails Stage.noting ∧
      ∃ c₁ c₂, bypassReader.load 10 bypass Stage.noting = some c₁ ∧
        c₁.play 50 Stage.noting = some (c₂, none) ∧ c₂.stage.session.store = [("v", "c")] ∧
        ReflTransGen (Rounds Stage.noting) c₁ c₂ ∧
        ∀ c, ReflTransGen (Rounds Stage.noting) c₁ c →
          (∀ w, c.Passes Stage.noting w → Stage.Drains Stage.noting w ∧ bypass.Offers w.session.store) ∧
          ∃ lines, lines <:+ ["", "three", "3", " ２ ", "1_", "1"] ∧ c.answers = .lines lines ∧
            ∀ more c' failure, c.round more Stage.noting = some (c', failure) →
              c.Concludes bypass lines c' failure := by
  have hfresh : bypassReader.stage.Fresh := ⟨rfl, rfl, rfl⟩
  have hidle : bypassReader.stage.gear.Idle := ⟨rfl, rfl, rfl⟩
  obtain ⟨⟨c₂, failure⟩, hrun, heq⟩ := Option.map_eq_some_iff.mp bypassReader_writes
  obtain ⟨c₁, hload, hplay⟩ := Option.bind_eq_some_iff.mp hrun
  obtain ⟨hnone, hstore⟩ := Prod.mk.inj heq
  obtain rfl : failure = none := Option.isNone_iff_eq_none.mp hnone
  obtain ⟨hall, hplays⟩ := records_only_offers hfresh .refl hidle rfl Stage.noting_neitherCallsNorFails rfl hload
  obtain ⟨c, hrounds, ⟨rfl, -, -⟩ | ⟨-, hfails⟩⟩ := hplays 50 c₂ none hplay
  · refine ⟨hfresh, hidle, Stage.noting_neitherCallsNorFails, c₁, c, hload, hplay, congrArg (·.1) hstore, hrounds,
      fun c' hc' => ?_⟩
    obtain ⟨hoffers, hconcludes, -⟩ := hall c' hc'
    exact ⟨fun w hw => ⟨Stage.noting_publishNothing.drains Stage.noting_neitherCallsNorFails w, hoffers w hw⟩, hconcludes⟩
  · exact absurd rfl hfails

end Console

end ChatScene
