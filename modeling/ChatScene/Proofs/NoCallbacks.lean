/-
  Listeners and handlers that neither call back into the session nor fail.

  Such a listener may take its time, take notes and use the bus, and so may such a handler (`NeitherCallsNorFails`).
  Whatever they do, the session, the chains and the calls to the listener stay as they are.

  1. **Acts** — `Act.neitherCallsNorFails` is stronger than `Act.leavesSession`, which allows an act to fail.

  2. **Score and plot** — what counts of a stage.  `Stage.score` is the session, the journal, the contexts and the calls
     to the listener; `Stage.plot` forgets the contexts, the number of advances in flight and most of the journal.  Two
     stages with the same score and the same chains are `SameScoreAndGear`, and those with the same plot and the same
     chains are `SamePlotAndGear`.

  3. **Reactions** — an act that neither calls back nor fails succeeds and keeps the score
     (`NeitherCallsNorFails.sameScore_carryOut`), and so does every delivery (`NeitherCallsNorFails.sameScore_publish`).

  4. **Waiting** — a wait can be held up by handlers that publish for ever, and by a timer that is never due.
     `Unhindered` and `UnhinderedDuring` rule this out, for all stages that come up or only while a group of commands is
     not over.  Then the queue is worked off and nothing else has happened by then (`Clears`, from
     `UnhinderedDuring.clears` and `Unhindered.clears`).
-/
import ChatScene.Proofs.WithoutHandlers

namespace ChatScene

/-! ## Acts -/

/-- An act that leaves the session alone and does not fail. -/
def Act.neitherCallsNorFails : Act → Bool
  | .sleep _ | .view | .note _ | .subscribe _ _ | .unsubscribe _ _ | .clear _ | .publish _ => true
  | _ => false

/-- The two kinds of acts differ in `Act.fail` only. -/
theorem Act.leavesSession_of_neitherCallsNorFails {act : Act} (h : act.neitherCallsNorFails = true) :
    act.leavesSession = true := by
  cases act with
  | sleep | view | note | subscribe | unsubscribe | clear | publish => rfl
  | advance | setVariable | setup | loadCompiled | nextBeat | fail | attach | assign => cases h

/-- Listeners and handlers that do not call back into the session and do not fail. -/
def NeitherCallsNorFails (react : Reactions) : Prop := ∀ cue n, ∀ act ∈ react cue n, act.neitherCallsNorFails = true

/-- What is asked of listeners and handlers is asked of handlers in particular. -/
theorem NeitherCallsNorFails.handlersLeaveSession {react : Reactions} (h : NeitherCallsNorFails react) :
    HandlersLeaveSession react :=
  fun handler topic n act hact => Act.leavesSession_of_neitherCallsNorFails (h (.heard handler topic) n act hact)

/-- What a stage shows of its scene: the session, but for the advances in flight, the calls, and what the journal tells
    of the cursor: where it is, and where it was when beats started. -/
structure Plot where
  session : Session
  calls : List Call
  place : Nat
  starts : List Nat

/-- The plot of a stage. -/
def Stage.plot (w : Stage) : Plot :=
  ⟨{ w.session with depth := 0 }, w.calls, cursorAfter w.journal, beatStarts w.journal⟩

/-- What a stage shows of its session, the advances in flight included. -/
structure Score where
  session : Session
  journal : List Deed
  contexts : List (String × Nat)
  calls : List Call

/-- The score of a stage. -/
def Stage.score (w : Stage) : Score := ⟨w.session, w.journal, w.contexts, w.calls⟩

/-- The plot of a score. -/
def Score.plot (s : Score) : Plot :=
  ⟨{ s.session with depth := 0 }, s.calls, cursorAfter s.journal, beatStarts s.journal⟩

/-- The plot is read off the score (`Score.plot`). -/
theorem Stage.plot_eq_of_score {w v : Stage} (h : v.score = w.score) : v.plot = w.plot := congrArg Score.plot h

/-- Of what is seen, the `score` knows the calls to the listener. -/
theorem Stage.score_see (w : Stage) (m : Moment) :
    (w.see m).score = { w.score with calls := w.score.calls ++ m.call?.toList } := by
  rw [Stage.score, Stage.calls_see]
  rfl

theorem Stage.plot_see (w : Stage) (m : Moment) :
    (w.see m).plot = { w.plot with calls := w.plot.calls ++ m.call?.toList } := congrArg Score.plot (w.score_see m)

theorem Stage.score_withoutHandlers (w : Stage) : w.withoutHandlers.score = w.score := by
  rw [Stage.score, Stage.calls_withoutHandlers]
  rfl

/-- `SameScoreAndGear w w'` — nothing has happened but on the bus and in the notes. -/
structure SameScoreAndGear (w w' : Stage) : Prop where
  score_eq : w'.score = w.score
  gear_eq : w'.gear = w.gear

/-- `SamePlotAndGear w w'` — nothing has happened but on the bus, in the contexts and in the notes. -/
structure SamePlotAndGear (w w' : Stage) : Prop where
  plot_eq : w'.plot = w.plot
  gear_eq : w'.gear = w.gear

namespace SamePlotAndGear

variable {u v w : Stage}

theorem refl (w : Stage) : SamePlotAndGear w w := ⟨rfl, rfl⟩

theorem trans (h : SamePlotAndGear u v) (h' : SamePlotAndGear v w) : SamePlotAndGear u w :=
  ⟨h'.plot_eq.trans h.plot_eq, h'.gear_eq.trans h.gear_eq⟩

/-- Entering and leaving an advance changes contexts only, or the number of advances in flight, which the plot does not
    show. -/
theorem pass (w : Stage) (context : Context) (passage : Passage) : SamePlotAndGear w (w.pass context passage) := by
  obtain ⟨contexts, heq⟩ := w.pass_eq context passage
  rw [heq]
  cases context <;> exact ⟨rfl, rfl⟩

/-- Looking at a `context` for the first time changes the contexts only. -/
theorem touch (w : Stage) (context : Context) : SamePlotAndGear w (w.touch context) := by
  obtain ⟨contexts, heq⟩ := w.touch_eq context
  rw [heq]
  exact ⟨rfl, rfl⟩

end SamePlotAndGear

namespace SameScoreAndGear

variable {u v w : Stage}

theorem samePlotAndGear (h : SameScoreAndGear w v) : SamePlotAndGear w v :=
  ⟨Stage.plot_eq_of_score h.score_eq, h.gear_eq⟩

theorem trans (h : SameScoreAndGear u v) (h' : SameScoreAndGear v w) : SameScoreAndGear u w :=
  ⟨h'.score_eq.trans h.score_eq, h'.gear_eq.trans h.gear_eq⟩

/-- What shows without the handlers decides the score, and the chains are not touched by `withoutHandlers`. -/
theorem of_withoutHandlers (h : v.withoutHandlers = w.withoutHandlers) : SameScoreAndGear w v := by
  have hgear : v.withoutHandlers.gear = w.withoutHandlers.gear := congrArg Stage.gear h
  refine ⟨?_, hgear⟩
  rw [← v.score_withoutHandlers, h, w.score_withoutHandlers]

theorem log (w : Stage) (level : Level) (message : String) : SameScoreAndGear w (w.log level message) :=
  of_withoutHandlers (w.withoutHandlers_see rfl)

end SameScoreAndGear

namespace SamePlotAndGear

theorem of_withoutHandlers {v w : Stage} (h : v.withoutHandlers = w.withoutHandlers) : SamePlotAndGear w v :=
  (SameScoreAndGear.of_withoutHandlers h).samePlotAndGear

theorem logAll (w : Stage) (lines : List LogLine) : SamePlotAndGear w (w.logAll lines) :=
  of_withoutHandlers (w.withoutHandlers_logAll lines)

theorem log (w : Stage) (level : Level) (message : String) : SamePlotAndGear w (w.log level message) :=
  (SameScoreAndGear.log w level message).samePlotAndGear

end SamePlotAndGear

namespace NeitherCallsNorFails

variable {react : Reactions} (hreact : NeitherCallsNorFails react)

include hreact

/-- No delivery shows in plot or chains: it does not show without the handlers at all. -/
theorem deliver (w : Stage) (event : SessionEvent) : SamePlotAndGear w (w.deliver react event) :=
  .of_withoutHandlers (Stage.withoutHandlers_deliver hreact.handlersLeaveSession w event)

/-- No publish shows in the score, whether it delivers at once or puts the event on the queue (`SameScoreAndGear`). -/
theorem sameScore_publish (w : Stage) (event : SessionEvent) : SameScoreAndGear w (w.publish react event) :=
  .of_withoutHandlers (Stage.withoutHandlers_publish hreact.handlersLeaveSession w event)

theorem publish (w : Stage) (event : SessionEvent) : SamePlotAndGear w (w.publish react event) :=
  (hreact.sameScore_publish w event).samePlotAndGear

/-- An act that neither calls back nor fails succeeds and leaves the score as it is, together with the event that it
    may publish. -/
theorem sameScore_carryOut (w : Stage) {act : Act} (hact : act.neitherCallsNorFails = true) :
    SameScoreAndGear w (w.carryOut react act).1 ∧ (w.carryOut react act).2 = none := by
  have hleaves : act.leavesSession = true := Act.leavesSession_of_neitherCallsNorFails hact
  have hperform : SameScoreAndGear w (w.perform act).stage := .of_withoutHandlers (w.withoutHandlers_perform hleaves)
  constructor
  · simp only [Stage.carryOut]
    cases (w.perform act).event with
    | none => exact hperform
    | some e => exact hperform.trans (hreact.sameScore_publish _ e)
  · -- no act of this kind has a failure of its own, and publishing has none
    cases act with
    | sleep | view | note | subscribe | unsubscribe | clear | publish => rfl
    | advance | setVariable | setup | loadCompiled | nextBeat | fail | attach | assign => cases hact

theorem carryOut (w : Stage) {act : Act} (hact : act.neitherCallsNorFails = true) :
    SamePlotAndGear w (w.carryOut react act).1 ∧ (w.carryOut react act).2 = none :=
  (hreact.sameScore_carryOut w hact).imp_left SameScoreAndGear.samePlotAndGear

end NeitherCallsNorFails

namespace Stage

variable {react : Reactions} {w v : Stage} {chain : Nat}

theorem nextEvent_samePlotAndGear {event : SessionEvent} (h : w.nextEvent? = some (event, v)) : SamePlotAndGear w v :=
  .of_withoutHandlers (nextEvent_withoutHandlers h)

/-- Where handlers that neither call back nor fail publish nothing, every publish comes to an end (`Drains`). -/
theorem HandlersPublishNothing.drains (hnothing : HandlersPublishNothing react) (hreact : NeitherCallsNorFails react)
    (w : Stage) : Drains react w :=
  hreact.handlersLeaveSession.drains hnothing w

/-- `w.TimeHelps react chain` — the next timer is not due at infinity, if nothing but time can help the chain. -/
def TimeHelps (react : Reactions) (chain : Nat) (w : Stage) : Prop :=
  w.step react = none → w.outcome? chain = none → ∀ t ∈ w.timers.head?, t.due.isInf = false

/-- `w.Unblocked react chain` — nothing holds the stage up: every publish comes to an end, and time helps where nothing
    else does. -/
structure Unblocked (react : Reactions) (chain : Nat) (w : Stage) : Prop where
  drains : Drains react w
  timeHelps : TimeHelps react chain w

/-- `w.Unsettled group` — the group has not been settled; it need not have been opened. -/
def Unsettled (group : Nat) (w : Stage) : Prop := ∀ g, w.groups[group]? = some g → g.settled = false

/-- `w.Unhindered react chain` — reactions neither call back nor fail, and nothing holds the stage up while the chain
    is awaited. -/
structure Unhindered (react : Reactions) (chain : Nat) (w : Stage) : Prop where
  neitherCallsNorFails : NeitherCallsNorFails react
  unblocked : ∀ v, Arrives react chain w v → Unblocked react chain v

/-- `w.UnhinderedDuring react chain group` — reactions neither call back nor fail, and nothing holds the stage up while
    the chain is awaited and the group is not settled. -/
structure UnhinderedDuring (react : Reactions) (chain group : Nat) (w : Stage) : Prop where
  neitherCallsNorFails : NeitherCallsNorFails react
  unblocked : ∀ v, Arrives react chain w v → v.Unsettled group → Unblocked react chain v

/-- What is asked of all stages that come up is asked of those that come up later. -/
theorem Unhindered.arrives (h : Unhindered react chain w) (harrives : Arrives react chain w v) :
    Unhindered react chain v :=
  ⟨h.neitherCallsNorFails, fun u hu => h.unblocked u (harrives.trans hu)⟩

/-- To be unhindered is more than to be unhindered while some group is not settled (`UnhinderedDuring`). -/
theorem Unhindered.during (h : Unhindered react chain w) (group : Nat) : UnhinderedDuring react chain group w :=
  ⟨h.neitherCallsNorFails, fun v hv _ => h.unblocked v hv⟩

theorem UnhinderedDuring.arrives {group : Nat} (h : UnhinderedDuring react chain group w)
    (harrives : Arrives react chain w v) : UnhinderedDuring react chain group v :=
  ⟨h.neitherCallsNorFails, fun u hu => h.unblocked u (harrives.trans hu)⟩

/-- `w.Clears react chain` — deliveries come to an end, and nothing else has happened by then; time helps if nothing
    else does. -/
def Clears (react : Reactions) (chain : Nat) (w : Stage) : Prop :=
  ∃ v, Arrives react chain w v ∧ SameScoreAndGear w v ∧ v.nextEvent? = none ∧ TimeHelps react chain v

/-- Where nothing is queued and no timer is set, nothing has to be waited for (`Clears`). -/
theorem Clears.of_empty (hempty : w.nextEvent? = none) (htimers : w.timers = []) : Clears react chain w :=
  ⟨w, .refl, ⟨rfl, rfl⟩, hempty, fun _ _ => by simp [htimers]⟩

/-- Nothing holds up the deliveries.  They do not touch the groups, so the group is still not settled afterwards, and
    `UnhinderedDuring` can be used a second time, for the timers. -/
theorem UnhinderedDuring.clears {group : Nat} (h : UnhinderedDuring react chain group w)
    (hunsettled : w.Unsettled group) : Clears react chain w := by
  obtain ⟨v, hsteps, hwithout, hempty⟩ :=
    (h.unblocked w .refl hunsettled).drains.settles h.neitherCallsNorFails.handlersLeaveSession
  have hsameScore : SameScoreAndGear w v := .of_withoutHandlers hwithout
  -- deliveries leave the chains and their groups as they are
  have hunsettled' : v.Unsettled group := by
    unfold Unsettled
    rw [groups_eq_of_gear hsameScore.gear_eq]
    exact hunsettled
  have harrives := hsteps.arrives chain
  exact ⟨v, harrives, hsameScore, hempty, (h.unblocked v harrives hunsettled').timeHelps⟩

/-- The same without a group: deliveries come to an end, and time helps where nothing else does. -/
theorem Unhindered.clears (h : Unhindered react chain w) : Clears react chain w := by
  obtain ⟨v, hsteps, hwithout, hempty⟩ :=
    (h.unblocked w .refl).drains.settles h.neitherCallsNorFails.handlersLeaveSession
  have harrives := hsteps.arrives chain
  exact ⟨v, harrives, .of_withoutHandlers hwithout, hempty, (h.unblocked v harrives).timeHelps⟩

end Stage

end ChatScene
