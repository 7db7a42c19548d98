/-
  Reachable stages.

  A stage goes on by steps and by time passing.  Between any two steps somebody outside may act: carry out an immediate
  act, load a script that has been read, begin an advance or run a command.  A chain that waits may be woken at any
  moment, with or without a failure, and one that is about to go on may be made to fail: this covers listeners that
  wait for anything at all, and cancelling.

  1. **What can happen next** — all this is the relation `Stage.Next`, and `Stage.Reaches` is any number of such things.
     Nothing is assumed about their order, so what holds of every reachable stage holds under every schedule.

  2. **Faithfulness** — nothing that can happen makes a stage unfaithful to its journal (`Stage.Faithful.next`), so
     every reachable stage is faithful to the session that it began with.  This is `Stage.Fresh.reaches_faithful`, from
     which most of what is known about reachable stages is read off.

  3. **The host** — the operations of the host are particular ways of getting there: `Reaches.rest` and `Reaches.await`
     go through the two loops of the program, and `Reaches.advance`, `Reaches.doAct`, `Reaches.loadScript` and
     `Reaches.setupFrom` through what a host calls for.
-/
import Mathlib.Logic.Relation
import ChatScene.Proofs.Faithful

namespace ChatScene

open Relation (ReflTransGen)

/-! ## What can happen next -/

/-- Frames of a chain that somebody outside may begin. -/
def Frame.FromOutside : Frame → Prop
  | .advance _ => True
  | .sleep _ => True
  | .command c => c.body ≠ .bare
  | _ => False

namespace Stage

/-- What can happen to a stage next. -/
inductive Next (react : Reactions) (w : Stage) : Stage → Prop where
  | step {w' : Stage} : w.step react = some w' → Next react w w'
  | tick {w' : Stage} : w.tick = some w' → Next react w w'
  /-- Some of the chains that wait for a time go on, perhaps with a failure. -/
  | interrupt (hit : Timer → Bool) (failure : Option Failure) :
      Next react w
        { w with timers := w.timers.filter (!hit ·)
                 ready := w.ready ++ (w.timers.filter hit).map fun t => .resume t.chain failure }
  /-- A chain that is about to go on fails instead. -/
  | strike {before after : List Wake} {chain : Nat} (failure : Failure) :
      w.ready = before ++ .resume chain none :: after →
      Next react w { w with ready := before ++ .resume chain (some failure) :: after }
  | act (act : Act) : Next react w (w.carryOut react act).1
  | load {script : Script} : script.Read → Next react w ((w.load script).1.publish react (w.load script).2)
  | setup {text source : String} {w' : Stage} {event : SessionEvent} :
      w.setup text source = (w', .ok event) → Next react w (w'.publish react event)
  | refuse {text source : String} {w' : Stage} {e : ScriptError} :
      w.setup text source = (w', .error e) → Next react w w'
  | touch (context : Context) : Next react w (w.touch context)
  | spawn {frames : List Frame} : (∀ f ∈ frames, f.FromOutside) → Next react w (w.spawn frames none)

/-- A stage on which nothing has happened yet: settings, bus and listener may be any. -/
structure Fresh (w : Stage) : Prop where
  session_eq : w.session = { settings := w.session.settings, attached := w.session.attached }
  journal_eq : w.journal = []
  gear_eq : w.gear = ⟨[], [], [], [], none⟩

variable {react : Reactions} {s₀ : Session} {w w' : Stage}

/-- On a `Fresh` stage there is nothing to be unfaithful to: no deed in the journal and no chain. -/
theorem Fresh.faithful (h : w.Fresh) : w.Faithful w.session where
  start := by
    rw [h.session_eq]
    exact ⟨Script.Sound.empty, Nat.zero_le _⟩
  session_eq := by rw [h.journal_eq]; rfl
  honest := by rw [h.journal_eq]; exact .nil
  numbered n beat hbeat := by rw [h.journal_eq] at hbeat; cases hbeat
  frames i chain hi := by
    have hchains : w.chains = [] := congrArg Gear.chains h.gear_eq
    simp [hchains] at hi

/-- Nothing that can happen makes a stage unfaithful.  Steps and acts have lemmas of their own; interrupting and
    striking chains does not touch what `Faithful` speaks of. -/
theorem Faithful.next (h : w.Faithful s₀) (hnext : Next react w w') : w'.Faithful s₀ := by
  cases hnext with
  | step hstep => exact h.step react hstep
  | tick htick => exact h.tick htick
  | interrupt | strike => exact h.congr rfl rfl (Nat.le_refl _) rfl
  | act act => exact h.carryOut react act
  | load hread => exact (h.load hread.sound).publish react _
  | @setup text source _ event hsetup =>
    have hw := h.setup text source
    rw [hsetup] at hw
    exact hw.publish react event
  | @refuse text source _ _ hsetup =>
    have hw := h.setup text source
    rw [hsetup] at hw
    exact hw
  | touch context => exact h.touch context
  | spawn hframes =>
    -- the host may run any command with fields, but only as part of no beat
    refine h.spawn fun f hf => ?_
    have houtside := hframes f hf
    cases f with
    | command c => exact ⟨houtside, fun n hn => by cases hn⟩
    | advance | sleep => trivial
    | acts | settle | announce | start | beat | reportEnd | leave => cases houtside

/-- A stage that can be reached from another one. -/
abbrev Reaches (react : Reactions) : Stage → Stage → Prop := ReflTransGen (Next react)

/-- Every reachable stage (`Reaches`) is faithful to the session that it began with, by induction on
    what has happened. -/
theorem Fresh.reaches_faithful {w₀ : Stage} (h₀ : w₀.Fresh) (h : Reaches react w₀ w) : w.Faithful w₀.session := by
  induction h with
  | refl => exact h₀.faithful
  | tail _ hnext ih => exact ih.next hnext

/-! ## The operations of the host stay within reach -/

/-- Coming to rest is one step after the other. -/
theorem Reaches.rest {fuel : Nat} (h : w.rest react fuel = some w') : Reaches react w w' := by
  induction fuel generalizing w with
  | zero => cases h
  | succ fuel ih =>
    simp only [Stage.rest] at h
    split at h
    · cases h
      exact .refl
    · rename_i v hstep
      exact .head (.step hstep) (ih h)

/-- A number of steps, if there is something to do in each. -/
def steps (react : Reactions) : Nat → Stage → Option Stage
  | 0, w => some w
  | n + 1, w => (w.step react).bind (steps react n)

/-- A given number of steps, for runs that are followed step by step. -/
theorem Reaches.steps {n : Nat} (h : steps react n w = some w') : Reaches react w w' := by
  induction n generalizing w with
  | zero =>
    cases h
    exact .refl
  | succ n ih =>
    obtain ⟨v, hstep, hrest⟩ := Option.bind_eq_some_iff.mp h
    exact .head (.step hstep) (ih hrest)

/-- Waiting for a chain is steps, and time passing where there is no step. -/
theorem Reaches.await {fuel chain : Nat} {failure : Option Failure}
    (h : w.await react chain fuel = some (w', failure)) : Reaches react w w' := by
  induction fuel generalizing w with
  | zero => cases h
  | succ fuel ih =>
    simp only [Stage.await] at h
    split at h
    · rename_i v hstep
      exact .head (.step hstep) (ih h)
    · split at h
      · cases h
        exact .refl
      · split at h
        · rename_i v htick
          exact .head (.tick htick) (ih h)
        · cases h

/-- The host spawns a chain of its own and waits for it. -/
theorem Reaches.run {fuel : Nat} {frames : List Frame} {failure : Option Failure} (hf : ∀ f ∈ frames, f.FromOutside)
    (h : w.run react fuel frames = some (w', failure)) : Reaches react w w' :=
  .head (.spawn hf) (Reaches.await h)

/-- An advance of the host is a chain with one frame. -/
theorem Reaches.advance {fuel : Nat} {context : Context} {failure : Option Failure}
    (h : w.advance react fuel context = some (w', failure)) : Reaches react w w' :=
  Reaches.run (by simp [Frame.FromOutside]) h

/-- An act of the host is carried out at once, and then the stage comes to rest. -/
theorem Reaches.doAct {fuel : Nat} {act : Act} {failure : Option Failure}
    (h : w.doAct react fuel act = some (w', failure)) : Reaches react w w' := by
  obtain ⟨v, hv, heq⟩ := Option.map_eq_some_iff.mp h
  cases heq
  exact .head (.act act) (Reaches.rest hv)

theorem Reaches.loadScript {fuel : Nat} {script : Script} (hread : script.Read)
    (h : w.loadScript react fuel script = some w') : Reaches react w w' := .head (.load hread) (Reaches.rest h)

/-- A text that is read is loaded and published; one that is refused leaves the log lines about it, and nothing else
    happens. -/
theorem Reaches.setupFrom {fuel : Nat} {text source : String} {failure : Option Failure}
    (h : w.setupFrom react fuel text source = some (w', failure)) : Reaches react w w' := by
  simp only [Stage.setupFrom] at h
  split at h
  · rename_i v event hsetup
    obtain ⟨u, hu, heq⟩ := Option.map_eq_some_iff.mp h
    cases heq
    exact .head (.setup hsetup) (Reaches.rest hu)
  · rename_i v e hsetup
    cases h
    exact .single (.refuse hsetup)

end Stage

end ChatScene
