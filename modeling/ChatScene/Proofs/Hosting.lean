/-
  The host of a stage: what it may call for, what comes up in the meantime, and what it is told in the end.

  A host waits for a chain of its own: `Goes` is one round of that wait, a step or else the passing of time, and
  `Arrives` is any number of rounds.  `await_iff` and `rest_iff` say that the two loops of the program, which run on
  fuel, come to exactly the stages that such rounds lead to, so that no later proof has to look at fuel.

  On top of that stands all that a host can do.

  * `HostCall`             — one call: an advance, a wait, an immediate act, a text or a script to load;
  * `HostCall.run`         — the stage that the call returns with, and its failure;
  * `HostCall.Passes`      — the stages that come up during the call, whether it ever returns or not;
  * `HostedSystem.Runs`    — one call after the other, with what the host sees after each of them.

  The last is stated for any system that takes the calls of a host, so that a stage can be compared with another stage,
  with itself upon a past, or with an interpreter that knows no beats.  `HostedSystem.Runs.simulates` is the one
  induction behind those comparisons: where each single call is matched, and each state on the way, so are whole runs.
-/
import ChatScene.Proofs.Reach

namespace ChatScene

open Relation (ReflTransGen TransGen)

namespace Stage

/-! ## Awaiting a chain -/

variable {react : Reactions} {w v : Stage} {chain fuel more : Nat}

/-- Any number of steps. -/
abbrev Stepping (react : Reactions) : Stage → Stage → Prop := ReflTransGen fun w v => w.step react = some v

/-- One round of waiting for a chain: a step, or time passing when there is none and the chain is not over. -/
inductive Goes (react : Reactions) (chain : Nat) (w : Stage) : Stage → Prop where
  | step {v : Stage} : w.step react = some v → Goes react chain w v
  | tick {v : Stage} : w.step react = none → w.outcome? chain = none → w.tick = some v → Goes react chain w v

/-- Any number of such rounds. -/
abbrev Arrives (react : Reactions) (chain : Nat) : Stage → Stage → Prop := ReflTransGen (Goes react chain)

/-- Steps are rounds of waiting, whoever is waited for. -/
theorem Stepping.arrives (h : Stepping react w v) (chain : Nat) : Arrives react chain w v :=
  h.lift id fun _ _ hstep => .step hstep

/-- Awaiting goes one round after the other: with one unit of fuel more, `Stage.await` does what it does after the
    round. -/
theorem Goes.await (h : Goes react chain w v) (fuel : Nat) :
    w.await react chain (fuel + 1) = v.await react chain fuel := by
  cases h with
  | step hstep => simp [Stage.await, hstep]
  | tick hstep houtcome htick => simp [Stage.await, hstep, houtcome, htick]

/-- A chain is awaited successfully when the stage arrives where the chain is over and nothing is left to do at once.
    This is where fuel goes out of sight: `Stage.await` has it, and `Arrives` does not. -/
theorem await_iff {failure : Option Failure} :
    (∃ fuel, w.await react chain fuel = some (v, failure)) ↔
      Arrives react chain w v ∧ v.step react = none ∧ v.outcome? chain = some failure := by
  constructor
  · rintro ⟨fuel, h⟩
    -- on the fuel, with the cases of the loop
    induction fuel generalizing w with
    | zero => cases h
    | succ fuel ih =>
      simp only [Stage.await] at h
      split at h
      · rename_i u hstep
        obtain ⟨harrives, hlast⟩ := ih h
        exact ⟨.head (.step hstep) harrives, hlast⟩
      · rename_i hstep
        split at h
        · rename_i failure' houtcome
          cases h
          exact ⟨.refl, hstep, houtcome⟩
        · rename_i houtcome
          split at h
          · rename_i u htick
            obtain ⟨harrives, hlast⟩ := ih h
            exact ⟨.head (.tick hstep houtcome htick) harrives, hlast⟩
          · cases h
  · rintro ⟨harrives, hstep, houtcome⟩
    -- from the last round back: each one takes one unit of fuel
    induction harrives using ReflTransGen.head_induction_on with
    | refl => exact ⟨1, by simp [Stage.await, hstep, houtcome]⟩
    | head hgo _ ih =>
      obtain ⟨fuel, hfuel⟩ := ih
      exact ⟨fuel + 1, (hgo.await fuel).trans hfuel⟩

/-- All has been done at once when steps have led to where there is none left; the same for `Stage.rest`. -/
theorem rest_iff : (∃ fuel, w.rest react fuel = some v) ↔ Stepping react w v ∧ v.step react = none := by
  constructor
  · rintro ⟨fuel, h⟩
    -- one step for each unit of fuel, and one unit to see that there is no step left
    induction fuel generalizing w with
    | zero => cases h
    | succ fuel ih =>
      simp only [Stage.rest] at h
      split at h
      · rename_i hstep
        cases h
        exact ⟨.refl, hstep⟩
      · rename_i u hstep
        obtain ⟨hsteps, hlast⟩ := ih h
        exact ⟨.head hstep hsteps, hlast⟩
  · rintro ⟨hsteps, hstep⟩
    induction hsteps using ReflTransGen.head_induction_on with
    | refl => exact ⟨1, by simp [Stage.rest, hstep]⟩
    | head hgo _ ih =>
      obtain ⟨fuel, hfuel⟩ := ih
      exact ⟨fuel + 1, by simpa [Stage.rest, hgo] using hfuel⟩

/-- A host that waits does nothing that `Next` does not know. -/
theorem Arrives.reaches (h : Arrives react chain w v) : Reaches react w v := by
  induction h with
  | refl => exact .refl
  | tail _ hgo ih =>
    cases hgo with
    | step hstep => exact ih.tail (.step hstep)
    | tick _ _ htick => exact ih.tail (.tick htick)

/-- What is awaited is awaited from every stage on the way, with less fuel. -/
theorem Arrives.await_of (h : Arrives react chain w v) {r : Stage × Option Failure}
    (hr : w.await react chain fuel = some r) : ∃ n ≤ fuel, v.await react chain n = some r := by
  induction h with
  | refl => exact ⟨fuel, Nat.le_refl _, hr⟩
  | tail _ hgo ih =>
    obtain ⟨n, hle, hn⟩ := ih
    cases n with
    | zero => cases hn
    | succ n => exact ⟨n, by omega, hgo.await n ▸ hn⟩

/-- The same for at least one round (`TransGen`), and then there is less fuel: inductions on the fuel get
    on this way. -/
theorem await_of_transGen (h : TransGen (Goes react chain) w v) {r : Stage × Option Failure}
    (hr : w.await react chain fuel = some r) : ∃ n < fuel, v.await react chain n = some r := by
  obtain ⟨u, hgo, harrives⟩ := TransGen.head'_iff.mp h
  cases fuel with
  | zero => cases hr
  | succ fuel =>
    obtain ⟨n, hle, hn⟩ := Arrives.await_of harrives (hgo.await fuel ▸ hr)
    exact ⟨n, by omega, hn⟩

/-- More fuel does not change what is awaited, so `await` has one result for all fuel that is enough. -/
theorem await_mono {r : Stage × Option Failure} (h : w.await react chain fuel = some r) (hle : fuel ≤ more) :
    w.await react chain more = some r := by
  induction fuel generalizing w more with
  | zero => cases h
  | succ fuel ih =>
    cases more with
    | zero => omega
    | succ more =>
      simp only [Stage.await] at h ⊢
      split at h
      · exact ih h (by omega)
      · split at h
        · exact h
        · split at h
          · exact ih h (by omega)
          · cases h

/-- More fuel does not change where a stage comes to rest. -/
theorem rest_mono (h : w.rest react fuel = some v) (hle : fuel ≤ more) : w.rest react more = some v := by
  induction fuel generalizing w more with
  | zero => cases h
  | succ fuel ih =>
    cases more with
    | zero => omega
    | succ more =>
      simp only [Stage.rest] at h ⊢
      split at h
      · exact h
      · exact ih h (by omega)

end Stage

/-! ## Calls of a host -/

/-- What a host may call for. -/
inductive HostCall where
  /-- An advance, for which the host waits. -/
  | advance (context : Context)
  /-- An advance in the background. -/
  | start (context : Context)
  /-- Time. -/
  | wait (seconds : Float)
  /-- An immediate act: the answer to a choice, the next beat and the like. -/
  | perform (act : Act)
  /-- A text is read and loaded. -/
  | setup (text source : String)
  /-- A script is loaded. -/
  | load (script : Script)

namespace HostCall

variable (react : Reactions)

/-- The call returns with a stage, and perhaps a failure; nothing if it does not return within the fuel. -/
def run (fuel : Nat) (w : Stage) : HostCall → Option (Stage × Option Failure)
  | .advance context => w.advance react fuel context
  | .start context => (w.start react fuel context).map (·, none)
  | .wait seconds => w.wait react fuel seconds
  | .perform act => w.doAct react fuel act
  | .setup text source => w.setupFrom react fuel text source
  | .load script => (w.loadScript react fuel script).map (·, none)

/-- The stages that come up during a call, whether it ever returns or not.  A text that is refused takes no time. -/
def Passes (w : Stage) : HostCall → Stage → Prop
  | .advance context => Stage.Arrives react w.chains.length (w.spawn [.advance context] none)
  | .start context => Stage.Stepping react ((w.touch context).spawn [.advance context] none)
  | .wait seconds => Stage.Arrives react w.chains.length (w.spawn [.sleep seconds] none)
  | .perform act => Stage.Stepping react (w.carryOut react act).1
  | .setup text source =>
    match w.setup text source with
    | (w, .ok event) => Stage.Stepping react (w.publish react event)
    | (_, .error _) => fun _ => False
  | .load script => Stage.Stepping react ((w.load script).1.publish react (w.load script).2)

variable {react : Reactions} {w : Stage} {call : HostCall} {fuel more : Nat} {r : Stage × Option Failure}

/-- More fuel does not change what a call returns with. -/
theorem run_mono (h : call.run react fuel w = some r) (hle : fuel ≤ more) : call.run react more w = some r := by
  cases call with
  | advance | wait => exact Stage.await_mono h hle
  | start | perform | load =>
    obtain ⟨v, hv, rfl⟩ := Option.map_eq_some_iff.mp h
    exact Option.map_eq_some_iff.mpr ⟨v, Stage.rest_mono hv hle, rfl⟩
  | setup text source =>
    simp only [run, Stage.setupFrom] at h ⊢
    split at h
    · obtain ⟨v, hv, rfl⟩ := Option.map_eq_some_iff.mp h
      exact Option.map_eq_some_iff.mpr ⟨v, Stage.rest_mono hv hle, rfl⟩
    · exact h

theorem run_unique {r' : Stage × Option Failure} (h : call.run react fuel w = some r)
    (h' : call.run react more w = some r') : r' = r := by
  rcases Nat.le_total fuel more with hle | hle
  · exact Option.some.inj (h'.symm.trans (run_mono h hle))
  · exact Option.some.inj ((run_mono h' hle).symm.trans h)

end HostCall

/-! ## One call after the other -/

/-- `HostedSystem σ γ` — how states of some kind take the calls of a host. -/
structure HostedSystem (σ γ : Type) where
  /-- A call returns: what the host sees then, and the state. -/
  returns : σ → HostCall → γ → σ → Prop
  /-- A state comes up during a call. -/
  passes : σ → HostCall → σ → Prop

namespace HostedSystem

variable {σ τ γ : Type} {H : HostedSystem σ γ} {K : HostedSystem τ γ}

/-- The host makes one call after the other and looks after each that returns.  The state is the last one when all calls
    have returned, and one that comes up during the next call otherwise. -/
inductive Runs (H : HostedSystem σ γ) : σ → List HostCall → List γ → σ → Prop where
  | done {s : σ} : Runs H s [] [] s
  | midway {s t : σ} {call : HostCall} {calls : List HostCall} : H.passes s call t → Runs H s (call :: calls) [] t
  | next {s t u : σ} {call : HostCall} {calls : List HostCall} {look : γ} {looks : List γ} :
      H.returns s call look t → Runs H t calls looks u → Runs H s (call :: calls) (look :: looks) u

/-- The host waits for every call. -/
def waiting (H : HostedSystem σ γ) : HostedSystem σ γ := { H with passes := fun _ _ _ => False }

/-- A run without anything in the middle of a call is a run. -/
theorem Runs.of_waiting {s t : σ} {calls : List HostCall} {looks : List γ} (h : H.waiting.Runs s calls looks t) :
    H.Runs s calls looks t := by
  induction h with
  | done => exact .done
  | midway hpasses => exact hpasses.elim
  | next hreturns _ ih => exact .next hreturns ih

/-- The first call of a run: the run ends in the middle of it, or it returns and the other calls follow. -/
theorem runs_cons_iff {s u : σ} {call : HostCall} {calls : List HostCall} {looks : List γ} :
    H.Runs s (call :: calls) looks u ↔
      looks = [] ∧ H.passes s call u ∨
      ∃ look later t, looks = look :: later ∧ H.returns s call look t ∧ H.Runs t calls later u := by
  constructor
  · rintro (_ | hpasses | ⟨hreturns, hruns⟩)
    · exact .inl ⟨rfl, hpasses⟩
    · exact .inr ⟨_, _, _, rfl, hreturns, hruns⟩
  · rintro (⟨rfl, hpasses⟩ | ⟨look, later, t, rfl, hreturns, hruns⟩)
    · exact .midway hpasses
    · exact .next hreturns hruns

/-- Where one system matches the other call by call, under a relation `R` that may look at the calls that are still to
    come, it matches it run by run: the host sees the same, and the states are related by `Q` at any moment. -/
theorem Runs.simulates {R : List HostCall → σ → τ → Prop} {Q : σ → τ → Prop}
    (hdone : ∀ {s t}, R [] s t → Q s t)
    (hpasses : ∀ {s t s' call calls}, R (call :: calls) s t → H.passes s call s' → ∃ t', K.passes t call t' ∧ Q s' t')
    (hreturns : ∀ {s t s' call calls look}, R (call :: calls) s t → H.returns s call look s' →
      ∃ t', K.returns t call look t' ∧ R calls s' t')
    {s s' : σ} {t : τ} {calls : List HostCall} {looks : List γ} (hR : R calls s t) (h : H.Runs s calls looks s') :
    ∃ t', K.Runs t calls looks t' ∧ Q s' t' := by
  -- on the run; the relation `R` moves to the calls that are left
  induction h generalizing t with
  | done => exact ⟨t, .done, hdone hR⟩
  | midway hpass =>
    obtain ⟨t', ht', hQ⟩ := hpasses hR hpass
    exact ⟨t', .midway ht', hQ⟩
  | next hreturn _ ih =>
    obtain ⟨t', ht', hR'⟩ := hreturns hR hreturn
    obtain ⟨u, hu, hQ⟩ := ih hR'
    exact ⟨u, .next ht' hu, hQ⟩

end HostedSystem

/-- `Stage.hosted react look` — a stage takes the calls of a host, who looks at it in some way. -/
def Stage.hosted {γ : Type} (react : Reactions) (look : Stage → Option Failure → γ) : HostedSystem Stage γ where
  returns w call g v := ∃ fuel failure, call.run react fuel w = some (v, failure) ∧ look v failure = g
  passes w call v := call.Passes react w v

/-- The calls of a host one after the other, with so much fuel for each: what it sees, and the last stage. -/
def Stage.runCalls {γ : Type} (react : Reactions) (look : Stage → Option Failure → γ) (fuel : Nat) :
    Stage → List HostCall → Option (List γ × Stage)
  | w, [] => some ([], w)
  | w, call :: calls => do
    let (v, failure) ← call.run react fuel w
    let (looks, u) ← runCalls react look fuel v calls
    return (look v failure :: looks, u)

/-- What `runCalls` computes is a run, so that a run on fixed calls can be evaluated. -/
theorem Stage.runs_of_runCalls {γ : Type} {react : Reactions} {look : Stage → Option Failure → γ} {fuel : Nat}
    {w u : Stage} {calls : List HostCall} {looks : List γ}
    (h : w.runCalls react look fuel calls = some (looks, u)) : (hosted react look).waiting.Runs w calls looks u := by
  induction calls generalizing w looks with
  | nil =>
    cases h
    exact .done
  | cons call calls ih =>
    simp only [runCalls, Option.bind_eq_bind, Option.bind_eq_some_iff] at h
    obtain ⟨⟨v, failure⟩, hrun, ⟨later, _⟩, hlater, heq⟩ := h
    cases heq
    exact .next ⟨fuel, failure, hrun, rfl⟩ (ih hlater)

/-- Something holds of every stage that comes up while the host makes its calls, on the run that they lead to and on no
    other.  It may look at the stage where the call began. -/
def Stage.Throughout (react : Reactions) (P : Stage → Stage → Prop) : Stage → List HostCall → Prop
  | _, [] => True
  | w, call :: calls =>
    (∀ v, call.Passes react w v → P w v) ∧
      ∀ fuel v failure, call.run react fuel w = some (v, failure) → Throughout react P v calls

theorem Stage.throughout_of_forall {react : Reactions} {P : Stage → Stage → Prop} (h : ∀ w v, P w v)
    (w : Stage) (calls : List HostCall) : Throughout react P w calls := by
  induction calls generalizing w with
  | nil => trivial
  | cons call calls ih => exact ⟨fun v _ => h w v, fun _ v _ _ => ih v⟩

end ChatScene
