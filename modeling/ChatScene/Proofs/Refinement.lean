/-
  A scene played in beats is the scene played one command at a time.

  When reactions neither call nor fail, and where choices and jumps end their beats, whatever the host does by advancing
  and by setting variables shows the same on the stage and in the plain interpreter: the same calls to the listener, the
  same variables, the same pending choice, the same end.  A call of the host that returns on one side returns on the
  other, and while a scene goes round for ever the two agree after every beat.

  1. **Waiting** — where a chain is awaited successfully, nothing holds it up (`Unhindered.of_await`); and from a stage
     at rest an advance is going (`AtRest.going`).

  2. **One advance** — an advance that returns is an advance of the interpreter (`Going.solo_of_await`).  Where the
     interpreter comes to an end so does the stage (`Going.returns`), and after any number of beats the two agree
     (`Going.after_beats`).  Each is by the rounds of an advance (`Going.round`), one beat after the other.

  3. **Calls of the host** — `Solo.Returns` says what a call comes to in the interpreter.  A call that returns on a
     stage at rest returns there (`AtRest.solo_returns`), and the other way round (`AtRest.returns_of_solo`).

  4. **Main result** (`plays_like_interpreter`) — for all calls by which a host plays a scene, one after the other: both
     systems have the same runs, with the same glances (`Glance`) after every call.
-/
import ChatScene.Proofs.Rounds

namespace ChatScene

open Relation (ReflTransGen TransGen)

namespace Stage

variable {react : Reactions} {w v : Stage} {k fuel : Nat} {context : Context} {failure : Option Failure}

/-! ## Awaiting a chain -/

/-- On a stage at rest (`AtRest`) a chain that is over is awaited at once. -/
theorem AtRest.await_eq (h : w.AtRest) (houtcome : w.outcome? k = some failure) {n : Nat} {r : Stage × Option Failure}
    (hr : w.await react k n = some r) : r = (w, failure) := by
  cases n with
  | zero => cases hr
  | succ n => simpa [Stage.await, h.step_eq, houtcome] using hr.symm

/-- A chain that comes to its end on a stage at rest (`AtRest`) is awaited successfully. -/
theorem Arrives.await (h : Arrives react k w v) (hrest : v.AtRest) (houtcome : v.outcome? k = some failure) :
    ∃ fuel, w.await react k fuel = some (v, failure) := await_iff.mpr ⟨h, hrest.step_eq, houtcome⟩

/-- Where a chain is awaited successfully every publish on the way comes to an end (`Drains`). -/
theorem drains_of_await {r : Stage × Option Failure} (h : w.await react k fuel = some r) : Drains react w := by
  induction fuel generalizing w with
  | zero => cases h
  | succ fuel ih =>
    cases hnext : w.nextEvent? with
    | none => exact .empty hnext
    | some next =>
      obtain ⟨event, v⟩ := next
      have hstep : w.step react = some (v.deliver react event) := by simp [Stage.step, hnext]
      simp only [Stage.await, hstep] at h
      exact .next hnext (ih h)

/-- So it is where a stage comes to rest. -/
theorem drains_of_rest (h : w.rest react fuel = some v) : Drains react w := by
  induction fuel generalizing w with
  | zero => cases h
  | succ fuel ih =>
    cases hnext : w.nextEvent? with
    | none => exact .empty hnext
    | some next =>
      obtain ⟨event, u⟩ := next
      have hstep : w.step react = some (u.deliver react event) := by simp [Stage.step, hnext]
      simp only [Stage.rest, hstep] at h
      exact .next hnext (ih h)

/-- Where a chain is awaited successfully nothing holds it up (`Unhindered`) on the way. -/
theorem Unhindered.of_await (hreact : NeitherCallsNorFails react) {r : Stage × Option Failure}
    (h : w.await react k fuel = some r) :
    Unhindered react k w where
  neitherCallsNorFails := hreact
  unblocked v hv := by
    obtain ⟨n, -, hn⟩ := Arrives.await_of hv h
    refine ⟨drains_of_await hn, fun hstep houtcome t ht => ?_⟩
    cases n with
    | zero => cases hn
    | succ n =>
      cases htick : v.tick with
      | none => simp [Stage.await, hstep, houtcome, htick] at hn
      | some u =>
        obtain ⟨t', timers, htimers, hdue, -⟩ := tick_eq_some htick
        rw [htimers] at ht
        cases ht
        exact hdue

/-! ## Advances -/

/-- The host begins an advance on a stage at rest. -/
theorem AtRest.going (h : w.AtRest) (hattached : w.plot.session.attached = true) (context : Context) :
    (w.spawn [.advance context] none).Going w.chains.length context := by
  refine ⟨hattached, .inl ⟨{ w.gear with chains := w.chains ++ [{ frames := [.advance context] }] }, ?_, .back⟩⟩
  exact ⟨by simp, h.idle.timers_eq, h.idle.ready_eq, h.idle.active_eq⟩

/-- An advance that returns is an advance of the interpreter (`solo`), and leaves the stage at rest. -/
theorem Going.solo_of_await (hreact : NeitherCallsNorFails react) (h : w.Going k context)
    (hforks : w.plot.ForksEndBeats) (hr : w.await react k fuel = some (v, failure)) :
    failure = none ∧ v.AtRest ∧ v.plot.ForksEndBeats ∧ ∃ m, w.plot.solo.advance m = some v.plot.solo := by
  -- on the fuel: a beat takes at least one round, so less is left for the next one
  induction fuel using Nat.strongRecOn generalizing w with
  | ind fuel ih =>
    have hfree := Unhindered.of_await hreact hr
    cases hhalted : w.plot.solo.halted with
    | true =>
      obtain ⟨u, harrives, hplot, hrest, houtcome⟩ := h.stops hfree.clears hhalted
      obtain ⟨n, -, hn⟩ := Arrives.await_of harrives hr
      cases hrest.await_eq houtcome hn
      refine ⟨rfl, hrest, hplot ▸ hforks, 0, ?_⟩
      rw [Solo.advance_eq_some, hplot]
      exact ⟨rfl, hhalted⟩
    | false =>
      obtain ⟨u, m, -, hgoes, huforks, hsolo, hnext⟩ := h.round hfree hforks hhalted
      obtain ⟨n, hless, hn⟩ := await_of_transGen hgoes hr
      rcases hnext with ⟨hgoing, -⟩ | ⟨hend, hrest, houtcome⟩
      · obtain ⟨hfailure, hv, hvforks, m', hm'⟩ := ih n hless hgoing huforks hn
        rw [Solo.advance_eq_some, hsolo, ← Solo.run_add] at hm'
        exact ⟨hfailure, hv, hvforks, m + m', Solo.advance_eq_some.mpr hm'⟩
      · cases hrest.await_eq houtcome hn
        exact ⟨rfl, hrest, huforks, m, Solo.advance_eq_some.mpr ⟨hsolo.symm, hend⟩⟩

/-- Where the interpreter (`solo`) comes to an end, the advance returns with what the interpreter has. -/
theorem Going.returns (hfree : Unhindered react k w) (h : w.Going k context) (hforks : w.plot.ForksEndBeats) {m : Nat}
    {s : Solo} (hm : w.plot.solo.advance m = some s) :
    ∃ v, Arrives react k w v ∧ v.AtRest ∧ v.outcome? k = some none ∧ v.plot.solo = s := by
  -- on the commands that the interpreter has left: a beat takes at least one of them
  induction m using Nat.strongRecOn generalizing w with
  | ind m ih =>
    obtain ⟨hrun, hs⟩ := Solo.advance_eq_some.mp hm
    cases hhalted : w.plot.solo.halted with
    | true =>
      obtain ⟨v, harrives, hplot, hrest, houtcome⟩ := h.stops hfree.clears hhalted
      refine ⟨v, harrives, hrest, houtcome, ?_⟩
      rw [hplot, ← hrun, Solo.run_of_halted hhalted]
    | false =>
      obtain ⟨u, d, hpos, hgoes, huforks, hsolo, hnext⟩ := h.round hfree hforks hhalted
      have harrives := hgoes.to_reflTransGen
      -- the interpreter may halt at the last command of the beat, but not before
      have hrest : u.plot.solo.run (m - d) = s := by
        rw [hsolo, ← Solo.run_add, ← hrun]
        exact Solo.run_eq_of_halted (hrun ▸ hs) (by omega)
      rcases hnext with ⟨hgoing, -⟩ | ⟨hend, hatRest, houtcome⟩
      · have hmpos : 0 < m := by
          rcases Nat.eq_zero_or_pos m with rfl | hmpos
          · rw [← hrun, Solo.run, hhalted] at hs
            cases hs
          · exact hmpos
        obtain ⟨v, hv, hlast⟩ := ih (m - d) (by omega) (hfree.arrives harrives) hgoing huforks
          (Solo.advance_eq_some.mpr ⟨hrest, hs⟩)
        exact ⟨v, harrives.trans hv, hlast⟩
      · exact ⟨u, harrives, hatRest, houtcome, by rw [← hrest, Solo.run_of_halted hend]⟩

/-- After any number `n` of beats the stage is where the interpreter is after some commands, or the advance is over. -/
theorem Going.after_beats (hfree : Unhindered react k w) (h : w.Going k context) (hforks : w.plot.ForksEndBeats)
    (n : Nat) :
    ∃ v m, Arrives react k w v ∧ v.plot.solo = w.plot.solo.run m ∧
      (n ≤ m ∧ (beatStarts v.journal).length = (beatStarts w.journal).length + n ∨
        v.plot.solo.halted = true ∧ v.AtRest ∧ v.outcome? k = some none) := by
  induction n generalizing w with
  | zero => exact ⟨w, 0, .refl, rfl, .inl ⟨Nat.le_refl _, rfl⟩⟩
  | succ n ih =>
    cases hhalted : w.plot.solo.halted with
    | true =>
      obtain ⟨v, harrives, hplot, hrest⟩ := h.stops hfree.clears hhalted
      exact ⟨v, 0, harrives, by rw [hplot, Solo.run], .inr ⟨hplot ▸ hhalted, hrest⟩⟩
    | false =>
      obtain ⟨u, d, hpos, hgoes, huforks, hsolo, hnext⟩ := h.round hfree hforks hhalted
      have harrives := hgoes.to_reflTransGen
      -- the beat is followed by another one, or it was the last of the advance
      rcases hnext with ⟨hgoing, hbeats⟩ | ⟨hend, hrest⟩
      · obtain ⟨v, m, hv, hvsolo, hlast⟩ := ih (hfree.arrives harrives) hgoing huforks
        refine ⟨v, d + m, harrives.trans hv, by rw [hvsolo, hsolo, Solo.run_add], ?_⟩
        rcases hlast with ⟨hle, hcount⟩ | hhalt
        · exact .inl ⟨by omega, by omega⟩
        · exact .inr hhalt
      · exact ⟨u, d, harrives, hsolo, .inr ⟨hend, hrest⟩⟩

/-! ## Immediate calls -/

/-- When no chain is on its way, all that happens until the stage is at rest are deliveries, which leave the plot
    alone. -/
theorem rest_idle (hreact : NeitherCallsNorFails react) (hidle : w.gear.Idle) (h : w.rest react fuel = some v) :
    SamePlotAndGear w v ∧ v.AtRest := by
  induction fuel generalizing w with
  | zero => cases h
  | succ fuel ih =>
    simp only [Stage.rest, step_idle hidle] at h
    cases hnext : w.nextEvent? with
    | none =>
      rw [hnext] at h
      cases h
      exact ⟨.refl _, hidle, hnext⟩
    | some next =>
      obtain ⟨event, u⟩ := next
      rw [hnext] at h
      have hsamePlot := (nextEvent_samePlotAndGear hnext).trans (hreact.deliver u event)
      obtain ⟨hrest, hv⟩ := ih (hsamePlot.gear_eq ▸ hidle) h
      exact ⟨hsamePlot.trans hrest, hv⟩

/-- Where deliveries come to an end nothing is held up. -/
theorem unblocked_of_rest {u : Stage} (hreact : NeitherCallsNorFails react) (hidle : w.gear.Idle)
    (h : w.rest react fuel = some u) (hv : Stepping react w v) : Unblocked react k v := by
  -- on the steps to `v`: fuel is left for those that follow
  induction hv using ReflTransGen.head_induction_on generalizing fuel with
  | refl =>
    refine ⟨drains_of_rest h, fun _ _ t ht => ?_⟩
    have htimers : v.timers = [] := hidle.timers_eq
    simp [htimers] at ht
  | @head w y hstep _ ih =>
    cases fuel with
    | zero => cases h
    | succ fuel =>
      have hgear : y.gear = w.gear := by
        rw [step_idle hidle, Option.map_eq_some_iff] at hstep
        obtain ⟨⟨event, x⟩, hnext, rfl⟩ := hstep
        exact ((nextEvent_samePlotAndGear hnext).trans (hreact.deliver x event)).gear_eq
      simp only [Stage.rest, hstep] at h
      exact ih (hgear ▸ hidle) h

theorem Drains.rest (h : Drains react w) (hreact : NeitherCallsNorFails react) (hidle : w.gear.Idle) :
    ∃ fuel v, w.rest react fuel = some v := by
  induction h with
  | @empty w hempty => exact ⟨1, w, by simp [Stage.rest, step_idle hidle, hempty]⟩
  | @next w u event hnext _ ih =>
    have hsamePlot := (nextEvent_samePlotAndGear hnext).trans (hreact.deliver u event)
    obtain ⟨fuel, v, hv⟩ := ih (hsamePlot.gear_eq ▸ hidle)
    exact ⟨fuel + 1, v, by simpa [Stage.rest, step_idle hidle, hnext] using hv⟩

/-- Setting a variable is the deed, and its event leaves the `plot` and the chains alone. -/
theorem setVariable_samePlotAndGear (hreact : NeitherCallsNorFails react) (w : Stage) (name value : String) :
    (w.carryOut react (.setVariable name value)).2 = none ∧
      (w.carryOut react (.setVariable name value)).1.gear = w.gear ∧
      (w.carryOut react (.setVariable name value)).1.plot = (w.record (.answer name value)).plot := by
  have hpublish := hreact.publish (w.record (.answer name value)) ⟨.variableSet, .assignment name value⟩
  exact ⟨rfl, hpublish.gear_eq, hpublish.plot_eq⟩

end Stage

/-! ## The host -/

/-- A call by which a host plays a scene: an advance, or the answer to a choice. -/
def HostCall.isPlaying : HostCall → Bool
  | .advance _ | .perform (.setVariable _ _) => true
  | _ => false

/-- What shows after a call of the host: how it ended, all calls to the listener so far, and the session. -/
structure Glance where
  failure : Option Failure
  calls : List Call
  store : List (String × String)
  pending : Option Offer
  finished : Bool

/-- What shows of the interpreter, whose calls do not fail. -/
def Solo.glance (s : Solo) : Glance := ⟨none, s.calls, s.store, s.pending, s.finished⟩

/-- `w.glance failure` — what shows of a stage. -/
def Stage.glance (w : Stage) (failure : Option Failure) : Glance :=
  ⟨failure, w.calls, w.session.store, w.session.pending, w.session.finished⟩

/-- A call of the host returns in the interpreter. -/
inductive Solo.Returns (s : Solo) : HostCall → Glance → Solo → Prop where
  | advance {fuel : Nat} {context : Context} {t : Solo} :
      s.advance fuel = some t → Returns s (.advance context) t.glance t
  | setVariable {name value : String} :
      Returns s (.perform (.setVariable name value)) (s.setVariable name value).glance (s.setVariable name value)

/-- The interpreter takes the calls by which a scene is played, and the host waits for them. -/
def Solo.hosted : HostedSystem Solo Glance where
  returns := Solo.Returns
  passes _ _ _ := False

/-- The state of the interpreter that a stage stands for. -/
def Stage.solo (w : Stage) : Solo := w.plot.solo

namespace Stage

variable {react : Reactions} {w v : Stage} {call : HostCall} {glance : Glance}

/-- Setting a variable does in the interpreter what it does on the stage. -/
theorem AtRest.setVariable (hreact : NeitherCallsNorFails react) (h : w.AtRest) (hforks : w.plot.ForksEndBeats)
    {fuel : Nat} {name value : String} {failure : Option Failure}
    (hr : w.doAct react fuel (.setVariable name value) = some (v, failure)) :
    failure = none ∧ v.AtRest ∧ v.plot.ForksEndBeats ∧ v.solo = w.solo.setVariable name value := by
  obtain ⟨hfailure, hgear, hplot⟩ := setVariable_samePlotAndGear hreact w name value
  obtain ⟨u, hrest, heq⟩ := Option.map_eq_some_iff.mp hr
  cases heq
  obtain ⟨hsamePlot, hatRest⟩ := rest_idle hreact (hgear ▸ h.idle) hrest
  have hvplot := hsamePlot.plot_eq.trans hplot
  refine ⟨hfailure, hatRest, ?_, ?_⟩
  · rw [hvplot]
    exact ⟨hforks.attached, hforks.choice_ends, hforks.jump_ends, hforks.sound⟩
  · rw [solo, hvplot]
    rfl

/-- A call that returns on the stage returns in the interpreter, and shows the same. -/
theorem AtRest.solo_returns (hreact : NeitherCallsNorFails react) (h : w.AtRest) (hforks : w.plot.ForksEndBeats)
    (hcall : call.isPlaying = true) {fuel : Nat} {failure : Option Failure}
    (hr : call.run react fuel w = some (v, failure)) :
    v.AtRest ∧ v.plot.ForksEndBeats ∧ w.solo.Returns call (v.glance failure) v.solo := by
  cases call with
  | advance context =>
    obtain ⟨rfl, hrest, hvforks, m, hm⟩ := (h.going hforks.attached context).solo_of_await hreact hforks hr
    exact ⟨hrest, hvforks, .advance hm⟩
  | perform act =>
    cases act with
    | setVariable name value =>
      obtain ⟨rfl, hrest, hvforks, hsolo⟩ := h.setVariable hreact hforks hr
      have hreturns : w.solo.Returns (.perform (.setVariable name value)) _ _ := .setVariable
      rw [← hsolo] at hreturns
      exact ⟨hrest, hvforks, hreturns⟩
    | _ => cases hcall
  | start | wait | setup | load => cases hcall

/-- A call that returns in the interpreter (`Solo`) returns on the stage, and shows the same, if nothing holds it up. -/
theorem AtRest.returns_of_solo (hreact : NeitherCallsNorFails react) (h : w.AtRest) (hforks : w.plot.ForksEndBeats)
    (hfree : ∀ v, call.Passes react w v → Unblocked react w.chains.length v) {s : Solo}
    (hcall : w.solo.Returns call glance s) :
    ∃ fuel v failure, call.run react fuel w = some (v, failure) ∧ v.glance failure = glance ∧ v.AtRest ∧
      v.plot.ForksEndBeats ∧ v.solo = s := by
  cases hcall with
  | @advance m context _ hm =>
    have hgoing := h.going hforks.attached context
    obtain ⟨v, harrives, hrest, houtcome, rfl⟩ := hgoing.returns ⟨hreact, hfree⟩ hforks hm
    obtain ⟨fuel, hfuel⟩ := Arrives.await harrives hrest houtcome
    obtain ⟨-, -, hvforks, -⟩ := hgoing.solo_of_await hreact hforks hfuel
    exact ⟨fuel, v, none, hfuel, rfl, hrest, hvforks, rfl⟩
  | @setVariable name value =>
    obtain ⟨hfailure, hgear, -⟩ := setVariable_samePlotAndGear hreact w name value
    -- the variable is set at once; what takes time is the delivery of the event
    have hdrains := (hfree _ .refl).drains
    obtain ⟨fuel, v, hv⟩ := hdrains.rest hreact (hgear ▸ h.idle)
    have hr : w.doAct react fuel (.setVariable name value) = some (v, none) := by
      simp only [doAct, hv, hfailure]
      rfl
    obtain ⟨-, hrest, hvforks, hsolo⟩ := h.setVariable hreact hforks hr
    rw [← hsolo]
    exact ⟨fuel, v, none, hr, rfl, hrest, hvforks, rfl⟩

/-- When a scene has been loaded where no chain is on its way, the stage is at rest and has done nothing else. -/
theorem loadScript_atRest {w₀ : Stage} {script : Script} {fuel : Nat} (hreact : NeitherCallsNorFails react)
    (hidle : w₀.gear.Idle)
    (h : w₀.loadScript react fuel script = some w) : w.AtRest ∧ SamePlotAndGear (w₀.record (.load script)) w := by
  have hlog := SamePlotAndGear.log (w₀.record (.load script)) .debug
    s!"Chat '{script.id}' set up: {script.commands.length} commands, {script.labels.length} labels"
  have hpublish := hlog.trans (hreact.publish _ ⟨.chatStarted, .script script⟩)
  obtain ⟨hsamePlot, hatRest⟩ := rest_idle hreact (hpublish.gear_eq ▸ hidle) h
  exact ⟨hatRest, hpublish.trans hsamePlot⟩

/-- A scene that has been loaded is at the beginning in the interpreter. -/
theorem loadScript_solo {w₀ : Stage} {script : Script} {fuel : Nat} (hreact : NeitherCallsNorFails react)
    (hidle : w₀.gear.Idle)
    (hattached : w₀.session.attached = true) (hchoice : w₀.session.settings.choiceEndsBeat = true)
    (hjump : w₀.session.settings.jumpEndsBeat = true) (hsound : script.Sound)
    (h : w₀.loadScript react fuel script = some w) :
    w.AtRest ∧ w.plot.ForksEndBeats ∧ w.solo = { commands := script.commands, calls := w₀.calls } := by
  obtain ⟨hatRest, hsamePlot⟩ := loadScript_atRest hreact hidle h
  have hplot := hsamePlot.plot_eq
  refine ⟨hatRest, ?_, ?_⟩
  · rw [hplot]
    exact ⟨hattached, hchoice, hjump, hsound⟩
  · rw [solo, hplot]
    rfl

/-! ## The refinement -/

/-- A scene is loaded on a stage where nothing is on its way; there is a listener, choices and jumps end their beats,
    and reactions neither call back nor fail.  Then whatever the host does by advancing and setting variables:

    - what returns on the stage returns in the interpreter (`Solo`), and shows the same after every call;
    - where nothing holds the stage up (`Unblocked`) on the run that these calls lead to, what returns in the
      interpreter returns on the stage, and shows the same;
    - where nothing holds up one more advance, it is, after any number of beats, where the interpreter is after at
      least as many commands, or it has returned where the interpreter has halted. -/
theorem plays_like_interpreter {w₀ w₁ : Stage} {script : Script} {fuel : Nat} (hidle : w₀.gear.Idle)
    (hattached : w₀.session.attached = true) (hchoice : w₀.session.settings.choiceEndsBeat = true)
    (hjump : w₀.session.settings.jumpEndsBeat = true) (hread : script.Read) (hreact : NeitherCallsNorFails react)
    (hload : w₀.loadScript react fuel script = some w₁) (calls : List HostCall)
    (hcalls : ∀ call ∈ calls, call.isPlaying = true) (glances : List Glance) :
    (∀ w, (hosted react Stage.glance).waiting.Runs w₁ calls glances w →
      Solo.hosted.Runs { commands := script.commands, calls := w₀.calls } calls glances w.solo) ∧
    (Throughout react (fun w v => Unblocked react w.chains.length v) w₁ calls →
      ∀ s, Solo.hosted.Runs { commands := script.commands, calls := w₀.calls } calls glances s →
        ∃ w, (hosted react Stage.glance).waiting.Runs w₁ calls glances w ∧ w.solo = s) ∧
    ∀ w, (hosted react Stage.glance).waiting.Runs w₁ calls glances w → ∀ context,
      Unhindered react w.chains.length (w.spawn [.advance context] none) → ∀ n,
        ∃ v m, Arrives react w.chains.length (w.spawn [.advance context] none) v ∧ v.solo = w.solo.run m ∧
          (n ≤ m ∧ (beatStarts v.journal).length = (beatStarts w.journal).length + n ∨
            v.solo.halted = true ∧ v.AtRest ∧ v.outcome? w.chains.length = some none) := by
  obtain ⟨hrest, hforks, hsolo⟩ := loadScript_solo hreact hidle hattached hchoice hjump hread.sound hload
  rw [← hsolo]
  -- between calls the stage is at rest, and it and the interpreter stand at the same place
  have hfollows : ∀ w, (hosted react Stage.glance).waiting.Runs w₁ calls glances w →
      ∃ s, Solo.hosted.Runs w₁.solo calls glances s ∧ w.AtRest ∧ w.plot.ForksEndBeats ∧ s = w.solo := by
    intro w hw
    refine hw.simulates (K := Solo.hosted)
      (R := fun calls w s => (∀ call ∈ calls, call.isPlaying = true) ∧ w.AtRest ∧ w.plot.ForksEndBeats ∧ s = w.solo)
      (Q := fun w s => w.AtRest ∧ w.plot.ForksEndBeats ∧ s = w.solo) And.right ?_ ?_
      ⟨hcalls, hrest, hforks, rfl⟩
    · exact fun _ hpasses => hpasses.elim
    · rintro w _ v call calls glance ⟨hplaying, hrest, hforks, rfl⟩ ⟨fuel, failure, hrun, rfl⟩
      obtain ⟨hvrest, hvforks, hreturns⟩ := hrest.solo_returns hreact hforks (hplaying call List.mem_cons_self) hrun
      exact ⟨_, hreturns, fun other hother => hplaying other (List.mem_cons_of_mem _ hother), hvrest, hvforks, rfl⟩
  refine ⟨fun w hw => ?_, fun hfree s hs => ?_, fun w hw context hfree n => ?_⟩
  · obtain ⟨s, hs, -, -, rfl⟩ := hfollows w hw
    exact hs
  · refine hs.simulates (K := (hosted react Stage.glance).waiting)
      (R := fun calls s w => Throughout react (fun w v => Unblocked react w.chains.length v) w calls ∧ w.AtRest ∧
        w.plot.ForksEndBeats ∧ w.solo = s)
      (Q := fun s w => w.solo = s) (fun h => h.2.2.2) ?_ ?_ ⟨hfree, hrest, hforks, rfl⟩
    · exact fun _ hpasses => hpasses.elim
    · rintro _ w s call calls glance ⟨hfree, hrest, hforks, rfl⟩ hreturns
      obtain ⟨fuel, v, failure, hrun, hglance, hvrest, hvforks, hvsolo⟩ :=
        hrest.returns_of_solo hreact hforks hfree.1 hreturns
      exact ⟨v, ⟨fuel, failure, hrun, hglance⟩, hfree.2 fuel v failure hrun, hvrest, hvforks, hvsolo⟩
  · obtain ⟨-, -, hwrest, hwforks, -⟩ := hfollows w hw
    exact (hwrest.going hwforks.attached context).after_beats hfree hwforks n

/-! ## A scene with a fork -/

/-- A choice, a condition that looks at the answer, another choice, and a label. -/
def fork : Script :=
  Script.ofCommands "parsed"
    [⟨.whole 0, ["@choice", "v", "left", "right"], .choice "v" ["left", "right"]⟩,
     ⟨.whole 1, ["@if", "v", "left", "done"], .condition ⟨"v", "left", "done", .exact⟩⟩,
     ⟨.whole 2, ["@choice", "w", "a", "b"], .choice "w" ["a", "b"]⟩,
     ⟨.whole 3, ["@label", "done"], .label "done"⟩]

theorem fork_read : fork.Read := by
  have hparse : Script.parse defaultMark unnamedSource
      "@choice, v, left, right\n@if, v, left, done\n@choice, w, a, b\n@label, done" = .ok fork := rfl
  exact .text hparse

/-- The stage for it: jumps end their beats, and there is a bus. -/
def forkStage : Stage := { session := { settings := { jumpEndsBeat := true } }, bus := some {} }

/-- A listener that takes a note when it is shown a choice. -/
def noting : Reactions := fun cue _ => if cue = .choice "v" then [.note "left or right"] else []

theorem noting_neitherCallsNorFails : NeitherCallsNorFails noting := by
  intro cue n act hact
  unfold noting at hact
  split at hact
  · rw [List.mem_singleton.mp hact]
    rfl
  · cases hact

theorem noting_publishNothing : HandlersPublishNothing noting := by
  intro handler topic n act hact
  cases hact

/-- The host advances, answers, and advances again. -/
def forkCalls : List HostCall := [.advance .own, .perform (.setVariable "v" "left"), .advance .own]

theorem fork_glance :
    ((forkStage.loadScript noting 10 fork).bind fun w => w.runCalls noting Stage.glance 50 forkCalls).map
      (fun r => r.1.getLast?) =
    some (some ⟨none, [.shown ⟨.whole 0, ["@choice", "v", "left", "right"], .choice "v" ["left", "right"]⟩, .ended],
      [("v", "left")], none, true⟩) := by
  rfl

theorem unblocked_of_runCalls {γ : Type} {look : Stage → Option Failure → γ} {looks : List γ} {u : Stage} {fuel : Nat}
    {calls : List HostCall} (hreact : NeitherCallsNorFails react) (h : w.AtRest) (hforks : w.plot.ForksEndBeats)
    (hcalls : ∀ call ∈ calls, call.isPlaying = true) (hrun : w.runCalls react look fuel calls = some (looks, u)) :
    Throughout react (fun w v => Unblocked react w.chains.length v) w calls := by
  induction calls generalizing w looks with
  | nil => trivial
  | cons call calls ih =>
    simp only [runCalls, Option.bind_eq_bind, Option.bind_eq_some_iff] at hrun
    obtain ⟨⟨v, failure⟩, hcall, ⟨later, _⟩, hlater, heq⟩ := hrun
    cases heq
    have hplaying : call.isPlaying = true := hcalls call List.mem_cons_self
    obtain ⟨hvrest, hvforks, -⟩ := h.solo_returns hreact hforks hplaying hcall
    -- while this call is made, and after it
    refine ⟨fun x hx => ?_, fun fuel' v' failure' hother => ?_⟩
    · cases call with
      | advance context => exact (Unhindered.of_await hreact hcall).unblocked x hx
      | perform act =>
        cases act with
        | setVariable name value =>
          obtain ⟨-, hgear, -⟩ := setVariable_samePlotAndGear hreact w name value
          obtain ⟨y, hy, -⟩ := Option.map_eq_some_iff.mp hcall
          exact unblocked_of_rest hreact (hgear ▸ h.idle) hy hx
        | _ => cases hplaying
      | start | wait | setup | load => cases hplaying
    · cases HostCall.run_unique hcall hother
      exact ih hvrest hvforks (fun other hother => hcalls other (List.mem_cons_of_mem _ hother)) hlater

/-- The scene with the fork satisfies the assumptions, and the interpreter shows of it what the stage does. -/
theorem plays_like_interpreter_fork :
    forkStage.gear.Idle ∧ fork.Read ∧ NeitherCallsNorFails noting ∧
      ∃ w₁, forkStage.loadScript noting 10 fork = some w₁ ∧
        Throughout noting (fun w v => Unblocked noting w.chains.length v) w₁ forkCalls ∧
        ∃ glances w, (hosted noting Stage.glance).waiting.Runs w₁ forkCalls glances w ∧
          Solo.hosted.Runs { commands := fork.commands } forkCalls glances w.solo ∧
          glances.getLast? = some ⟨none,
            [.shown ⟨.whole 0, ["@choice", "v", "left", "right"], .choice "v" ["left", "right"]⟩, .ended],
            [("v", "left")], none, true⟩ := by
  have hidle : forkStage.gear.Idle := ⟨rfl, rfl, rfl⟩
  obtain ⟨⟨glances, w⟩, hrun, hglance⟩ := Option.map_eq_some_iff.mp fork_glance
  obtain ⟨w₁, hload, hcalls⟩ := Option.bind_eq_some_iff.mp hrun
  have hruns := runs_of_runCalls hcalls
  have hplaying : ∀ call ∈ forkCalls, call.isPlaying = true := by simp [forkCalls, HostCall.isPlaying]
  obtain ⟨hrest, hforks, -⟩ := loadScript_solo noting_neitherCallsNorFails hidle rfl rfl rfl fork_read.sound hload
  have hfree := unblocked_of_runCalls noting_neitherCallsNorFails hrest hforks hplaying hcalls
  obtain ⟨hsame, -, -⟩ :=
    plays_like_interpreter hidle rfl rfl rfl fork_read noting_neitherCallsNorFails hload forkCalls hplaying glances
  exact ⟨hidle, fork_read, noting_neitherCallsNorFails, w₁, hload, hfree, glances, w, hruns, hsame w hruns, hglance⟩

end Stage

end ChatScene
