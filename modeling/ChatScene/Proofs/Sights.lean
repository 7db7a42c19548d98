/-
  What has been seen stays seen.

  A stage keeps all moments that have been seen on it, the newest first (`Stage.seen`).  Whatever is done on a stage, by
  the host, by listeners and handlers or by the chains themselves, only adds to this list.  This is the relation
  `Stage.SeesMore`: the moments of the first stage are a suffix of those of the second.

  1. **Acts and events** — one lemma for each thing that an act or a delivery can do (`SeesMore.perform`,
     `SeesMore.deliver`).  A delivery calls handlers, which act themselves; for this, what a delivery keeps is taken
     from `Bus.deliver_keeps`.

  2. **Chains** — one lemma for each kind of frame, down to `SeesMore.runFrame` and `SeesMore.runChain`.

  3. **Steps** — a step is a delivery, a stride of a chain or the end of a wait (`SeesMore.of_step`), and an arrival is
     many of them (`SeesMore.of_arrives`, by induction).

  4. **What the host does** — an advance and an act of the host (`SeesMore.of_advance`, `SeesMore.of_doAct`).

  So somebody who writes down what is new each time that they look has written down everything, in order.  A console is
  somebody like that; `SeesMore.calls_eq` says what it has to know about the calls to the listener.
-/
import ChatScene.Proofs.WithoutHandlers

namespace ChatScene

namespace Stage

/-- `w.SeesMore v` — all that has been seen on the first stage has been seen on the second one, which may show more. -/
def SeesMore (w v : Stage) : Prop := w.seen <:+ v.seen

namespace SeesMore

variable {u v w : Stage}

/-- A stage on which the same has been seen; most of what a chain does leaves `Stage.seen` as it is. -/
theorem of_eq (h : v.seen = w.seen) : SeesMore w v := ⟨[], h.symm⟩

theorem refl (w : Stage) : SeesMore w w := of_eq rfl

theorem trans (h : SeesMore w v) (h' : SeesMore v u) : SeesMore w u := List.IsSuffix.trans h h'

/-- One more moment is one more entry at the front of `Stage.seen`. -/
theorem see (w : Stage) (m : Moment) : SeesMore w (w.see m) := List.suffix_cons m w.seen

/-- Log lines are seen as well, one moment for each of them. -/
theorem logAll (w : Stage) (lines : List LogLine) : SeesMore w (w.logAll lines) := by
  rw [logAll_eq]
  exact List.suffix_append _ _

theorem touch (w : Stage) (context : Context) : SeesMore w (w.touch context) := by
  obtain ⟨contexts, heq⟩ := w.touch_eq context
  rw [heq]
  exact of_eq rfl

theorem pass (w : Stage) (context : Context) (passage : Passage) : SeesMore w (w.pass context passage) := by
  obtain ⟨contexts, heq⟩ := w.pass_eq context passage
  rw [heq]
  exact of_eq rfl

/-! ## Acts and events -/

theorem load (w : Stage) (script : Script) : SeesMore w (w.load script).1 := see (w.record (.load script)) _

/-- Reading a script logs what is wrong with it, and only a script that has been read is loaded after that. -/
theorem setup (w : Stage) (text source : String) : SeesMore w (w.setup text source).1 := by
  have hlog := logAll w (Script.parseLog source (Script.parse w.session.settings.commentMark source text))
  simp only [Stage.setup]
  split
  · exact hlog
  · exact hlog.trans (load _ _)

theorem collect (w : Stage) (number : Option Nat) : SeesMore w (w.collect number).1 := by
  simp only [Stage.collect]
  exact logAll (w.record (.collect number w.session.nextBeat)) _

/-- No act takes back what has been seen.  Only `setup`, `loadCompiled`, `nextBeat`, `view` and `note` add to it. -/
theorem perform (w : Stage) (act : Act) : SeesMore w (w.perform act).stage := by
  cases act with
  | setup text =>
    have hsetup := setup w text unnamedSource
    simp only [Stage.perform]
    -- both outcomes of reading a script leave what reading it has logged
    split <;> rename_i heq <;> rw [heq] at hsetup <;> exact hsetup
  | loadCompiled document =>
    simp only [Stage.perform]
    split
    · exact load w _
    · exact refl w
  | nextBeat => exact collect w none
  | assign name value =>
    simp only [Stage.perform]
    split <;> exact of_eq rfl
  | view | note => exact see w _
  | sleep | advance | setVariable | fail | attach | subscribe | unsubscribe | clear | publish => exact of_eq rfl

/-- The acts of one reaction, as far as none of them fails: by induction on the acts, with the event that each of them
    puts on the queue. -/
theorem performAll (acts : List Act) (w : Stage) : SeesMore w (Stage.performAll acts w).1 := by
  induction acts generalizing w with
  | nil => exact refl w
  | cons act acts ih =>
    have hqueued : SeesMore w ((w.perform act).event.elim (w.perform act).stage fun e =>
        (w.perform act).stage.editBus (·.enqueue e)) := by
      cases (w.perform act).event with
      | none => exact perform w act
      | some e => exact (perform w act).trans (of_eq rfl)
    simp only [Stage.performAll]
    split
    · exact hqueued
    · exact hqueued.trans (ih _)

variable (react : Reactions)

/-- A call of a handler is seen before the handler acts. -/
theorem callHandler (handler : Nat) (event : SessionEvent) (b : Bus Notice) (w : Stage) :
    SeesMore w (Stage.callHandler react handler event b w).2.1 := by
  let cue := Cue.heard handler event.topic
  have hheard : SeesMore w (({ w with bus := some b }.see (.heard handler event)).countCue cue) :=
    see { w with bus := some b } (.heard handler event)
  exact hheard.trans (performAll (react cue (w.timesFired cue)) _)

/-- A delivery calls handler after handler.  What each call keeps the whole delivery keeps, by `Bus.deliver_keeps`. -/
theorem deliver (w : Stage) (event : SessionEvent) : SeesMore w (w.deliver react event) := by
  unfold Stage.deliver
  split
  · exact refl w
  · rename_i b hb
    exact Bus.deliver_keeps (P := fun _ => SeesMore w) (audience react) event
      (fun handler b rest hrest => hrest.trans (callHandler react handler event b rest))
      (fun _ rest hrest => hrest.trans (see rest _)) b (refl w)

/-- Publishing delivers at once, or puts the event on the queue of a bus that is already delivering. -/
theorem publish (w : Stage) (event : SessionEvent) : SeesMore w (w.publish react event) := by
  unfold Stage.publish
  split
  · exact refl w
  · split
    · exact of_eq rfl
    · rename_i b hb _
      exact deliver react { w with bus := some (b.settle.mark (.published event)) } event

theorem carryOut (w : Stage) (act : Act) : SeesMore w (w.carryOut react act).1 := by
  simp only [Stage.carryOut]
  cases (w.perform act).event with
  | none => exact perform w act
  | some event => exact (perform w act).trans (publish react _ event)

/-! ## Chains -/

variable (chain : Nat) (rest : List Frame)

theorem goOn (w : Stage) (failure : Option Failure) : SeesMore w (w.goOn chain failure) := of_eq rfl

theorem sleep (w : Stage) (seconds : Float) : SeesMore w (w.sleep chain seconds) := by
  unfold Stage.sleep
  split <;> exact of_eq rfl

theorem jumpTo (w : Stage) (beat : Option Nat) (c : Command) (label : String) :
    SeesMore w (w.jumpTo react beat c label) := by
  unfold Stage.jumpTo
  split
  · exact see w _
  · exact (see w _).trans (publish react ((w.log _ _).record _) _)

/-- The kinds of commands one by one: texts, images and choices are shown, jumps are logged, and pauses are not seen at
    all. -/
theorem runCommand (w : Stage) (c : Command) : SeesMore w (w.runCommand react chain rest c) := by
  simp only [Stage.runCommand]
  split
  · exact of_eq rfl
  · split
    · exact see w (.shown c w.now)
    · exact see w (.shown c w.now)
    · exact sleep chain (w.setFrames chain rest) _
    · exact see w (.shown c w.now)
    · -- a condition may be logged
      split
      · exact see w _
      · split
        · exact jumpTo react (w.setFrames chain rest) _ c _
        · exact of_eq rfl
    · exact jumpTo react (w.setFrames chain rest) _ c _
    · exact of_eq rfl
    · exact see w _

/-- A round collects a beat, which may log that a label has been passed; then it starts the beat or ends the scene. -/
theorem nextRound (w : Stage) (context : Context) : SeesMore w (w.nextRound react chain rest context) := by
  have hcollect := collect (w.openGroup chain) (some w.groups.length)
  simp only [Stage.nextRound]
  split
  · rename_i v heq
    rw [heq] at hcollect
    -- the scene ends: the context is reset, and then the end is recorded, logged and published
    refine hcollect.trans ((pass v context .reset).trans (.trans (.trans ?_ (publish react _ _)) (goOn chain _ none)))
    exact see ((v.reset context).record .finish) _
  · rename_i v beat _ heq
    rw [heq] at hcollect
    exact hcollect.trans (publish react (v.setFrames chain _) _)

/-- An advance that is turned away is logged, and the other ones go on to their first round. -/
theorem beginAdvance (w : Stage) (context : Context) : SeesMore w (w.beginAdvance react chain rest context) := by
  have htouch : SeesMore w ((w.touch context).setFrames chain rest) := (touch w context).trans (of_eq rfl)
  simp only [Stage.beginAdvance]
  split
  · exact htouch.trans (see _ _)
  · split
    · exact htouch.trans (see _ _)
    · split
      · exact htouch.trans (see _ _)
      · exact (htouch.trans (pass _ context .enter)).trans (nextRound react chain rest _ context)

theorem spawnAll (g : Option Nat) (cs : List Command) (w : Stage) :
    SeesMore w (cs.foldl (fun w c => w.spawn [.command c] g) w) := by
  induction cs generalizing w with
  | nil => exact refl w
  | cons c cs ih => exact ih (w.spawn [.command c] g)

theorem beatOver (w : Stage) (context : Context) (onChoice : Bool) :
    SeesMore w (w.beatOver react chain rest context onChoice) := by
  simp only [Stage.beatOver]
  split
  · exact pass (w.setFrames chain rest) context .leave
  · exact nextRound react chain rest w context

theorem unwind (w : Stage) (frame : Frame) (failure : Failure) : SeesMore w (w.unwind chain frame rest failure) := by
  cases frame with
  | start context | beat context | leave context => exact pass (w.setFrames chain rest) context .leave
  | command | acts | settle | announce | advance | reportEnd | sleep => exact of_eq rfl

theorem runAct (w : Stage) (act : Act) : SeesMore w (w.runAct react chain rest act) := by
  cases act with
  | sleep seconds => exact sleep chain (w.setFrames chain rest) seconds
  | advance context => exact of_eq rfl
  | setVariable | setup | loadCompiled | nextBeat | view | note | fail | attach | assign
  | subscribe | unsubscribe | clear | publish =>
    exact carryOut react (w.setFrames chain rest) _

/-- All kinds of frames, each by the lemma for what it does. -/
theorem runFrame (w : Stage) (frame : Frame) : SeesMore w (w.runFrame react chain frame rest) := by
  cases frame with
  | command c => exact runCommand react chain rest w c
  | acts acts =>
    cases acts with
    | nil => exact of_eq rfl
    | cons act acts => exact runAct react chain _ w act
  | settle => exact sleep chain (w.setFrames chain rest) _
  | announce c => exact publish react (w.setFrames chain rest) _
  | advance context => exact beginAdvance react chain rest w context
  | start context number beat => exact spawnAll (some number) beat (w.setFrames chain _)
  | beat context onChoice => exact beatOver react chain rest w context onChoice
  | reportEnd =>
    simp only [Stage.runFrame]
    split
    · exact see w _
    · exact of_eq rfl
  | leave context => exact pass (w.setFrames chain rest) context .leave
  | sleep seconds => exact sleep chain (w.setFrames chain rest) seconds

/-- A chain that is over, one that has just been told of a failure, and one with a frame to run. -/
theorem runChain (w : Stage) (failure : Option Failure) : SeesMore w (w.runChain react chain failure) := by
  simp only [Stage.runChain]
  split
  · exact of_eq rfl
  · simp only [Stage.finish]
    split <;> exact of_eq rfl
  · split
    · exact unwind chain _ { w with active := none } _ _
    · exact runFrame react chain _ { w with active := none } _

/-! ## Steps -/

/-- The four kinds of steps in the order in which `Stage.step` tries them. -/
theorem of_step (h : w.step react = some v) : SeesMore w v := by
  simp only [Stage.step] at h
  split at h
  · rename_i event u hnext
    cases h
    -- taking an event off the queue is not seen, only its delivery is
    have hu : u.seen = w.seen := by
      simp only [nextEvent?] at hnext
      split at hnext
      · split at hnext <;> cases hnext
        rfl
      · cases hnext
    exact (of_eq hu).trans (deliver react u event)
  · split at h
    · cases h
      exact runChain react _ w _
    · split at h
      · rename_i u htake
        cases h
        simp only [takeReady] at htake
        split at htake <;> cases htake
        · exact of_eq rfl
        · simp only [memberOver]
          split
          · exact of_eq rfl
          · split <;> exact of_eq rfl
      · split at h
        · cases h
        · cases h
          exact of_eq rfl

theorem of_tick (h : w.tick = some v) : SeesMore w v := by
  obtain ⟨t, timers, -, -, rfl⟩ := tick_eq_some h
  exact of_eq rfl

/-- What one step keeps an arrival keeps, by induction on its steps. -/
theorem of_arrives {react : Reactions} {chain : Nat} (h : Arrives react chain w v) : SeesMore w v := by
  induction h with
  | refl => exact refl w
  | tail _ hgo ih =>
    cases hgo with
    | step hstep => exact ih.trans (of_step react hstep)
    | tick _ _ htick => exact ih.trans (of_tick htick)

/-! ## What the host does -/

/-- An advance of the host, from the spawning of its chain to the end of the wait for it. -/
theorem of_advance {react : Reactions} {fuel : Nat} {context : Context} {failure : Option Failure}
    (h : w.advance react fuel context = some (v, failure)) : SeesMore w v := by
  have hspawn : SeesMore w (w.spawn [.advance context] none) := of_eq rfl
  exact hspawn.trans (of_arrives (await_iff.mp ⟨fuel, h⟩).1)

/-- The calls to the listener are among what is seen: those of `v` are those of `w`, followed by the calls among the
    new moments. -/
theorem calls_eq (h : SeesMore w v) : ∃ seen : List Moment, v.calls = w.calls ++ seen.filterMap Moment.call? := by
  obtain ⟨fresh, hfresh⟩ := h
  exact ⟨fresh.reverse, by simp [calls, ← hfresh]⟩

/-- An act of the host, together with all that comes to rest after it. -/
theorem of_doAct {react : Reactions} {fuel : Nat} {act : Act} {failure : Option Failure}
    (h : w.doAct react fuel act = some (v, failure)) : SeesMore w v := by
  obtain ⟨u, hrest, heq⟩ := Option.map_eq_some_iff.mp h
  cases heq
  have hsteps := (rest_iff.mp ⟨fuel, hrest⟩).1
  exact (carryOut react w act).trans (of_arrives (hsteps.arrives 0))

end SeesMore

end Stage

end ChatScene
