/-
  What can happen in one step, said once.

  The running chain takes strides: it replaces its next frame by others, and with that it may do deeds, call the
  listener, start the commands of a beat and publish one event.  Then it goes on, waits for a time, or waits for its
  group.  Whoever hears of the event may do deeds of their own on the side, but nothing to the chains.  All else that
  happens only moves entries between the lists of those who wait.

  1. **Depths** — how deep a context is in advances can be read off the journal (`depthAfter`).

  2. **Records** — `Stage.Records` says which deeds have been done and which calls to the listener have begun, and
     `Stage.Unheard` says in addition that nobody on the bus has heard of anything.

  3. **On the side** — `Stage.Aside` is what immediate acts and deliveries do: the chains stay where they are, the
     listener is not called, and all deeds are of a kind that anybody may do (`Deed.isAside`).

  4. **Strides** — a `Stride` is what a chain does in one step, as data: the frames that it puts in the place of one
     frame, its deeds, calls and event, and how it goes on (`Way`).  The relation `Plays` lists the strides for each
     kind of frame, and `Round` those in which an advance collects a beat.

  5. **Frames** — each function that runs a frame is a stride of its list: `takes_runCommand`, `takes_beginAdvance` and
     the others, and together `takes_runFrame` and `takes_unwind`.

  Statements about every reachable stage are read off these cases, so that nothing below looks into the functions that
  play a scene again.
-/
import ChatScene.Proofs.Isolation
import ChatScene.Proofs.Rounds

namespace ChatScene

open Relation (ReflTransGen)

/-! ## Depths of contexts -/

/-- The depth of a context after a deed. -/
def Deed.deepen (context : Context) : Deed → Nat → Nat
  | .pass other passage, depth => if other = context then passage.edit depth else depth
  | .load _, depth => if context = .own then 0 else depth
  | _, depth => depth

/-- `depthAfter context depth journal` — the depth of a context after all deeds of a journal, which has the latest
    first. -/
def depthAfter (context : Context) (depth : Nat) (journal : List Deed) : Nat :=
  journal.foldr (Deed.deepen context) depth

/-- The deeds of a journal one part after the other, older ones first. -/
theorem depthAfter_append (context : Context) (depth : Nat) (js ks : List Deed) :
    depthAfter context depth (js ++ ks) = depthAfter context (depthAfter context depth ks) js :=
  List.foldr_append

/-- The depth that a session keeps is that of its own context. -/
theorem Session.depth_after (s : Session) (d : Deed) : (s.after d).depth = d.deepen .own s.depth := by
  cases d with
  | pass context passage => cases context <;> rfl
  | load | answer | collect | offer | jump | finish | adjust | attach => rfl

/-- And so it is after all deeds of a journal. -/
theorem Session.depth_replay (s : Session) (js : List Deed) : (s.replay js).depth = depthAfter .own s.depth js := by
  induction js with
  | nil => rfl
  | cons d js ih =>
    rw [Session.replay_cons, Session.depth_after, ih]
    rfl

theorem Session.replay_append (s : Session) (js ks : List Deed) : s.replay (js ++ ks) = (s.replay ks).replay js :=
  List.foldr_append

namespace Stage

/-- The depth of a context; one that has not been used has none. -/
def depth (w : Stage) : Context → Nat
  | .own => w.session.depth
  | .named name => (w.contexts.find? (·.1 = name)).elim 0 (·.2)

/-- Editing a named context changes its depth, and no other.  A context that has not been used is edited from zero. -/
theorem depth_editNamed (w : Stage) (name other : String) (edit : Nat → Nat) :
    (w.editNamed name edit).depth (.named other) =
      if name = other then edit (w.depth (.named other)) else w.depth (.named other) := by
  unfold editNamed
  split
  · rename_i hany
    -- the edit changes values, not names, so a search finds the same entry
    have hkeys : (fun p : String × Nat => decide (p.1 = other)) ∘
        (fun p : String × Nat => if p.1 = name then (p.1, edit p.2) else (p.1, p.2)) =
          fun p => decide (p.1 = other) := by
      funext p
      by_cases hp : p.1 = name <;> simp [hp]
    simp only [depth, List.find?_map, hkeys]
    cases hfind : w.contexts.find? (·.1 = other) with
    | none =>
      have hne : name ≠ other := by
        rintro rfl
        rw [List.find?_eq_none] at hfind
        obtain ⟨p, hp, hname⟩ := List.any_eq_true.mp hany
        exact hfind p hp hname
      simp [hne]
    | some p =>
      have hp : p.1 = other := by simpa using List.find?_some hfind
      by_cases hname : name = other
      · simp [hp, hname]
      · simp [hp, hname, Ne.symm hname]
  · rename_i hany
    -- a new context is put last, with nothing of its name before it
    have hnone : w.contexts.find? (·.1 = name) = none := by
      rw [List.find?_eq_none]
      intro p hp hname
      exact hany (List.any_eq_true.mpr ⟨p, hp, hname⟩)
    by_cases hname : name = other
    · subst hname
      simp [depth, hnone]
    · simp [depth, hname]

end Stage

/-! ## What is recorded -/

/-- A handler is called with an event of a topic. -/
def Moment.tells (handler : Nat) (topic : Topic) : Moment → Bool
  | .heard other event => other = handler && event.topic = topic
  | _ => false

namespace Stage

variable {u v w w' : Stage} {ds es : List Deed} {cs ks : List Call}

/-- `w.hearings handler topic` — how often a handler has been called with events of a topic. -/
def hearings (w : Stage) (handler : Nat) (topic : Topic) : Nat := w.seen.countP (Moment.tells handler topic)

/-- `w.Records deeds calls w'` — these deeds have been done and these calls to the listener have begun,
    and no others. -/
structure Records (w : Stage) (deeds : List Deed) (calls : List Call) (w' : Stage) : Prop where
  journal_eq : w'.journal = deeds ++ w.journal
  session_eq : w'.session = w.session.replay deeds
  named_eq : ∀ name, w'.depth (.named name) = depthAfter (.named name) (w.depth (.named name)) deeds
  calls_eq : w'.calls = w.calls ++ calls

/-- `Records` one after the other; the journal has the latest deeds first, calls have the oldest first. -/
theorem Records.trans (h : Records w ds cs v) (h' : Records v es ks u) : Records w (es ++ ds) (cs ++ ks) u where
  journal_eq := by rw [h'.journal_eq, h.journal_eq, List.append_assoc]
  session_eq := by rw [h'.session_eq, h.session_eq, Session.replay_append]
  named_eq name := by rw [h'.named_eq, h.named_eq, depthAfter_append]
  calls_eq := by rw [h'.calls_eq, h.calls_eq, List.append_assoc]

theorem Records.depth_eq (h : Records w ds cs w') (context : Context) :
    w'.depth context = depthAfter context (w.depth context) ds := by
  cases context with
  | own => exact (congrArg Session.depth h.session_eq).trans (w.session.depth_replay ds)
  | named name => exact h.named_eq name

/-- `w.Unheard deeds calls w'` — the same, and nobody on the bus has heard of anything. -/
structure Unheard (w : Stage) (deeds : List Deed) (calls : List Call) (w' : Stage) : Prop extends
    Records w deeds calls w' where
  bus_eq : w'.bus = w.bus
  hearings_eq : ∀ handler topic, w'.hearings handler topic = w.hearings handler topic

namespace Unheard

/-- A stage that has the session, the `journal`, the contexts, the bus and the sights of another one. -/
theorem congr (h : Unheard w ds cs u) (hsession : v.session = u.session) (hjournal : v.journal = u.journal)
    (hcontexts : v.contexts = u.contexts) (hseen : v.seen = u.seen) (hbus : v.bus = u.bus) :
    Unheard w ds cs v where
  journal_eq := hjournal.trans h.journal_eq
  session_eq := hsession.trans h.session_eq
  named_eq name := by
    rw [← h.named_eq]
    simp only [depth, hcontexts]
  calls_eq := by
    rw [← h.calls_eq]
    simp only [calls, hseen]
  bus_eq := hbus.trans h.bus_eq
  hearings_eq handler topic := by
    rw [← h.hearings_eq]
    simp only [hearings, hseen]

theorem refl (w : Stage) : Unheard w [] [] w where
  journal_eq := rfl
  session_eq := rfl
  named_eq _ := rfl
  calls_eq := (List.append_nil _).symm
  bus_eq := rfl
  hearings_eq _ _ := rfl

theorem trans (h : Unheard w ds cs v) (h' : Unheard v es ks u) : Unheard w (es ++ ds) (cs ++ ks) u where
  toRecords := h.toRecords.trans h'.toRecords
  bus_eq := h'.bus_eq.trans h.bus_eq
  hearings_eq handler topic := (h'.hearings_eq handler topic).trans (h.hearings_eq handler topic)

/-- A moment that is no call of a handler. -/
theorem see (w : Stage) {m : Moment} (hm : ∀ handler topic, m.tells handler topic = false) :
    Unheard w [] m.call?.toList (w.see m) where
  journal_eq := rfl
  session_eq := rfl
  named_eq _ := rfl
  calls_eq := calls_see w m
  bus_eq := rfl
  hearings_eq handler topic := by simp [hearings, Stage.see, hm]

theorem log (w : Stage) (level : Level) (message : String) : Unheard w [] [] (w.log level message) :=
  see w (m := .log ⟨level, .session, message⟩) fun _ _ => rfl

/-- Log lines are not heard of on the bus. -/
theorem logAll (w : Stage) (lines : List LogLine) : Unheard w [] [] (w.logAll lines) := by
  unfold Stage.logAll
  induction lines generalizing w with
  | nil => exact refl w
  | cons line lines ih => exact (see w (m := .log line) fun _ _ => rfl).trans (ih _)

/-- A deed that is no passage through a `context`. -/
theorem record (w : Stage) {d : Deed} (hd : ∀ context passage, d ≠ .pass context passage) :
    Unheard w [d] [] (w.record d) where
  journal_eq := rfl
  session_eq := rfl
  named_eq name := by
    cases d with
    | pass context passage => exact absurd rfl (hd context passage)
    | load | answer | collect | offer | jump | finish | adjust | attach => rfl
  calls_eq := (List.append_nil _).symm
  bus_eq := rfl
  hearings_eq _ _ := rfl

/-- Entering, leaving and resetting: the deed is recorded, and the depth of the context changes
    as `Deed.deepen` says. -/
theorem pass (w : Stage) (context : Context) (passage : Passage) :
    Unheard w [.pass context passage] [] (w.pass context passage) := by
  have hrecord : ∀ contexts, ({ w.record (.pass context passage) with contexts } : Stage).calls = w.calls :=
    fun _ => rfl
  obtain ⟨contexts, heq⟩ := w.pass_eq context passage
  refine ⟨⟨w.journal_pass context passage, w.session_pass context passage, fun name => ?_, ?_⟩, ?_, fun _ _ => ?_⟩
  · cases context with
    | own => rfl
    | named other =>
      -- only the depth of the context itself changes
      refine (depth_editNamed (w.record (.pass (.named other) passage)) other name passage.edit).trans ?_
      by_cases hname : other = name
      · simp [depthAfter, Deed.deepen, hname, Stage.record, depth]
      · simp [depthAfter, Deed.deepen, hname, Stage.record, depth]
  · rw [heq, hrecord, List.append_nil]
  · rw [heq]
    rfl
  · rw [heq]
    rfl

/-- A `context` that is looked at for the first time has no depth, as before. -/
theorem touch (w : Stage) (context : Context) : Unheard w [] [] (w.touch context) := by
  cases context with
  | own => exact refl w
  | named other =>
    obtain ⟨contexts, heq⟩ := w.editNamed_eq other id
    have hnamed : ∀ name, (w.editNamed other id).depth (.named name) = w.depth (.named name) := by
      intro name
      rw [depth_editNamed, id, ite_self]
    have htouch : w.touch (.named other) = w.editNamed other id := rfl
    rw [htouch]
    refine ⟨⟨?_, ?_, hnamed, ?_⟩, ?_, fun _ _ => ?_⟩
    all_goals rw [heq]
    all_goals first | rfl | exact (List.append_nil _).symm

end Unheard

end Stage

/-! ## What is done on the side -/

/-- A deed that anybody may do, whatever the chains are doing. -/
def Deed.isAside : Deed → Bool
  | .load _ | .answer _ _ | .collect none _ | .adjust _ | .attach _ => true
  | _ => false

namespace Stage

/-- `w.Aside w'` — the chains stay where they are, the listener is not called, and all deeds are done on the side. -/
structure Aside (w w' : Stage) : Prop where
  gear_eq : w'.gear = w.gear
  records : ∃ deeds, (∀ d ∈ deeds, d.isAside = true) ∧ Records w deeds [] w'

namespace Aside

variable {u v w : Stage}

theorem trans (h : Aside u v) (h' : Aside v w) : Aside u w := by
  obtain ⟨ds, hds, hrecords⟩ := h.records
  obtain ⟨es, hes, hrecords'⟩ := h'.records
  refine ⟨h'.gear_eq.trans h.gear_eq, es ++ ds, fun d hd => ?_, hrecords.trans hrecords'⟩
  rcases List.mem_append.mp hd with hd | hd
  · exact hes d hd
  · exact hds d hd

/-- Nothing has been done at all, as far as chains, deeds and calls go. -/
theorem of_unheard (hgear : v.gear = w.gear) (h : Unheard w [] [] v) : Aside w v :=
  ⟨hgear, [], by simp, h.toRecords⟩

theorem refl (w : Stage) : Aside w w := of_unheard rfl (.refl w)

theorem record (w : Stage) {d : Deed} (hd : d.isAside = true) : Aside w (w.record d) := by
  refine ⟨rfl, [d], by simpa using hd, (Unheard.record w ?_).toRecords⟩
  rintro context passage rfl
  cases hd

theorem see (w : Stage) {m : Moment} (hm : m.call? = none) : Aside w (w.see m) := by
  refine ⟨rfl, [], by simp, rfl, rfl, fun _ => rfl, ?_⟩
  rw [calls_see, hm]
  rfl

theorem of_same (hgear : v.gear = w.gear) (hsession : v.session = w.session) (hjournal : v.journal = w.journal)
    (hcontexts : v.contexts = w.contexts) (hseen : v.seen = w.seen) : Aside w v := by
  refine ⟨hgear, [], by simp, hjournal, hsession, fun name => ?_, ?_⟩
  · simp only [depth, hcontexts]
    rfl
  · simp only [calls, hseen, List.append_nil]

theorem editBus (w : Stage) (edit : Bus Notice → Bus Notice) : Aside w (w.editBus edit) :=
  of_same rfl rfl rfl rfl rfl

theorem logAll (w : Stage) (lines : List LogLine) : Aside w (w.logAll lines) := by
  refine of_unheard ?_ (.logAll w lines)
  rw [logAll_eq]
  rfl

theorem load (w : Stage) (script : Script) : Aside w (w.load script).1 :=
  (record w (d := .load script) rfl).trans (see _ rfl)

/-- Setting up is a load, which anybody may do, if the text can be read, and nothing otherwise. -/
theorem setup (w : Stage) (text source : String) : Aside w (w.setup text source).1 := by
  have hlog := logAll w (Script.parseLog source (Script.parse w.session.settings.commentMark source text))
  simp only [Stage.setup]
  split
  · exact hlog
  · exact hlog.trans (load _ _)

theorem look (w : Stage) : Aside w w.collect.1 :=
  (record w (d := .collect none w.session.nextBeat) rfl).trans (logAll _ _)

theorem touch (w : Stage) (context : Context) : Aside w (w.touch context) := by
  obtain ⟨contexts, heq⟩ := w.touch_eq context
  refine of_unheard ?_ (.touch w context)
  rw [heq]
  rfl

/-- Every act is done on the side (`Aside`): the deeds of acts are answers, loads, looks, attaching and settings. -/
theorem perform (w : Stage) (act : Act) : Aside w (w.perform act).stage := by
  cases act with
  | setVariable name value => exact record w (d := .answer name value) rfl
  | attach on => exact record w (d := .attach on) rfl
  | setup text =>
    have hsetup := setup w text unnamedSource
    simp only [Stage.perform]
    split <;> rename_i heq <;> rw [heq] at hsetup <;> exact hsetup
  | loadCompiled document =>
    simp only [Stage.perform]
    split
    · exact load w _
    · exact refl w
  | nextBeat => exact look w
  | assign name value =>
    simp only [Stage.perform]
    split
    · exact record w (d := .adjust _) rfl
    · exact refl w
  | view => exact see w rfl
  | note text => exact see w rfl
  | subscribe | unsubscribe | clear => exact editBus w _
  | sleep | advance | fail | publish => exact refl w

/-- The acts of one reaction, with the events that they put on the queue. -/
theorem performAll (acts : List Act) (w : Stage) : Aside w (Stage.performAll acts w).1 := by
  induction acts generalizing w with
  | nil => exact refl w
  | cons act acts ih =>
    have hqueued : Aside w ((w.perform act).event.elim (w.perform act).stage fun e =>
        (w.perform act).stage.editBus (·.enqueue e)) := by
      cases (w.perform act).event with
      | none => exact perform w act
      | some e => exact (perform w act).trans (editBus _ _)
    simp only [Stage.performAll]
    split
    · exact hqueued
    · exact hqueued.trans (ih _)

variable (react : Reactions)

theorem callHandler (handler : Nat) (event : SessionEvent) (b : Bus Notice) (w : Stage) :
    Aside w (Stage.callHandler react handler event b w).2.1 := by
  have hbus : Aside w { w with bus := some b } := of_same rfl rfl rfl rfl rfl
  have hheard := hbus.trans (see _ (m := .heard handler event) rfl)
  have hcount : ∀ (v : Stage) (cue : Cue), Aside v (v.countCue cue) := fun _ _ => of_same rfl rfl rfl rfl rfl
  exact (hheard.trans (hcount _ _)).trans (performAll _ _)

/-- A delivery is done on the side, because every call of a handler is, by `Bus.deliver_keeps`. -/
theorem deliver (w : Stage) (event : SessionEvent) : Aside w (w.deliver react event) := by
  unfold Stage.deliver
  split
  · exact refl w
  · rename_i b hb
    have hdeliver := Bus.deliver_keeps (P := fun _ => Aside w) (audience react) event
      (fun handler b rest hrest => hrest.trans (callHandler react handler event b rest))
      (fun _ rest hrest => hrest.trans (see rest rfl)) b (refl w)
    exact hdeliver.trans (of_same rfl rfl rfl rfl rfl)

/-- Publishing is a delivery, or leaves the event on the queue. -/
theorem publish (w : Stage) (event : SessionEvent) : Aside w (w.publish react event) := by
  unfold Stage.publish
  split
  · exact refl w
  · split
    · exact of_same rfl rfl rfl rfl rfl
    · rename_i b hb _
      have hbus : Aside w { w with bus := some (b.settle.mark (.published event)) } := of_same rfl rfl rfl rfl rfl
      exact hbus.trans (deliver react _ event)

end Aside

/-- `w.publish? react event` — an event is published, if there is one. -/
def publish? (react : Reactions) (w : Stage) (event : Option SessionEvent) : Stage := event.elim w (w.publish react)

theorem Aside.publish? (react : Reactions) (w : Stage) (event : Option SessionEvent) :
    Aside w (w.publish? react event) := by
  cases event with
  | none => exact refl w
  | some event => exact publish react w event

theorem Aside.carryOut (react : Reactions) (w : Stage) (act : Act) : Aside w (w.carryOut react act).1 :=
  (perform w act).trans (publish? react _ _)

end Stage

/-! ## Strides -/

/-- The context that an advance holds with the frame, and leaves when the frame is given up. -/
def Frame.context? : Frame → Option Context
  | .start context _ _ | .beat context _ | .leave context => some context
  | _ => none

/-- The listener is called when the command runs. -/
def Command.isShown (c : Command) : Bool :=
  match c.body with
  | .text _ | .image _ | .choice _ _ => true
  | _ => false

/-- A cue of the listener. -/
def Cue.isCall : Cue → Bool
  | .heard _ _ => false
  | _ => true

/-- How a chain goes on after a stride. -/
inductive Way where
  /-- At once, with a failure if it fails. -/
  | on (failure : Option Failure)
  /-- When the others have had their turn. -/
  | back
  /-- When it is time. -/
  | away (t : Timer)
  /-- When its group is over. -/
  | stay

/-- A chain goes on by itself, and does not fail. -/
def Way.IsFree (chain : Nat) : Way → Prop
  | .on failure => failure = none
  | .back => True
  | .away t => t.chain = chain
  | .stay => False

/-- What a chain does in one step. -/
structure Stride where
  /-- The frames that take the place of the one that is run. -/
  frames : List Frame := []
  /-- The commands that start, each as a chain of its own. -/
  begun : List Command := []
  /-- The group that these chains form. -/
  number : Nat := 0
  /-- The groups that are opened. -/
  opened : List Group := []
  /-- What is done to the session, latest first. -/
  deeds : List Deed := []
  /-- The calls to the listener. -/
  calls : List Call := []
  /-- The event that is published in the end. -/
  event : Option SessionEvent := none
  /-- How the chain goes on. -/
  way : Way := .on none

/-- `G.after chain rest t` — the gear after a stride of a chain with these frames left. -/
def Gear.after (G : Gear) (chain : Nat) (rest : List Frame) (t : Stride) : Gear where
  chains := (G.setFrames chain (t.frames ++ rest)).chains ++
    t.begun.map fun c => { frames := [.command c], group := some t.number }
  groups := G.groups ++ t.opened
  timers :=
    match t.way with
    | .away timer => Stage.insertTimer timer G.timers
    | _ => G.timers
  ready := (match t.way with
    | .back => G.ready ++ [.resume chain none]
    | _ => G.ready) ++ (t.begun.zipIdx G.chains.length).map launch
  active :=
    match t.way with
    | .on failure => some (chain, failure)
    | _ => none

/-- The frames of the chain before the stride do not matter. -/
theorem Gear.after_setFrames (G : Gear) (chain : Nat) (frames rest : List Frame) (t : Stride) :
    (G.setFrames chain frames).after chain rest t = G.after chain rest t := by
  have hlength : (G.setFrames chain frames).chains.length = G.chains.length := List.length_modify ..
  simp only [Gear.after, Gear.setFrames_setFrames, hlength]
  rfl

/-- The next round of an advance that may go on, when this is the next beat: the beat is collected, or the end is come
    to. -/
inductive Round (beat : List Command) (script : Script) (number chain : Nat) (context : Context) : Stride → Prop where
  | ends : beat = [] →
      Round beat script number chain context
        { frames := [.reportEnd, .leave context], opened := [{ owner := chain, left := 0 }]
          deeds := [.finish, .pass context .reset, .collect (some number) []]
          event := some ⟨.chatEnded, .script script⟩ }
  | collects : beat ≠ [] →
      Round beat script number chain context
        { frames := [.start context number beat], opened := [{ owner := chain, left := beat.length }]
          deeds := [.collect (some number) beat], event := some ⟨.beatStarted, .beat beat⟩ }

/-- A frame that may be over without anything having happened. -/
def Frame.IsIdle (s : Session) : Frame → Prop
  | .command c => s.attached = false ∨ c.isShown = false
  | .acts reaction => reaction = []
  | .settle | .advance _ | .sleep _ => True
  | _ => False

/-- The strides that a chain of a group may take with a frame, when it fails and when it does not; immediate acts of a
    reaction are left out. -/
inductive Plays (react : Reactions) (s : Session) (number : Nat) (group : Option Nat)
    (chain : Nat) : Option Failure → Frame → Stride → Prop where
  | idles {frame : Frame} {way : Way} : frame.IsIdle s → way.IsFree chain →
      Plays react s number group chain none frame { way }
  | shows {c : Command} {cue : Cue} {n : Nat} : c.isShown = true → c.kind ≠ .choice → s.attached = true →
      cue.isCall = true →
      Plays react s number group chain none (.command c)
        { frames := [.acts (react cue n), .settle], calls := [.shown c] }
  | offers {c : Command} {cue : Cue} {n : Nat} {choice : Offer} : c.isShown = true → s.attached = true →
      cue.isCall = true →
      Plays react s number group chain none (.command c)
        { frames := [.acts ((react cue n).filter Act.isImmediate), .announce c], deeds := [.offer group c choice]
          calls := [.shown c] }
  | jumps {c : Command} {label : String} {position : Nat} : c.goal? = some label →
      Plays react s number group chain none (.command c)
        { deeds := [.jump group c label position], event := some ⟨.labelJumped, .jump label position⟩ }
  | dwells {seconds : Float} {acts : List Act} {way : Way} : way.IsFree chain →
      Plays react s number group chain none (.acts (.sleep seconds :: acts)) { frames := [.acts acts], way }
  | nests {context : Context} {acts : List Act} :
      Plays react s number group chain none (.acts (.advance context :: acts))
        { frames := [.advance context, .acts acts] }
  | announces {c : Command} :
      Plays react s number group chain none (.announce c) { event := some ⟨.choiceShown, .choice c⟩ }
  | enters {context : Context} {t : Stride} : s.finished = false →
      Round s.nextBeat s.script number chain context t →
      Plays react s number group chain none (.advance context)
        { t with deeds := t.deeds ++ [.pass context .enter] }
  | starts {context : Context} {n : Nat} {beat : List Command} :
      Plays react s number group chain none (.start context n beat)
        { frames := [.beat context (endsOnChoice beat)], begun := beat, number := n, way := .stay }
  | stops {context : Context} {onChoice : Bool} :
      Plays react s number group chain none (.beat context onChoice) { deeds := [.pass context .leave] }
  | continues {context : Context} {onChoice : Bool} {t : Stride} : s.finished = false →
      Round s.nextBeat s.script number chain context t →
      Plays react s number group chain none (.beat context onChoice) t
  | reports {n : Nat} :
      Plays react s number group chain none .reportEnd { frames := [.acts (react .ended n)], calls := [.ended] }
  | deserted : s.attached = false →
      Plays react s number group chain none .reportEnd { way := .on (some .noListener) }
  | leaves {context : Context} :
      Plays react s number group chain none (.leave context) { deeds := [.pass context .leave] }
  | fails {frame : Frame} {failure : Failure} : frame.context? = none →
      Plays react s number group chain (some failure) frame { way := .on (some failure) }
  | gives {frame : Frame} {context : Context} {failure : Failure} : frame.context? = some context →
      Plays react s number group chain (some failure) frame
        { deeds := [.pass context .leave], way := .on (some failure) }

namespace Stage

/-- A stage after a stride of a chain, right before and after the event has been published. -/
structure Strides (react : Reactions) (w : Stage) (chain : Nat) (rest : List Frame) (t : Stride) (u w' : Stage) :
    Prop where
  unheard : Unheard w t.deeds t.calls u
  gear_eq : u.gear = { w.gear.after chain rest t with active := none }
  result_eq : w' = { u.publish? react t.event with active := (w.gear.after chain rest t).active }

/-- What comes of a stride (`Gear.after`): those who hear of its event do not touch the chains. -/
theorem Strides.gear_after {react : Reactions} {w u w' : Stage} {chain : Nat} {rest : List Frame} {t : Stride}
    (h : Strides react w chain rest t u w') : w'.gear = w.gear.after chain rest t := by
  have hgear := (Aside.publish? react u t.event).gear_eq
  rw [h.gear_eq] at hgear
  rw [h.result_eq]
  exact congrArg (fun G : Gear => { G with active := (w.gear.after chain rest t).active }) hgear

/-- The deeds of a stride, followed by the side deeds (`isAside`) of those who heard of it; its calls, and no others. -/
theorem Strides.records {react : Reactions} {w u w' : Stage} {chain : Nat} {rest : List Frame} {t : Stride}
    (h : Strides react w chain rest t u w') :
    ∃ asides, (∀ d ∈ asides, d.isAside = true) ∧ Records w (asides ++ t.deeds) t.calls w' := by
  obtain ⟨asides, hasides, hrecords⟩ := (Aside.publish? react u t.event).records
  refine ⟨asides, hasides, ?_⟩
  have hboth := h.unheard.toRecords.trans hrecords
  rw [List.append_nil] at hboth
  rw [h.result_eq]
  exact ⟨hboth.journal_eq, hboth.session_eq, hboth.named_eq, hboth.calls_eq⟩

variable {react : Reactions} {w : Stage} {chain : Nat} {rest : List Frame}

/-- A chain takes a stride with a frame. -/
def TakesStride (react : Reactions) (w : Stage) (chain : Nat) (failure : Option Failure) (frame : Frame)
    (rest : List Frame) (w' : Stage) : Prop :=
  ∃ t u, Plays react w.session w.groups.length (w.groupOf chain) chain failure frame t ∧
    Strides react w chain rest t u w'

theorem unheard_setFrames {u : Stage} {ds : List Deed} {cs : List Call} (h : Unheard w ds cs u) (chain : Nat)
    (frames : List Frame) :
    Unheard w ds cs (u.setFrames chain frames) := h.congr rfl rfl rfl rfl rfl

/-- A chain that goes on at once has taken a stride in which no chain starts. -/
theorem strides_on {u : Stage} {t : Stride} {failure : Option Failure} (hu : Unheard w t.deeds t.calls u)
    (hgear : u.gear = { w.gear.setFrames chain (t.frames ++ rest) with groups := w.groups ++ t.opened, active := none })
    (hway : t.way = .on failure) (hbegun : t.begun = []) :
    Strides react w chain rest t u ((u.publish? react t.event).goOn chain failure) := by
  refine ⟨hu, ?_, ?_⟩
  · rw [hgear]
    simp only [Gear.after, hway, hbegun, List.map_nil, List.append_nil, List.zipIdx_nil]
    rfl
  · simp only [Gear.after, hway]
    rfl

/-- So has one that waits for a time, or lets the others go first, which is what waiting for no time at all comes to. -/
theorem strides_sleep (react : Reactions) (chain : Nat) (rest : List Frame) (hactive : w.active = none)
    (frames : List Frame) (seconds : Float) :
    ∃ way u, Way.IsFree chain way ∧
      Strides react w chain rest { frames, way } u ((w.setFrames chain (frames ++ rest)).sleep chain seconds) := by
  have hset := unheard_setFrames (Unheard.refl w) chain (frames ++ rest)
  have hstill : ∀ u : Stage, u.active = none → u = { u with active := none } := by
    intro u hu
    rw [← hu]
  generalize hslept : (w.setFrames chain (frames ++ rest)).sleep chain seconds = u
  unfold Stage.sleep at hslept
  split at hslept
  · refine ⟨.back, u, trivial, ?_, ?_, hstill u ?_⟩ <;> rw [← hslept]
    · exact hset.congr rfl rfl rfl rfl rfl
    · simp [Gear.after, Stage.gear, Gear.setFrames, Stage.setFrames, hactive]
    · exact hactive
  · refine ⟨.away ⟨w.now + seconds, chain⟩, u, rfl, ?_, ?_, hstill u ?_⟩ <;> rw [← hslept]
    · exact hset.congr rfl rfl rfl rfl rfl
    · simp [Gear.after, Stage.gear, Gear.setFrames, Stage.setFrames, hactive]
    · exact hactive

/-- A stride in which no group is opened either. -/
theorem TakesStride.plain {failure : Option Failure} {frame : Frame} {u : Stage} {t : Stride}
    {result : Option Failure} (hactive : w.active = none)
    (hplays : Plays react w.session w.groups.length (w.groupOf chain) chain failure frame t)
    (hu : Unheard w t.deeds t.calls u) (hgear : u.gear = w.gear.setFrames chain (t.frames ++ rest))
    (hway : t.way = .on result) (hbegun : t.begun = []) (hopened : t.opened = []) :
    TakesStride react w chain failure frame rest ((u.publish? react t.event).goOn chain result) := by
  refine ⟨t, u, hplays, strides_on hu ?_ hway hbegun⟩
  rw [hgear, hopened, List.append_nil]
  simp [Gear.setFrames, Stage.gear, hactive]

/-- A jump: it is recorded where the label exists, and logged otherwise. -/
theorem takes_jumpTo (hactive : w.active = none) {c : Command} {label : String} (hgoal : c.goal? = some label)
    (hshown : c.isShown = false) :
    TakesStride react w chain none (.command c) rest
      (((w.setFrames chain rest).jumpTo react (w.groupOf chain) c label).goOn chain none) := by
  have hset := unheard_setFrames (Unheard.refl w) chain rest
  simp only [jumpTo]
  split
  · refine TakesStride.plain hactive (t := {}) (.idles (.inr hshown) rfl) (hset.trans (.log _ _ _)) rfl rfl rfl rfl
  · rename_i position hfind
    have hjump : Plays react w.session w.groups.length (w.groupOf chain) chain none (.command c)
        { deeds := [.jump (w.groupOf chain) c label position],
          event := some ⟨.labelJumped, .jump label position⟩ } := .jumps hgoal
    refine TakesStride.plain hactive hjump ?_ rfl rfl rfl rfl
    exact (hset.trans (.log _ _ _)).trans (.record _ (by simp))

/-- A command that runs (`runCommand`): it shows something and settles, offers a choice, waits, jumps,
    or does nothing. -/
theorem takes_runCommand (hactive : w.active = none) (c : Command) :
    TakesStride react w chain none (.command c) rest (w.runCommand react chain rest c) := by
  have hset := unheard_setFrames (Unheard.refl w) chain rest
  have hgroup : (w.setFrames chain rest).groupOf chain = w.groupOf chain := groupOf_setFrames w chain chain rest
  -- the frames of the chain are set twice on the way, and only the last ones count
  have htwice : ∀ (u : Stage) (frames : List Frame), u.gear = (w.setFrames chain rest).gear →
      (u.setFrames chain frames).gear = w.gear.setFrames chain frames := by
    intro u frames hu
    rw [gear_setFrames, hu, gear_setFrames, Gear.setFrames_setFrames]
  have hidle : ∀ u, Unheard w [] [] u → u.gear = w.gear.setFrames chain rest →
      (w.session.attached = false ∨ c.isShown = false) →
      TakesStride react w chain none (.command c) rest (u.goOn chain none) := by
    intro u hu hgear hc
    exact TakesStride.plain hactive (t := {}) (.idles hc rfl) hu hgear rfl rfl rfl
  have hsession : (w.setFrames chain rest).session = w.session := rfl
  simp only [runCommand, hgroup, hsession]
  split
  · rename_i hattached
    exact hidle _ hset rfl (.inl (by simpa using hattached))
  rename_i hattached
  have hattached : w.session.attached = true := by simpa using hattached
  have hshows : ∀ cue : Cue, c.isShown = true → c.kind ≠ .choice → cue.isCall = true →
      TakesStride react w chain none (.command c) rest
        ((w.setFrames chain rest).showAndSettle react chain rest c cue) := by
    intro cue hshown hkind hcue
    simp only [showAndSettle, reaction]
    refine TakesStride.plain hactive (t := { frames := [.acts _, .settle], calls := [.shown c] })
      (.shows hshown hkind hattached hcue) ?_ (htwice _ _ rfl) rfl rfl rfl
    exact (hset.trans (.see _ (m := .shown c _) fun _ _ => rfl)).congr rfl rfl rfl rfl rfl
  split
  · rename_i text hbody
    exact hshows _ (by simp [Command.isShown, hbody]) (by simp [Command.kind, hbody, Body.kind]) rfl
  · rename_i name hbody
    exact hshows _ (by simp [Command.isShown, hbody]) (by simp [Command.kind, hbody, Body.kind]) rfl
  · rename_i seconds hbody
    obtain ⟨way, u, hfree, hstrides⟩ := strides_sleep react chain rest hactive [] seconds
    exact ⟨_, u, .idles (.inr (by simp [Command.isShown, hbody])) hfree, hstrides⟩
  · rename_i var choices hbody
    refine TakesStride.plain hactive
      (t := { frames := [.acts _, .announce c], deeds := [.offer (w.groupOf chain) c ⟨c.line, var, choices⟩]
              calls := [.shown c] })
      (.offers (by simp [Command.isShown, hbody]) hattached (by rfl)) ?_ (htwice _ _ rfl) rfl rfl rfl
    have hoffer : Unheard (w.setFrames chain rest) [.offer (w.groupOf chain) c ⟨c.line, var, choices⟩] [] _ :=
      .record _ (by simp)
    exact ((hset.trans hoffer).trans (.see _ (m := .shown c _) fun _ _ => rfl)).congr rfl rfl rfl rfl rfl
  · rename_i test hbody
    have hshown : c.isShown = false := by simp [Command.isShown, hbody]
    split
    · exact hidle _ (hset.trans (.log _ _ _)) rfl (.inr hshown)
    · split
      · exact takes_jumpTo hactive (by simp [Command.goal?, hbody]) hshown
      · exact hidle _ hset rfl (.inr hshown)
  · rename_i label hbody
    exact takes_jumpTo hactive (by simp [Command.goal?, hbody]) (by simp [Command.isShown, hbody])
  · rename_i name hbody
    exact hidle _ hset rfl (.inr (by simp [Command.isShown, hbody]))
  · rename_i hbody
    exact hidle _ (hset.trans (.log _ _ _)) rfl (.inr (by simp [Command.isShown, hbody]))

/-- Collecting is nothing but the deed, and a log line where a label is passed. -/
theorem unheard_collect (w : Stage) (number : Option Nat) :
    Unheard w [.collect number w.session.nextBeat] [] (w.collect number).1 :=
  (Unheard.record w (d := .collect number w.session.nextBeat) (by simp)).trans (.logAll _ _)

/-- The round of an advance: it opens a group, and then it starts a beat or ends the scene, as `Round` says. -/
theorem strides_nextRound (react : Reactions) (chain : Nat) (rest : List Frame) (hactive : w.active = none)
    (context : Context) :
    ∃ t u, Round w.session.nextBeat w.session.script w.groups.length chain context t ∧
      Strides react w chain rest t u (w.nextRound react chain rest context) := by
  have hopen : Unheard w [] [] (w.openGroup chain) := (Unheard.refl w).congr rfl rfl rfl rfl rfl
  -- opening the group and collecting the beat, which both cases have in common
  have hcollect : ∀ number v beat, (w.openGroup chain).collect number = (v, beat) →
      beat = w.session.nextBeat ∧ Unheard w [.collect number beat] [] v ∧ v.gear = (w.openGroup chain).gear := by
    intro number v beat h
    obtain ⟨rfl, -, -, hgear⟩ := collect_eq_mk h
    have hunheard := unheard_collect (w.openGroup chain) number
    rw [h] at hunheard
    exact ⟨rfl, hopen.trans hunheard, hgear⟩
  simp only [nextRound]
  split
  · rename_i v heq
    obtain ⟨hbeat, hv, hgear⟩ := hcollect _ _ _ heq
    have hlast : w.session.nextBeat = [] := hbeat.symm
    have hreset : Unheard w [.pass context .reset, .collect (some w.groups.length) []] [] (v.reset context) :=
      hv.trans (.pass v context .reset)
    have hfinish := hreset.trans (.record _ (d := .finish) (by simp))
    have hscript : ((v.reset context).record .finish).session.script = w.session.script := by
      rw [hfinish.session_eq]
      cases context <;> rfl
    have hevent : ((((v.reset context).record .finish).log .debug
        s!"Chat '{((v.reset context).record .finish).session.script.id}' finished.").setFrames chain
        (.reportEnd :: .leave context :: rest)).session.script = w.session.script := hscript
    rw [hevent]
    refine ⟨_, _, .ends hlast, strides_on ?_ ?_ rfl rfl⟩
    · exact unheard_setFrames (hfinish.trans (.log _ _ _)) chain _
    · have hsame : ((v.reset context).record .finish).gear = (w.openGroup chain).gear :=
        (gear_pass v context .reset).trans hgear
      rw [gear_setFrames]
      refine (congrArg (Gear.setFrames · chain (.reportEnd :: .leave context :: rest)) hsame).trans ?_
      simp [Stage.gear, openGroup, Gear.setFrames, hactive, hlast]
  · rename_i v beat hne heq
    obtain ⟨rfl, hv, hgear⟩ := hcollect _ _ _ heq
    refine ⟨_, _, .collects (fun hnil => hne hnil), strides_on ?_ ?_ rfl rfl⟩
    · exact unheard_setFrames hv chain _
    · rw [gear_setFrames, hgear]
      simp [Stage.gear, openGroup, Gear.setFrames, hactive]

/-- An advance that is turned away, and one that enters its `context` and goes on to its first round. -/
theorem takes_beginAdvance (hactive : w.active = none) (context : Context) :
    TakesStride react w chain none (.advance context) rest (w.beginAdvance react chain rest context) := by
  have htouch := Unheard.touch w context
  have hset := unheard_setFrames htouch chain rest
  have hgear : ((w.touch context).setFrames chain rest).gear = w.gear.setFrames chain rest := by
    rw [gear_setFrames, (Aside.touch w context).gear_eq]
  have hignored : ∀ level message, TakesStride react w chain none (.advance context) rest
      ((((w.touch context).setFrames chain rest).log level message).goOn chain none) := by
    intro level message
    exact TakesStride.plain hactive (t := {}) (.idles trivial rfl) (hset.trans (.log _ _ _)) hgear rfl rfl rfl
  simp only [beginAdvance]
  split
  · exact hignored _ _
  split
  · exact hignored _ _
  rename_i hfinished
  split
  · exact hignored _ _
  -- the advance enters its context and goes on as after a beat
  have hfinished : w.session.finished = false := by
    have hsame : w.session = ((w.touch context).setFrames chain rest).session := htouch.session_eq.symm
    rw [hsame]
    simpa using hfinished
  generalize hv : ((w.touch context).setFrames chain rest).enter context = v
  have henter : Unheard w [.pass context .enter] [] v := hv ▸ hset.trans (.pass _ context .enter)
  have hvgear : v.gear = w.gear.setFrames chain rest := by
    rw [← hv, ← hgear]
    exact gear_pass _ context .enter
  have hvactive : v.active = none := (congrArg Gear.active hvgear).trans hactive
  have hvgroups : v.groups = w.groups := congrArg Gear.groups hvgear
  obtain ⟨t, u, hround, hu, hugear, hresult⟩ :=
    strides_nextRound react chain rest hvactive context
  have hsession : v.session = w.session.after (.pass context .enter) := henter.session_eq
  have hbeat : v.session.nextBeat = w.session.nextBeat := by rw [hsession]; cases context <;> rfl
  have hscript : v.session.script = w.session.script := by rw [hsession]; cases context <;> rfl
  rw [hbeat, hscript, hvgroups] at hround
  rw [hvgear, Gear.after_setFrames] at hugear hresult
  exact ⟨_, u, .enters hfinished hround, henter.trans hu, hugear, hresult⟩

/-- The commands of a beat start, each in a chain of its own, and the advance waits for their group. -/
theorem takes_startBeat (hactive : w.active = none) (context : Context) (n : Nat) (beat : List Command) :
    TakesStride react w chain none (.start context n beat) rest (w.startBeat chain rest context n beat) := by
  have hset := unheard_setFrames (Unheard.refl w) chain (.beat context (endsOnChoice beat) :: rest)
  have hlength : (w.setFrames chain (.beat context (endsOnChoice beat) :: rest)).chains.length = w.chains.length :=
    List.length_modify ..
  generalize hstarted : w.startBeat chain rest context n beat = u
  simp only [startBeat, spawnAll_eq, hlength] at hstarted
  have hstill : u.active = none := by rw [← hstarted]; exact hactive
  refine ⟨_, u, .starts, ?_, ?_, ?_⟩
  · rw [← hstarted]
    exact hset.congr rfl rfl rfl rfl rfl
  · rw [← hstarted]
    simp [Gear.after, Stage.gear, Gear.setFrames, Stage.setFrames, hactive]
  · simp only [publish?, Gear.after, Option.elim_none]
    rw [← hstill]

/-- A beat is over: the advance leaves its context if a choice waits, and goes on to its next round otherwise. -/
theorem takes_beatOver (hactive : w.active = none) (context : Context) (onChoice : Bool) :
    TakesStride react w chain none (.beat context onChoice) rest (w.beatOver react chain rest context onChoice) := by
  have hset := unheard_setFrames (Unheard.refl w) chain rest
  unfold beatOver
  split
  · exact TakesStride.plain hactive (t := { deeds := [.pass context .leave] }) .stops
      (hset.trans (.pass _ context .leave)) (gear_pass _ context .leave) rfl rfl rfl
  · rename_i hgo
    simp only [Bool.or_eq_true, not_or, Bool.not_eq_true] at hgo
    obtain ⟨t, u, hround, hstrides⟩ := strides_nextRound react chain rest hactive context
    exact ⟨t, u, .continues hgo.1.1 hround, hstrides⟩

/-- A failure goes through a frame.  Frames that hold a context (`Frame.context?`) leave it. -/
theorem takes_unwind (react : Reactions) (chain : Nat) (rest : List Frame) (hactive : w.active = none) (frame : Frame)
    (failure : Failure) :
    TakesStride react w chain (some failure) frame rest (w.unwind chain frame rest failure) := by
  have hset := unheard_setFrames (Unheard.refl w) chain rest
  -- frames that hold a context leave it, the others are just given up
  have hleave : ∀ context, frame.context? = some context →
      TakesStride react w chain (some failure) frame rest
        (((w.setFrames chain rest).leave context).goOn chain (some failure)) := by
    intro context hcontext
    exact TakesStride.plain hactive (t := { deeds := [.pass context .leave], way := .on (some failure) })
      (.gives hcontext) (hset.trans (.pass _ context .leave)) (gear_pass _ context .leave) rfl rfl rfl
  have hfail : frame.context? = none → TakesStride react w chain (some failure) frame rest
      ((w.setFrames chain rest).goOn chain (some failure)) := by
    intro hcontext
    exact TakesStride.plain hactive (t := { way := .on (some failure) }) (.fails hcontext) hset rfl rfl rfl rfl
  cases frame with
  | start context _ _ => exact hleave context rfl
  | beat context _ => exact hleave context rfl
  | leave context => exact hleave context rfl
  | command | acts | settle | announce | advance | reportEnd | sleep => exact hfail rfl

/-- Every frame but an immediate act (`isImmediate`) is a stride.  Immediate acts are no strides: they are done on the
    side. -/
theorem takes_runFrame (react : Reactions) (chain : Nat) (rest : List Frame) (hactive : w.active = none) {frame : Frame}
    (hframe : ∀ act acts, frame = .acts (act :: acts) → act.isImmediate = false) :
    TakesStride react w chain none frame rest (w.runFrame react chain frame rest) := by
  have hset := unheard_setFrames (Unheard.refl w) chain rest
  -- two things that several frames do: nothing at all, and waiting for a time
  have hidle : ∀ f : Frame, f.IsIdle w.session →
      TakesStride react w chain none f rest ((w.setFrames chain rest).goOn chain none) := by
    intro f hf
    exact TakesStride.plain hactive (t := {}) (.idles hf rfl) hset rfl rfl rfl rfl
  have hsleeps : ∀ (f : Frame) (seconds : Float), f.IsIdle w.session →
      TakesStride react w chain none f rest ((w.setFrames chain rest).sleep chain seconds) := by
    intro f seconds hf
    obtain ⟨way, u, hfree, hstrides⟩ := strides_sleep react chain rest hactive [] seconds
    exact ⟨_, u, .idles hf hfree, hstrides⟩
  cases frame with
  | command c => exact takes_runCommand hactive c
  | acts acts =>
    cases acts with
    | nil => exact hidle _ rfl
    | cons act acts =>
      have himmediate := hframe act acts rfl
      cases act with
      | sleep seconds =>
        obtain ⟨way, u, hfree, hstrides⟩ :=
          strides_sleep react chain rest hactive [.acts acts] seconds
        exact ⟨_, u, .dwells hfree, hstrides⟩
      | advance context =>
        exact TakesStride.plain hactive (t := { frames := [.advance context, .acts acts] }) .nests
          (unheard_setFrames (Unheard.refl w) chain _) rfl rfl rfl rfl
      | setVariable | setup | loadCompiled | nextBeat | view | note | fail | attach | assign | subscribe
      | unsubscribe | clear | publish => cases himmediate
  | settle => exact hsleeps _ _ trivial
  | announce c =>
    exact TakesStride.plain hactive (t := { event := some ⟨.choiceShown, .choice c⟩ }) .announces hset rfl rfl rfl rfl
  | advance context => exact takes_beginAdvance hactive context
  | start context n beat => exact takes_startBeat hactive context n beat
  | beat context onChoice => exact takes_beatOver hactive context onChoice
  | reportEnd =>
    simp only [runFrame, reaction]
    split
    · refine TakesStride.plain hactive (t := { frames := [.acts _], calls := [.ended] }) .reports ?_ rfl rfl rfl rfl
      exact ((Unheard.refl w).trans (.see _ (m := .ended _) fun _ _ => rfl)).congr rfl rfl rfl rfl rfl
    · rename_i hattached
      exact TakesStride.plain hactive (t := { way := .on (some .noListener) }) (.deserted (by simpa using hattached))
        hset rfl rfl rfl rfl
  | leave context =>
    exact TakesStride.plain hactive (t := { deeds := [.pass context .leave] }) .leaves
      (hset.trans (.pass _ context .leave)) (gear_pass _ context .leave) rfl rfl rfl
  | sleep seconds => exact hsleeps _ _ trivial

end Stage

end ChatScene
