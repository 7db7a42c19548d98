/-
  All that can happen to a stage, in a few cases.

  Either something is done on the side, or the running chain takes a stride or carries out an act, or somebody begins a
  new chain, or the chains only take turns: entries go from one list to another, and nothing is done to the session.

  1. **Steps** — `Stage.Stepped` lists what one step can do, and `Stage.step_cases` says that there is nothing else.

  2. **Moves** — a `Stage.Move` names who does what next, the stage itself or somebody outside, and `Stage.Makes` says
     what comes of it; without the name it is `Stage.Next`.  With the name, runs can be restricted:
     `Stage.ReachesBy kind` are the runs in which all moves are of a kind, for example those in which nobody cancels.

  3. **Changes** — `Stage.Change` is what a move can change, in five cases, and `Stage.Makes.change` is the one proof
     that goes through everything.  Invariants of all reachable stages are proved by these cases.

  4. **Frames of a kind** — if the strides bring only frames of a kind (`Stage.Lasting`), all frames stay of this kind
     (`Stage.Change.every`).

  5. **Tallies** — a weight for every kind of frame, added up over all chains (`Gear.tally`).  A stride takes the weight
     of its frame and puts those of the new ones, and turns change nothing (`Stage.Change.weighs`).
-/
import ChatScene.Proofs.Strides

namespace ChatScene

open Relation (ReflTransGen)

/-! ## Steps -/

namespace Stage

/-- `w.framesOf chain` — the frames of a chain, if there is such a chain. -/
def framesOf (w : Stage) (chain : Nat) : Option (List Frame) := (w.chains[chain]?).map (·.frames)

/-- What one step can do. -/
inductive Stepped (react : Reactions) (w : Stage) : Stage → Prop where
  | delivers {b : Bus Notice} {event : SessionEvent} {queue : List SessionEvent} :
      w.bus = some b → b.queue = event :: queue →
      Stepped react w ({ w with bus := some { b with queue } }.deliver react event)
  | strides {w' u : Stage} {chain : Nat} {failure : Option Failure} {frame : Frame} {rest : List Frame} {t : Stride} :
      w.active = some (chain, failure) → w.framesOf chain = some (frame :: rest) →
      Plays react w.session w.groups.length (w.groupOf chain) chain failure frame t →
      Strides react w chain rest t u w' →
      Stepped react w w'
  | acts {w' : Stage} {chain : Nat} {act : Act} {acts : List Act} {rest : List Frame} {failure : Option Failure} :
      w.active = some (chain, none) → w.framesOf chain = some (.acts (act :: acts) :: rest) →
      ({ w with active := none }.setFrames chain (.acts acts :: rest)).carryOut react act = (w', failure) →
      Stepped react w (w'.goOn chain failure)
  | ends {chain : Nat} {failure : Option Failure} :
      w.active = some (chain, failure) → w.framesOf chain = some [] →
      Stepped react w ({ w with active := none }.finish chain failure)
  | strays {chain : Nat} {failure : Option Failure} :
      w.active = some (chain, failure) → w.framesOf chain = none → Stepped react w { w with active := none }
  | resumes {chain : Nat} {failure : Option Failure} {ready : List Wake} :
      w.active = none → w.ready = .resume chain failure :: ready →
      Stepped react w { w with ready, active := some (chain, failure) }
  | counts {number : Nat} {failure : Option Failure} {ready : List Wake} :
      w.active = none → w.ready = .over number failure :: ready →
      Stepped react w ({ w with ready }.memberOver number failure)
  | fires {fired kept : List Timer} :
      w.active = none → w.timers = fired ++ kept →
      Stepped react w { w with timers := kept, ready := w.ready ++ fired.map fun t => .resume t.chain none }

variable {react : Reactions} {w w' : Stage}

/-- A stride does not depend on whether the chain is still said to be running. -/
theorem Strides.of_still {u : Stage} {chain : Nat} {rest : List Frame} {t : Stride}
    (h : Strides react { w with active := none } chain rest t u w') : Strides react w chain rest t u w' :=
  ⟨⟨⟨h.unheard.journal_eq, h.unheard.session_eq, h.unheard.named_eq, h.unheard.calls_eq⟩, h.unheard.bus_eq,
    h.unheard.hearings_eq⟩, h.gear_eq, h.result_eq⟩

/-- The running chain (`runChain`): it has nothing left, or strays, or a failure goes through it, or it has a frame to
    run. -/
theorem stepped_runChain {chain : Nat} {failure : Option Failure} (hactive : w.active = some (chain, failure)) :
    Stepped react w (w.runChain react chain failure) := by
  simp only [runChain]
  split
  · rename_i hframes
    exact .strays hactive hframes
  · rename_i hframes
    exact .ends hactive hframes
  · rename_i frame rest hframes
    split
    · rename_i f
      obtain ⟨t, u, hplays, hstrides⟩ := takes_unwind react chain rest (w := { w with active := none }) rfl frame f
      exact .strides hactive hframes hplays hstrides.of_still
    · have hstrides : (∀ act acts, frame = .acts (act :: acts) → act.isImmediate = false) →
          Stepped react w ({ w with active := none }.runFrame react chain frame rest) := by
        intro hframe
        obtain ⟨t, u, hplays, hstrides⟩ := takes_runFrame react chain rest (w := { w with active := none }) rfl hframe
        exact .strides hactive hframes hplays hstrides.of_still
      -- only an immediate act is no stride
      cases frame with
      | acts acts =>
        cases acts with
        | nil => exact hstrides (by simp)
        | cons act acts =>
          cases act with
          | sleep | advance => exact hstrides (by simp [Act.isImmediate])
          | setVariable | setup | loadCompiled | nextBeat | view | note | fail | attach | assign | subscribe
          | unsubscribe | clear | publish => exact .acts hactive hframes rfl
      | command | settle | announce | advance | start | beat | reportEnd | leave | sleep => exact hstrides (by simp)

/-- The cases of `Stage.step`, in the order in which it tries them. -/
theorem step_cases (h : w.step react = some w') : Stepped react w w' := by
  simp only [step] at h
  split at h
  · -- an event is queued: its delivery comes before everything else
    rename_i event v hnext
    cases h
    simp only [nextEvent?] at hnext
    split at hnext
    · rename_i b hbus
      split at hnext
      · rename_i event' queue hqueue
        cases hnext
        exact .delivers hbus hqueue
      · cases hnext
    · cases hnext
  · split at h
    · -- a chain is running
      rename_i chain failure hactive
      cases h
      exact stepped_runChain hactive
    · rename_i hactive
      split at h
      · rename_i v htake
        cases h
        simp only [takeReady] at htake
        split at htake
        · cases htake
        · rename_i chain failure ready hready
          cases htake
          exact .resumes hactive hready
        · rename_i number failure ready hready
          cases htake
          exact .counts hactive hready
      · split at h
        · cases h
        · obtain ⟨fired, kept, htimers, heq⟩ := w.fireTimers_eq w.now
          cases h
          rw [heq]
          exact .fires hactive htimers

/-! ## Moves -/

/-- Who does what next: the stage itself, or somebody outside. -/
inductive Move where
  | step
  | tick
  | interrupt (failure : Option Failure)
  | strike
  | act (act : Act)
  | load
  | setup
  | refuse
  | touch
  | spawn (frames : List Frame)

/-- Nobody outside runs a command. -/
def Move.RunsNoCommand : Move → Prop
  | .spawn frames => ∀ c, Frame.command c ∉ frames
  | _ => True

/-- Nobody outside makes a chain fail; one that waits may be woken early. -/
def Move.CancelsNone : Move → Prop
  | .interrupt failure => failure = none
  | .strike => False
  | _ => True

/-- What can happen to a stage next, by the move. -/
inductive Makes (react : Reactions) (w : Stage) : Move → Stage → Prop where
  | step {w' : Stage} : w.step react = some w' → Makes react w .step w'
  | tick {w' : Stage} : w.tick = some w' → Makes react w .tick w'
  | interrupt (hit : Timer → Bool) (failure : Option Failure) :
      Makes react w (.interrupt failure)
        { w with timers := w.timers.filter (!hit ·)
                 ready := w.ready ++ (w.timers.filter hit).map fun t => .resume t.chain failure }
  | strike {before after : List Wake} {chain : Nat} (failure : Failure) :
      w.ready = before ++ .resume chain none :: after →
      Makes react w .strike { w with ready := before ++ .resume chain (some failure) :: after }
  | act (act : Act) : Makes react w (.act act) (w.carryOut react act).1
  | load {script : Script} : script.Read → Makes react w .load ((w.load script).1.publish react (w.load script).2)
  | setup {text source : String} {w' : Stage} {event : SessionEvent} :
      w.setup text source = (w', .ok event) → Makes react w .setup (w'.publish react event)
  | refuse {text source : String} {w' : Stage} {e : ScriptError} :
      w.setup text source = (w', .error e) → Makes react w .refuse w'
  | touch (context : Context) : Makes react w .touch (w.touch context)
  | spawn {frames : List Frame} : (∀ f ∈ frames, f.FromOutside) → Makes react w (.spawn frames) (w.spawn frames none)

theorem Makes.next {m : Move} (h : Makes react w m w') : Next react w w' := by
  cases h with
  | step h => exact .step h
  | tick h => exact .tick h
  | interrupt hit failure => exact .interrupt hit failure
  | strike failure h => exact .strike failure h
  | act act => exact .act act
  | load h => exact .load h
  | setup h => exact .setup h
  | refuse h => exact .refuse h
  | touch context => exact .touch context
  | spawn h => exact .spawn h

/-- Whatever can happen next (`Next`) is a move, so that facts about moves are facts about all that can happen. -/
theorem Next.makes (h : Next react w w') : ∃ m, Makes react w m w' := by
  cases h with
  | step h => exact ⟨_, .step h⟩
  | tick h => exact ⟨_, .tick h⟩
  | interrupt hit failure => exact ⟨_, .interrupt hit failure⟩
  | strike failure h => exact ⟨_, .strike failure h⟩
  | act act => exact ⟨_, .act act⟩
  | load h => exact ⟨_, .load h⟩
  | setup h => exact ⟨_, .setup h⟩
  | refuse h => exact ⟨_, .refuse h⟩
  | touch context => exact ⟨_, .touch context⟩
  | spawn h => exact ⟨_, .spawn h⟩

/-- A stage that can be reached by moves of a kind. -/
abbrev ReachesBy (kind : Move → Prop) (react : Reactions) : Stage → Stage → Prop :=
  ReflTransGen fun w w' => ∃ m, kind m ∧ Makes react w m w'

/-- A run with moves of a kind is a run. -/
theorem ReachesBy.reaches {kind : Move → Prop} (h : ReachesBy kind react w w') : Reaches react w w' :=
  ReflTransGen.mono (fun _ _ ⟨_, _, hmakes⟩ => hmakes.next) _ _ h

section Runs

variable {kind : Move → Prop}

theorem ReachesBy.steps (hstep : kind .step) {n : Nat} (h : steps react n w = some w') : ReachesBy kind react w w' := by
  induction n generalizing w with
  | zero =>
    cases h
    exact .refl
  | succ n ih =>
    obtain ⟨v, hv, hrest⟩ := Option.bind_eq_some_iff.mp h
    exact .head ⟨_, hstep, .step hv⟩ (ih hrest)

/-- Waiting makes no moves but steps and time passing. -/
theorem ReachesBy.await (hstep : kind .step) (htick : kind .tick) {fuel chain : Nat} {failure : Option Failure}
    (h : w.await react chain fuel = some (w', failure)) : ReachesBy kind react w w' := by
  induction fuel generalizing w with
  | zero => cases h
  | succ fuel ih =>
    simp only [Stage.await] at h
    split at h
    · rename_i v hv
      exact .head ⟨_, hstep, .step hv⟩ (ih h)
    · split at h
      · cases h
        exact .refl
      · split at h
        · rename_i v hv
          exact .head ⟨_, htick, .tick hv⟩ (ih h)
        · cases h

/-- An advance of the host spawns one chain, and then makes no other moves than waiting does. -/
theorem ReachesBy.advance (hstep : kind .step) (htick : kind .tick) {context : Context}
    (hspawn : kind (.spawn [.advance context])) {fuel : Nat} {failure : Option Failure}
    (h : w.advance react fuel context = some (w', failure)) : ReachesBy kind react w w' :=
  .head ⟨_, hspawn, .spawn (by simp [Frame.FromOutside])⟩ (ReachesBy.await hstep htick h)

end Runs

end Stage

/-! ## Turns -/

/-- `g.tells failure` — the owner of a group is told, when a chain of the group is over with this failure or none. -/
def Group.tells (g : Group) (failure : Option Failure) : Bool := !g.settled && (failure.isSome || g.left - 1 = 0)

/-- `g.count failure` — a group of which one more chain is over. -/
def Group.count (g : Group) (failure : Option Failure) : Group :=
  { g with left := g.left - 1, settled := g.settled || g.tells failure }

/-- The chains take turns in a move: entries go from one list to another.  Only those outside make chains fail. -/
inductive Gear.Turns (m : Stage.Move) (G : Gear) : Gear → Prop where
  | ends {chain : Nat} {failure : Option Failure} {c : Chain} :
      G.active = some (chain, failure) → G.chains[chain]? = some c → c.frames = [] →
      Turns m G { G with chains := G.chains.modify chain fun c => { c with outcome := some failure }
                         ready := G.ready ++ c.group.toList.map (.over · failure), active := none }
  | strays {chain : Nat} {failure : Option Failure} :
      G.active = some (chain, failure) → G.chains[chain]? = none → Turns m G { G with active := none }
  | resumes {chain : Nat} {failure : Option Failure} {ready : List Wake} :
      G.active = none → G.ready = .resume chain failure :: ready →
      Turns m G { G with ready, active := some (chain, failure) }
  | counts {number : Nat} {failure : Option Failure} {ready : List Wake} {g : Group} :
      G.active = none → G.ready = .over number failure :: ready → G.groups[number]? = some g →
      Turns m G { G with groups := G.groups.set number (g.count failure)
                         ready := ready ++ if g.tells failure then [.resume g.owner failure] else [] }
  | misses {number : Nat} {failure : Option Failure} {ready : List Wake} :
      G.active = none → G.ready = .over number failure :: ready → G.groups[number]? = none → Turns m G { G with ready }
  | wakes {woken kept : List Timer} {failure : Option Failure} :
      failure = none ∨ m = .interrupt failure → G.timers.Perm (woken ++ kept) →
      Turns m G { G with timers := kept, ready := G.ready ++ woken.map fun t => .resume t.chain failure }
  | strikes {before after : List Wake} {chain : Nat} (failure : Failure) :
      m = .strike → G.ready = before ++ .resume chain none :: after →
      Turns m G { G with ready := before ++ .resume chain (some failure) :: after }

namespace Stage

variable {react : Reactions} {w w' : Stage}

/-- What a move can change. -/
inductive Change (react : Reactions) (w : Stage) : Move → Stage → Prop where
  | aside {m : Move} {w' : Stage} : Aside w w' → Change react w m w'
  | strides {w' : Stage} {chain : Nat} {failure : Option Failure} {frame : Frame} {rest : List Frame} {t : Stride}
      {asides : List Deed} :
      w.active = some (chain, failure) → w.framesOf chain = some (frame :: rest) →
      Plays react w.session w.groups.length (w.groupOf chain) chain failure frame t →
      w'.gear = w.gear.after chain rest t → (∀ d ∈ asides, d.isAside = true) →
      Records w (asides ++ t.deeds) t.calls w' → Change react w .step w'
  | acts {w' : Stage} {chain : Nat} {act : Act} {acts : List Act} {rest : List Frame} {failure : Option Failure}
      {asides : List Deed} :
      w.active = some (chain, none) → w.framesOf chain = some (.acts (act :: acts) :: rest) →
      (∃ v : Stage, (v.perform act).failure = failure) →
      w'.gear = { w.gear.setFrames chain (.acts acts :: rest) with active := some (chain, failure) } →
      (∀ d ∈ asides, d.isAside = true) → Records w asides [] w' → Change react w .step w'
  | turns {m : Move} {w' : Stage} : w.gear.Turns m w'.gear → Records w [] [] w' → Change react w m w'
  | spawns {w' : Stage} {frames : List Frame} :
      (∀ f ∈ frames, f.FromOutside) →
      w'.gear = { w.gear with chains := w.gear.chains ++ [{ frames }]
                              ready := w.gear.ready ++ [.resume w.gear.chains.length none] } →
      Records w [] [] w' → Change react w (.spawn frames) w'

/-- The session, the `journal`, the contexts and the sights of a stage are those of another one. -/
theorem records_same (hsession : w'.session = w.session) (hjournal : w'.journal = w.journal)
    (hcontexts : w'.contexts = w.contexts) (hseen : w'.seen = w.seen) :
    Records w [] [] w' where
  journal_eq := hjournal
  session_eq := hsession
  named_eq name := by
    simp only [depth, hcontexts]
    rfl
  calls_eq := by simp only [calls, hseen, List.append_nil]

/-- A chain that has frames is one of the chains. -/
theorem framesOf_eq_some {chain : Nat} {frames : List Frame} (h : w.framesOf chain = some frames) :
    ∃ c, w.chains[chain]? = some c ∧ c.frames = frames := Option.map_eq_some_iff.mp h

/-- A chain that is over leaves an entry for its group, if it has one, and that is all that happens to the chains. -/
theorem turns_finish (m : Move) {chain : Nat} {failure : Option Failure} (hactive : w.active = some (chain, failure))
    (hframes : w.framesOf chain = some []) :
    w.gear.Turns m ({ w with active := none }.finish chain failure).gear := by
  obtain ⟨c, hc, hnil⟩ := framesOf_eq_some hframes
  have hgroup : ({ w with active := none,
                          chains := w.chains.modify chain fun c => { c with outcome := some failure } } : Stage).groupOf
      chain = c.group := by
    simp [groupOf, hc]
  have hends : w.gear.Turns m _ := .ends hactive hc hnil
  simp only [finish, hgroup]
  cases hcg : c.group with
  | none =>
    rw [hcg, Option.toList_none, List.map_nil, List.append_nil] at hends
    exact hends
  | some group =>
    rw [hcg] at hends
    exact hends

/-- The end of a chain is counted in its group (`Group.count`), and the owner is told if it has
    to be (`Group.tells`). -/
theorem turns_memberOver (m : Move) {number : Nat} {failure : Option Failure} {ready : List Wake}
    (hactive : w.active = none) (hready : w.ready = .over number failure :: ready) :
    w.gear.Turns m ({ w with ready }.memberOver number failure).gear := by
  simp only [memberOver]
  split
  · rename_i hnone
    exact .misses hactive hready hnone
  · rename_i g hg
    have hcounts : w.gear.Turns m _ := .counts hactive hready hg
    by_cases htell : g.tells failure = true
    · rw [if_pos htell] at hcounts
      have hif : (!g.settled && (failure.isSome || decide (g.left - 1 = 0))) = true := htell
      rw [if_pos hif]
      exact hcounts
    · rw [if_neg htell, List.append_nil] at hcounts
      have hif : ¬ (!g.settled && (failure.isSome || decide (g.left - 1 = 0))) = true := htell
      rw [if_neg hif]
      exact hcounts

theorem records_memberOver (w : Stage) (number : Nat) (failure : Option Failure) :
    Records w [] [] (w.memberOver number failure) := by
  simp only [memberOver]
  split
  · exact records_same rfl rfl rfl rfl
  · split <;> exact records_same rfl rfl rfl rfl

/-- A step is a change (`Change`): deliveries and acts are done on the side, strides and turns are what they are. -/
theorem Stepped.change (h : Stepped react w w') : Change react w .step w' := by
  cases h with
  | delivers hbus hqueue =>
    refine .aside (.trans (v := { w with bus := _ }) ?_ (.deliver react _ _))
    exact .of_same rfl rfl rfl rfl rfl
  | strides hactive hframes hplays hstrides =>
    obtain ⟨asides, hasides, hrecords⟩ := hstrides.records
    exact .strides hactive hframes hplays hstrides.gear_after hasides hrecords
  -- an act of a reaction is done on the side, and its chain goes on
  | @acts w' chain act acts rest failure hactive hframes hact =>
    have haside := Aside.carryOut react ({ w with active := none }.setFrames chain (.acts acts :: rest)) act
    rw [hact] at haside
    obtain ⟨asides, hasides, hrecords⟩ := haside.records
    have hgear : (w'.goOn chain failure).gear =
        { w.gear.setFrames chain (.acts acts :: rest) with active := some (chain, failure) } :=
      congrArg (fun G : Gear => { G with active := some (chain, failure) }) haside.gear_eq
    have hfailure : (({ w with active := none }.setFrames chain (.acts acts :: rest)).perform act).failure = failure :=
      congrArg Prod.snd hact
    exact .acts hactive hframes ⟨_, hfailure⟩ hgear hasides
      ⟨hrecords.journal_eq, hrecords.session_eq, hrecords.named_eq, hrecords.calls_eq⟩
  | ends hactive hframes =>
    refine .turns (turns_finish .step hactive hframes) ?_
    simp only [finish]
    split <;> exact records_same rfl rfl rfl rfl
  | strays hactive hframes =>
    exact .turns (.strays hactive (Option.map_eq_none_iff.mp hframes)) (records_same rfl rfl rfl rfl)
  | resumes hactive hready => exact .turns (.resumes hactive hready) (records_same rfl rfl rfl rfl)
  | @counts number failure ready hactive hready =>
    have hrecords := records_memberOver { w with ready } number failure
    exact .turns (turns_memberOver .step hactive hready)
      ⟨hrecords.journal_eq, hrecords.session_eq, hrecords.named_eq, hrecords.calls_eq⟩
  | fires hactive htimers =>
    exact .turns (.wakes (.inl rfl) (List.Perm.of_eq htimers)) (records_same rfl rfl rfl rfl)

/-- Time passing moves timers that are due to those who are ready. -/
theorem turns_tick (h : w.tick = some w') : w.gear.Turns .tick w'.gear ∧ Records w [] [] w' := by
  obtain ⟨t, timers, htimers, -, rfl⟩ := tick_eq_some h
  obtain ⟨fired, kept, hsplit, heq⟩ :=
    fireTimers_eq { w with now := t.due, timers, ready := w.ready ++ [.resume t.chain none] } t.due
  have hperm : w.timers.Perm ((t :: fired) ++ kept) := List.Perm.of_eq (htimers.trans (congrArg (t :: ·) hsplit))
  have hwakes : w.gear.Turns .tick _ := .wakes (.inl rfl) hperm
  rw [heq]
  refine ⟨?_, records_same rfl rfl rfl rfl⟩
  simpa [Stage.gear] using hwakes

/-- Whatever is done next is one of these changes.  From here on nothing looks into `Stage.step` again. -/
theorem Makes.change {m : Move} (h : Makes react w m w') : Change react w m w' := by
  cases h with
  | step hstep => exact (step_cases hstep).change
  | tick htick => exact .turns (turns_tick htick).1 (turns_tick htick).2
  -- an interrupt wakes those of the timers that it hits
  | interrupt hit failure =>
    refine .turns (.wakes (.inr rfl) ?_) (records_same rfl rfl rfl rfl)
    exact (List.filter_append_perm hit w.timers).symm
  | strike failure hready => exact .turns (.strikes failure rfl hready) (records_same rfl rfl rfl rfl)
  | act act => exact .aside (.carryOut react w act)
  | load hread => exact .aside ((Aside.load w _).trans (.publish react _ _))
  | @setup text source _ event hsetup =>
    have haside := Aside.setup w text source
    rw [hsetup] at haside
    exact .aside (haside.trans (.publish react _ _))
  -- a text that is refused is logged, and nothing is published
  | @refuse text source _ _ hsetup =>
    have haside := Aside.setup w text source
    rw [hsetup] at haside
    exact .aside haside
  | touch context => exact .aside (.touch w context)
  | spawn hframes => exact .spawns hframes rfl (records_same rfl rfl rfl rfl)

end Stage

namespace Stage

variable {react : Reactions} {w w' : Stage}

/-- Whatever happens, some deeds are done and the listener gets some calls. -/
theorem Change.records {m : Move} (h : Change react w m w') : ∃ deeds calls, Records w deeds calls w' := by
  cases h with
  | aside haside =>
    obtain ⟨asides, -, hrecords⟩ := haside.records
    exact ⟨asides, [], hrecords⟩
  | strides _ _ _ _ _ hrecords => exact ⟨_, _, hrecords⟩
  | acts _ _ _ _ _ hrecords => exact ⟨_, _, hrecords⟩
  | turns _ hrecords => exact ⟨[], [], hrecords⟩
  | spawns _ _ hrecords => exact ⟨[], [], hrecords⟩

/-- A stage on which nothing has happened yet, no context has been used and nothing has been seen. -/
structure New (w : Stage) : Prop extends Fresh w where
  contexts_eq : w.contexts = []
  seen_eq : w.seen = []

/-- On a new stage no `context` has been entered. -/
theorem New.depth_eq (h : w.New) (context : Context) : w.depth context = 0 := by
  cases context with
  | own =>
    have hsession := congrArg Session.depth h.session_eq
    exact hsession
  | named name => simp [depth, h.contexts_eq]

/-- Depths are those that the `journal` tells, at every moment. -/
theorem New.depth_reaches {w₀ : Stage} (h₀ : w₀.New) (h : Reaches react w₀ w) (context : Context) :
    w.depth context = depthAfter context 0 w.journal := by
  induction h with
  | refl =>
    rw [h₀.depth_eq, h₀.journal_eq]
    rfl
  | tail _ hnext ih =>
    obtain ⟨m, hmakes⟩ := hnext.makes
    obtain ⟨deeds, calls, hrecords⟩ := hmakes.change.records
    rw [hrecords.depth_eq, hrecords.journal_eq, depthAfter_append, ih]

end Stage

/-! ## Frames of a kind -/

section Every

variable {P : Frame → Prop} {G G' : Gear}

/-- `G.Every P` — all frames of all chains are of a kind. -/
def Gear.Every (P : Frame → Prop) (G : Gear) : Prop := ∀ c ∈ G.chains, ∀ f ∈ c.frames, P f

/-- One chain changed, with new frames of the kind. -/
theorem Gear.Every.modify (h : G.Every P) (chain : Nat) {edit : Chain → Chain}
    (hedit : ∀ c, G.chains[chain]? = some c → ∀ f ∈ (edit c).frames, P f) :
    { G with chains := G.chains.modify chain edit }.Every P := by
  intro c hc
  obtain ⟨i, hi⟩ := List.mem_iff_getElem?.mp hc
  rw [List.getElem?_modify] at hi
  obtain ⟨c', hc', rfl⟩ := Option.map_eq_some_iff.mp hi
  split
  · rename_i heq
    exact hedit c' (heq ▸ hc')
  · exact h c' (List.mem_of_getElem? hc')

theorem Gear.Turns.every {m : Stage.Move} (h : G.Turns m G') (hG : G.Every P) : G'.Every P := by
  cases h with
  | @ends chain failure c _ hc _ => exact hG.modify chain fun c hc => hG c (List.mem_of_getElem? hc)
  | strays | resumes | counts | misses | wakes | strikes => exact hG

/-- A frame whose acts, if it has any, are of a kind. -/
def Frame.ActsAre (kind : Act → Prop) : Frame → Prop
  | .acts reaction => ∀ act ∈ reaction, kind act
  | _ => True

namespace Stage

variable {react : Reactions} {w w' : Stage}

/-- `Lasting react P` — what the chain's frame is, its strides bring; what somebody outside may begin is of the kind. -/
structure Lasting (react : Reactions) (P : Frame → Prop) : Prop where
  plays : ∀ {s : Session} {group : Option Nat} {number chain : Nat} {failure : Option Failure} {frame : Frame}
    {t : Stride}, Plays react s number group chain failure frame t → P frame →
    (∀ f ∈ t.frames, P f) ∧ ∀ c ∈ t.begun, P (.command c)
  acts : ∀ act acts, P (.acts (act :: acts)) → P (.acts acts)
  outside : ∀ f : Frame, f.FromOutside → P f

/-- If strides bring only frames of a kind and those outside begin only such frames, all frames stay of this kind
    (`Gear.Every`). -/
theorem Change.every {m : Move} (h : Change react w m w') (hP : Lasting react P) (hw : w.gear.Every P) :
    w'.gear.Every P := by
  -- the frames of the chain that strides are all of the kind, and so are those that it puts on top
  have hframes : ∀ {chain : Nat} {frames : List Frame}, w.framesOf chain = some frames → ∀ f ∈ frames, P f := by
    intro chain frames hframes
    obtain ⟨c, hc, rfl⟩ := framesOf_eq_some hframes
    exact hw c (List.mem_of_getElem? hc)
  cases h with
  | aside haside => rw [haside.gear_eq]; exact hw
  | @strides _ chain _ frame rest t _ _ hchain hplays hgear _ _ =>
    have hall := hframes hchain
    obtain ⟨hnew, hbegun⟩ := hP.plays hplays (hall frame List.mem_cons_self)
    have hset : (w.gear.setFrames chain (t.frames ++ rest)).Every P := by
      refine hw.modify chain fun c _ f hf => ?_
      rcases List.mem_append.mp hf with hf | hf
      · exact hnew f hf
      · exact hall f (List.mem_cons_of_mem frame hf)
    rw [hgear]
    intro c hc
    rcases List.mem_append.mp hc with hc | hc
    · exact hset c hc
    · obtain ⟨command, hcommand, rfl⟩ := List.mem_map.mp hc
      simpa using hbegun command hcommand
  | @acts _ chain act acts rest failure _ _ hchain _ hgear _ _ =>
    have hall := hframes hchain
    rw [hgear]
    refine hw.modify chain fun c _ f hf => ?_
    rcases List.mem_cons.mp hf with rfl | hf
    · exact hP.acts act acts (hall _ List.mem_cons_self)
    · exact hall f (List.mem_cons_of_mem _ hf)
  | turns hturns _ => exact hturns.every hw
  | spawns houtside hgear _ =>
    rw [hgear]
    intro c hc
    rcases List.mem_append.mp hc with hc | hc
    · exact hw c hc
    · rw [List.mem_singleton.mp hc]
      exact fun f hf => hP.outside f (houtside f hf)

/-- If the listener reacts with acts of a kind only, then all acts that are left of its reactions are of this kind
    (`Frame.ActsAre`).  Handlers act at once and leave no frames. -/
theorem lasting_actsAre {kind : Act → Prop} (h : ∀ cue n, cue.isCall = true → ∀ act ∈ react cue n, kind act) :
    Lasting react (Frame.ActsAre kind) where
  plays hplays hframe := by
    cases hplays with
    | shows _ _ _ hcue => simpa [Frame.ActsAre] using h _ _ hcue
    -- a choice takes only the immediate acts of a reaction
    | @offers c cue n choice _ _ hcue =>
      have hacts : ∀ act ∈ (react cue n).filter Act.isImmediate, kind act :=
        fun act hact => h cue n hcue act (List.mem_of_mem_filter hact)
      simpa [Frame.ActsAre] using hacts
    | reports => simpa [Frame.ActsAre] using h _ _ rfl
    | dwells | nests =>
      have hrest := fun act hact => hframe act (List.mem_cons_of_mem _ hact)
      simpa [Frame.ActsAre] using hrest
    | enters hfinished hround => cases hround <;> simp [Frame.ActsAre]
    | continues hfinished hround => cases hround <;> simp [Frame.ActsAre]
    | idles | jumps | announces | starts | stops | deserted | leaves | fails | gives => simp [Frame.ActsAre]
  acts act acts hacts := fun a ha => hacts a (List.mem_cons_of_mem act ha)
  outside f hf := by
    cases f with
    | advance | sleep | command => trivial
    | acts | settle | announce | start | beat | reportEnd | leave => cases hf

end Stage

end Every

/-! ## Tallies of frames -/

section Tally

variable {M : Type} [AddCommMonoid M] {G G' : Gear} (weight : Frame → M)

/-- The weights of all frames of all chains, added up. -/
def Gear.tally (G : Gear) : M := (G.chains.map fun c => (c.frames.map weight).sum).sum

/-- The weights of the frames that a stride brings. -/
def Stride.yields (t : Stride) : M := (t.frames.map weight).sum + (t.begun.map fun c => weight (.command c)).sum

/-- The `tally` after a change of one chain: its old frames are taken off and its new ones are put to it. -/
theorem Gear.tally_modify {chain : Nat} {c : Chain} (hc : G.chains[chain]? = some c) (f : Chain → Chain) :
    { G with chains := G.chains.modify chain f }.tally weight + (c.frames.map weight).sum =
      G.tally weight + ((f c).frames.map weight).sum :=
  sum_map_modify (fun c : Chain => (c.frames.map weight).sum) hc f

/-- `Turns` leave the frames as they are, so every tally stays the same. -/
theorem Gear.Turns.tally_eq {m : Stage.Move} (h : G.Turns m G') : G'.tally weight = G.tally weight := by
  cases h with
  | @ends chain failure c _ hc hnil =>
    have hsum := tally_modify weight hc fun c => { c with outcome := some failure }
    simp only [hnil, List.map_nil, List.sum_nil, add_zero] at hsum
    exact hsum
  | strays | resumes | counts | misses | wakes | strikes => rfl

namespace Stage

variable [IsRightCancelAdd M] {react : Reactions} {w w' : Stage} {chain : Nat} {frame : Frame} {rest : List Frame}

/-- The first frame of a chain is replaced by others. -/
theorem tally_setFrames (hframes : w.framesOf chain = some (frame :: rest)) (frames : List Frame) :
    (w.gear.setFrames chain (frames ++ rest)).tally weight + weight frame =
      w.gear.tally weight + (frames.map weight).sum := by
  obtain ⟨c, hc, hcons⟩ := framesOf_eq_some hframes
  have hsum := Gear.tally_modify weight (G := w.gear) hc fun c => { c with frames := frames ++ rest }
  simp only [hcons, List.map_cons, List.sum_cons, List.map_append, List.sum_append, ← add_assoc] at hsum
  exact add_right_cancel hsum

/-- A stride takes away the frame on top, and brings what it `yields`: its own frames and those of the commands that it
    starts. -/
theorem tally_after (hframes : w.framesOf chain = some (frame :: rest)) (t : Stride) :
    (w.gear.after chain rest t).tally weight + weight frame = w.gear.tally weight + t.yields weight := by
  have hset := tally_setFrames weight hframes t.frames
  have hbegun : (t.begun.map fun c => weight (.command c)).sum =
      ((t.begun.map fun c => { frames := [.command c], group := some t.number }).map
        fun c : Chain => (c.frames.map weight).sum).sum := by
    simp [Function.comp_def]
  have happend : (w.gear.after chain rest t).tally weight =
      (w.gear.setFrames chain (t.frames ++ rest)).tally weight + (t.begun.map fun c => weight (.command c)).sum := by
    rw [hbegun]
    simp only [Gear.tally, Gear.after, List.map_append, List.sum_append]
  rw [happend, add_right_comm, hset, Stride.yields, add_assoc]

/-- What a move can do to a tally that does not count the acts of reactions. -/
inductive Weighs (react : Reactions) (w : Stage) : Move → Stage → Prop where
  | keeps {m : Move} {w' : Stage} {asides : List Deed} : (∀ d ∈ asides, d.isAside = true) →
      w'.gear.tally weight = w.gear.tally weight → Records w asides [] w' → Weighs react w m w'
  | strides {w' : Stage} {chain : Nat} {failure : Option Failure} {frame : Frame} {t : Stride} {asides : List Deed} :
      Plays react w.session w.groups.length (w.groupOf chain) chain failure frame t →
      (∀ d ∈ asides, d.isAside = true) →
      w'.gear.tally weight + weight frame = w.gear.tally weight + t.yields weight →
      Records w (asides ++ t.deeds) t.calls w' → Weighs react w .step w'
  | spawns {w' : Stage} {frames : List Frame} : (∀ f ∈ frames, f.FromOutside) →
      w'.gear.tally weight = w.gear.tally weight + (frames.map weight).sum → Records w [] [] w' →
      Weighs react w (.spawn frames) w'

/-- The five changes, for a tally in which acts of reactions have no weight. -/
theorem Change.weighs {m : Move} (h : Change react w m w') (hacts : ∀ acts, weight (.acts acts) = 0) :
    Weighs weight react w m w' := by
  cases h with
  | aside haside =>
    obtain ⟨asides, hasides, hrecords⟩ := haside.records
    exact .keeps hasides (by rw [haside.gear_eq]) hrecords
  | strides hactive hframes hplays hgear hasides hrecords =>
    exact .strides hplays hasides (by rw [hgear, tally_after weight hframes]) hrecords
  | @acts _ chain act acts rest _ _ hactive hframes _ hgear hasides hrecords =>
    -- acts weigh nothing, so taking one of them off changes no weight
    have hset := tally_setFrames weight hframes [.acts acts]
    simp only [hacts, add_zero, List.map_cons, List.map_nil, List.sum_cons, List.sum_nil] at hset
    refine .keeps hasides ?_ hrecords
    rw [hgear, ← hset]
    rfl
  | turns hturns hrecords => exact .keeps (by simp) (hturns.tally_eq weight) hrecords
  | spawns hframes hgear hrecords =>
    refine .spawns hframes ?_ hrecords
    rw [hgear]
    simp [Gear.tally]

end Stage

end Tally

end ChatScene
