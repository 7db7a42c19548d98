/-
  A script is loaded: a fresh start.

  A host makes one call after the other.  When all that ran is over and a script is loaded, nothing of what happened
  before shows any more: a session that has just been created, with the same listener, settings and bus, answers every
  further call in the same way.  A text that cannot be read is as good as no call: it leaves the stage exactly as it
  was.

  1. **Upon a past** — the old stage is a new one (`Stage.renewed`) upon a past (`opened_eq_upon`).  What is done upon
     a past is done to the stage itself, for waiting, for calls and for whole runs of a host (`runCall_upon`,
     `runs_upon`), if the past has nothing left to count.

  2. **What is left to count** — chains of the old beats may be over without having been counted.  Their groups are
     settled (`Past.StaleGroupsSettled`), so counting them wakes nobody: the stage upon its past only counts
     (`Unused.step_upon_cons`), and then has nothing left to count (`Unused.counts_all`).

  3. **Loads** — whichever call loads the script, it does the same from there on (`opened_of_loads`).

  4. **Main result** (`reload_starts_afresh`) — the runs of a host from the old stage and from the new one are told the
     same and leave the same report (`Report`), for every sequence of calls that begins with a load.
-/
import ChatScene.Proofs.Bygone
import ChatScene.Proofs.WithoutHandlers
import ChatScene.Proofs.Waiting

namespace ChatScene

open Relation (ReflTransGen)
open Stage (Stepping Goes Arrives rest_iff)

/-! ## Loading calls -/

/-- The call loads the script. -/
def HostCall.Loads (settings : Settings) (script : Script) : HostCall → Prop
  | .load s => s = script
  | .setup text source => Script.parse settings.commentMark source text = .ok script
  | .perform (.setup text) => Script.parse settings.commentMark unnamedSource text = .ok script
  | .perform (.loadCompiled document) => Script.ofJson document = .ok script
  | _ => False

/-- The host is told how its calls end, and nothing else. -/
abbrev Stage.told (react : Reactions) : HostedSystem Stage (Option Failure) :=
  Stage.hosted react fun _ failure => failure

/-- What can be told of a stage from outside. -/
structure Report where
  /-- What has been seen, first things first: the calls of the listener and of the handlers, and the log. -/
  moments : List Moment
  /-- The session. -/
  session : Session
  /-- The contexts of the host. -/
  contexts : List (String × Nat)
  /-- The bus with its trail. -/
  bus : Option (Bus Notice)
  /-- The time. -/
  time : Float

/-- `w.report before` — the report of a stage, after so many moments had been seen before. -/
def Stage.report (w : Stage) (before : Nat) : Report :=
  ⟨w.seen.reverse.drop before, w.session, w.contexts, w.bus, w.now⟩

/-! ## Ends that are still to be counted -/

namespace Past

/-- What is left to count belongs to beats whose advance has gone on. -/
def StaleGroupsSettled (past : Past) : Prop :=
  ∀ wake ∈ past.stale, ∃ number failure g, wake = .over number failure ∧
    past.groups[number]? = some g ∧ g.settled = true

/-- One more end is counted. -/
def count (past : Past) : Past :=
  match past.stale with
  | .over number _ :: stale =>
    { past with groups := past.groups.modify number fun g => { g with left := g.left - 1 }, stale }
  | _ => past

variable {past : Past} {wake : Wake} {stale : List Wake}

theorem length_groups_count : past.count.groups.length = past.groups.length := by
  unfold count
  split
  · exact List.length_modify ..
  · rfl

theorem group_count : past.count.group = past.group := by
  funext n
  rw [group, group, length_groups_count]

/-- One less is left to count (`stale`), and groups that are settled stay so. -/
theorem StaleGroupsSettled.count (h : past.StaleGroupsSettled) (hstale : past.stale = wake :: stale) :
    past.count.StaleGroupsSettled ∧ past.count.stale = stale ∧ past.count.seen = past.seen := by
  obtain ⟨number, failure, g, rfl, -, -⟩ := h wake (by rw [hstale]; exact List.mem_cons_self)
  have hcount : past.count =
      { past with groups := past.groups.modify number fun g => { g with left := g.left - 1 }, stale } := by
    rw [Past.count, hstale]
  rw [hcount]
  refine ⟨fun other hother => ?_, rfl, rfl⟩
  obtain ⟨number', failure', g', rfl, hg', hsettled⟩ := h other (by rw [hstale]; exact List.mem_cons_of_mem _ hother)
  refine ⟨number', failure', if number = number' then { g' with left := g'.left - 1 } else g', rfl, ?_, ?_⟩
  · simp only [List.getElem?_modify, hg']
    split <;> rfl
  · split <;> exact hsettled

end Past

namespace Stage

/-- The stage of a session that has just been created, where another one has been: it has the same listener, the same
    settings, the same bus and the same host. -/
def renewed (w : Stage) : Stage :=
  { session := { settings := w.session.settings, attached := w.session.attached }
    contexts := w.contexts
    bus := w.bus
    fired := w.fired
    now := w.now }

variable {react : Reactions} {w u v x : Stage} {past : Past}

/-! ## In step with a past -/

/-- Runs go on upon a past (`upon`) as they do without it, if each step does. -/
theorem reflTransGen_upon {r r' : Stage → Stage → Prop}
    (hround : ∀ u v, r' (u.upon past) v ↔ ∃ x, r u x ∧ v = x.upon past) :
    ReflTransGen r' (u.upon past) v ↔ ∃ x, ReflTransGen r u x ∧ v = x.upon past := by
  constructor
  · intro h
    induction h with
    | refl => exact ⟨u, .refl, rfl⟩
    | tail _ hlast ih =>
      obtain ⟨x, hx, rfl⟩ := ih
      obtain ⟨y, hy, rfl⟩ := (hround _ _).mp hlast
      exact ⟨y, hx.tail hy, rfl⟩
  · rintro ⟨x, hx, rfl⟩
    exact hx.lift (upon · past) fun a b hab => (hround _ _).mpr ⟨b, hab, rfl⟩

section InStep

variable (h : past.stale = [])

include h

theorem stepping_upon : Stepping react (u.upon past) v ↔ ∃ x, Stepping react u x ∧ v = x.upon past :=
  reflTransGen_upon fun u v => by
    rw [step_upon u react h, Option.map_eq_some_iff]
    exact exists_congr fun x => and_congr_right fun _ => eq_comm

theorem goes_upon (chain : Nat) :
    Goes react (past.chain chain) (u.upon past) v ↔ ∃ x, Goes react chain u x ∧ v = x.upon past := by
  constructor
  · rintro (hstep | ⟨hstep, houtcome, htick⟩)
    · rw [step_upon u react h, Option.map_eq_some_iff] at hstep
      obtain ⟨x, hx, rfl⟩ := hstep
      exact ⟨x, .step hx, rfl⟩
    · rw [step_upon u react h, Option.map_eq_none_iff] at hstep
      rw [outcome?_upon] at houtcome
      rw [tick_upon u h, Option.map_eq_some_iff] at htick
      obtain ⟨x, hx, rfl⟩ := htick
      exact ⟨x, .tick hstep houtcome hx, rfl⟩
  · rintro ⟨x, hstep | ⟨hstep, houtcome, htick⟩, rfl⟩
    · exact .step (by rw [step_upon u react h, hstep]; rfl)
    · exact .tick (by rw [step_upon u react h, hstep]; rfl) (by rw [outcome?_upon, houtcome])
        (by rw [tick_upon u h, htick]; rfl)

/-- All that happens while a chain is awaited, under its new number. -/
theorem arrives_upon (chain : Nat) :
    Arrives react (past.chain chain) (u.upon past) v ↔ ∃ x, Arrives react chain u x ∧ v = x.upon past :=
  reflTransGen_upon fun _ _ => goes_upon h chain

/-- A chain of the host's own that is awaited. -/
theorem run_upon (fuel : Nat) (frames : List Frame) :
    run react fuel (u.upon past) (frames.map past.frame) =
      (run react fuel u frames).map fun p => (p.1.upon past, p.2) := by
  have hspawn : (u.upon past).spawn (frames.map past.frame) none = (u.spawn frames none).upon past :=
    spawn_upon u past frames none
  rw [run, run, hspawn, length_chains_upon]
  exact await_upon _ react h _ fuel

theorem emit_upon (fuel : Nat) (event : SessionEvent) :
    emit react fuel (u.upon past) event = (emit react fuel u event).map (upon · past) := by
  rw [emit, emit, publish_upon]
  exact rest_upon _ react h fuel

/-- A call returns upon a past (`upon`) as it does without it. -/
theorem runCall_upon (fuel : Nat) (call : HostCall) :
    call.run react fuel (u.upon past) = (call.run react fuel u).map fun p => (p.1.upon past, p.2) := by
  cases call with
  | advance context => exact run_upon h fuel [.advance context]
  | start context =>
    simp only [HostCall.run, start, touch_upon, spawnAdvance_upon, rest_upon _ react h, Option.map_map]
    rfl
  | wait seconds => exact run_upon h fuel [.sleep seconds]
  | perform act =>
    simp only [HostCall.run, doAct, carryOut_upon, rest_upon _ react h, Option.map_map]
    rfl
  | setup text source =>
    simp only [HostCall.run, setupFrom, setup_upon]
    -- a text that is refused leaves the stage as it is, and there is nothing to wait for
    rcases u.setup text source with ⟨v, e | event⟩
    · rfl
    · simp only [emit_upon h, Option.map_map]
      rfl
  | load script =>
    simp only [HostCall.run, loadScript, load_upon, emit_upon h, Option.map_map]
    rfl

/-- And the stages in the middle of a call are the same. -/
theorem passes_upon (call : HostCall) :
    call.Passes react (u.upon past) v ↔ ∃ x, call.Passes react u x ∧ v = x.upon past := by
  cases call with
  | advance context => simp only [HostCall.Passes, spawnAdvance_upon, length_chains_upon, arrives_upon h]
  | start context => simp only [HostCall.Passes, touch_upon, spawnAdvance_upon, stepping_upon h]
  | wait seconds =>
    have hspawn : (u.upon past).spawn [.sleep seconds] none = (u.spawn [.sleep seconds] none).upon past :=
      spawn_upon u past [.sleep seconds] none
    simp only [HostCall.Passes, hspawn, length_chains_upon, arrives_upon h]
  | perform act => simp only [HostCall.Passes, carryOut_upon, stepping_upon h]
  | setup text source =>
    simp only [HostCall.Passes, setup_upon]
    rcases u.setup text source with ⟨y, e | event⟩
    · simp
    · simp only [publish_upon, stepping_upon h]
  | load script => simp only [HostCall.Passes, load_upon, publish_upon, stepping_upon h]

/-- Whatever the host calls for comes to the same upon a past. -/
theorem runs_upon (calls : List HostCall) (outcomes : List (Option Failure)) :
    (told react).Runs (u.upon past) calls outcomes v ↔
      ∃ x, (told react).Runs u calls outcomes x ∧ v = x.upon past := by
  constructor
  · -- each direction is a simulation with the equation `s = t.upon past` between the stages
    refine HostedSystem.Runs.simulates (K := told react) (R := fun _ s (t : Stage) => s = t.upon past)
      (Q := fun s (t : Stage) => s = t.upon past) id ?_ ?_ rfl
    · rintro _ t s' call calls rfl hpasses
      exact (passes_upon h call).mp hpasses
    · rintro _ t s' call calls look rfl ⟨fuel, failure, hrun, hlook⟩
      rw [runCall_upon h, Option.map_eq_some_iff] at hrun
      obtain ⟨⟨y, _⟩, hrun, ⟨⟩⟩ := hrun
      exact ⟨y, ⟨fuel, _, hrun, hlook⟩, rfl⟩
  · rintro ⟨x, hruns, rfl⟩
    have hsimulates := HostedSystem.Runs.simulates (K := told react) (R := fun _ (s : Stage) t => t = s.upon past)
      (Q := fun (s : Stage) t => t = s.upon past) id ?_ ?_ rfl hruns
    · obtain ⟨_, hupon, rfl⟩ := hsimulates
      exact hupon
    · rintro s _ s' call calls rfl hpasses
      exact ⟨_, (passes_upon h call).mpr ⟨s', hpasses, rfl⟩, rfl⟩
    · rintro s _ s' call calls look rfl ⟨fuel, failure, hrun, hlook⟩
      exact ⟨_, ⟨fuel, failure, by rw [runCall_upon h, hrun]; rfl, hlook⟩, rfl⟩

end InStep

/-! ## Counting before the first call returns -/

/-- Nothing has been begun on the stage. -/
def Unused (w : Stage) : Prop := w.gear = ⟨[], [], [], [], none⟩

/-- On a stage on which nothing has been begun, events are all that can happen (`nextEvent?`). -/
theorem Unused.step_eq (h : u.Unused) : u.step react = u.nextEvent?.map fun p => p.2.deliver react p.1 := by
  have htimers : u.timers = [] := congrArg Gear.timers h
  have hready : u.ready = [] := congrArg Gear.ready h
  have hactive : u.active = none := congrArg Gear.active h
  unfold step
  cases u.nextEvent? with
  | some p => rfl
  | none => simp [hactive, takeReady, hready, fireTimers, htimers]

theorem Unused.next (h : u.Unused) (hstep : u.step react = some v) : v.Unused := by
  rw [h.step_eq, Option.map_eq_some_iff] at hstep
  obtain ⟨⟨event, y⟩, hevent, rfl⟩ := hstep
  have hgear : y.gear = u.gear := by
    unfold nextEvent? at hevent
    split at hevent
    · split at hevent
      · cases hevent
        rfl
      · cases hevent
    · cases hevent
  exact ((Aside.deliver react y event).gear_eq.trans hgear).trans h

/-- When no event waits, the next end of the past (`stale`) is counted, and nobody is told. -/
theorem Unused.step_upon_cons (h : u.Unused) (hevent : u.nextEvent? = none) (hsettled : past.StaleGroupsSettled)
    {wake : Wake} {stale : List Wake} (hstale : past.stale = wake :: stale) :
    (u.upon past).step react = some (u.upon past.count) := by
  obtain ⟨number, failure, g, rfl, hg, hover⟩ := hsettled wake (by rw [hstale]; exact List.mem_cons_self)
  have hready : u.ready = [] := congrArg Gear.ready h
  have hactive : u.active = none := congrArg Gear.active h
  have hgroups : u.groups = [] := congrArg Gear.groups h
  have hset : past.groups.set number { g with left := g.left - 1 } =
      past.groups.modify number fun g => { g with left := g.left - 1 } := by
    rw [List.modify_eq_set_getElem?, hg]
    rfl
  have hcount : past.count =
      { past with groups := past.groups.modify number fun g => { g with left := g.left - 1 }, stale } := by
    rw [Past.count, hstale]
  have hdeed : past.count.deed = past.deed := by
    funext d
    cases d <;> simp [Past.deed, Past.group_count]
  -- the end belongs to a settled group, so its owner is not woken
  have htake : (u.upon past).takeReady = some (u.upon past.count) := by
    have hchains : u.chains = [] := congrArg Gear.chains h
    have htimers : u.timers = [] := congrArg Gear.timers h
    simp only [takeReady, upon, hstale, hready, hgroups, hchains, htimers, hactive, hdeed]
    simp [memberOver, hg, hover, hcount, ← hset]
  simp only [step, nextEvent?_upon, hevent, htake]
  simp [upon, hactive]

theorem step_upon_event {p : SessionEvent × Stage} (hevent : u.nextEvent? = some p) (past : Past) :
    (u.upon past).step react = some ((p.2.deliver react p.1).upon past) := by
  rw [step, nextEvent?_upon, hevent]
  exact congrArg some (deliver_upon p.2 past react p.1)

/-- Steps of an unused stage (`Unused`) upon a past are its own steps, and ends of the past that are counted in
    between. -/
theorem Unused.of_stepping_upon (h : u.Unused) (hsettled : past.StaleGroupsSettled)
    (hsteps : Stepping react (u.upon past) v) :
    ∃ x past', Stepping react u x ∧ x.Unused ∧ past'.StaleGroupsSettled ∧ past'.seen = past.seen ∧ v = x.upon past' := by
  induction hsteps with
  | refl => exact ⟨u, past, .refl, h, hsettled, rfl, rfl⟩
  | tail _ hlast ih =>
    obtain ⟨x, past', hx, hunused, hsettled', hseen, rfl⟩ := ih
    -- events go first; then what is left of the past is counted; and then there is nothing to do
    cases hevent : x.nextEvent? with
    | some p =>
      have hdeliver : x.step react = some (p.2.deliver react p.1) := by rw [hunused.step_eq, hevent]; rfl
      obtain rfl : (p.2.deliver react p.1).upon past' = _ :=
        Option.some.inj ((step_upon_event hevent past').symm.trans hlast)
      exact ⟨_, past', hx.tail hdeliver, hunused.next hdeliver, hsettled', hseen, rfl⟩
    | none =>
      cases hstale : past'.stale with
      | nil =>
        rw [step_upon x react hstale, hunused.step_eq, hevent] at hlast
        cases hlast
      | cons wake stale =>
        obtain ⟨hcount, -, hseen'⟩ := hsettled'.count hstale
        obtain rfl : x.upon past'.count = _ :=
          Option.some.inj ((hunused.step_upon_cons hevent hsettled' hstale).symm.trans hlast)
        exact ⟨x, past'.count, hx, hunused, hcount, hseen'.trans hseen, rfl⟩

/-- Its own steps can be done upon a past, since events come before all that is to be counted. -/
theorem Unused.stepping_upon (h : u.Unused) (past : Past) (hsteps : Stepping react u x) :
    Stepping react (u.upon past) (x.upon past) ∧ x.Unused := by
  induction hsteps with
  | refl => exact ⟨.refl, h⟩
  | @tail x y _ hlast ih =>
    obtain ⟨hsteps, hunused⟩ := ih
    refine ⟨hsteps.tail ?_, hunused.next hlast⟩
    rw [hunused.step_eq, Option.map_eq_some_iff] at hlast
    obtain ⟨p, hevent, rfl⟩ := hlast
    exact step_upon_event hevent past

/-- When no event waits, all that is left is counted. -/
theorem Unused.counts_all (react : Reactions) (h : u.Unused) (hevent : u.nextEvent? = none)
    (hsettled : past.StaleGroupsSettled) :
    ∃ past', past'.stale = [] ∧ past'.seen = past.seen ∧ Stepping react (u.upon past) (u.upon past') := by
  induction hstale : past.stale generalizing past with
  | nil => exact ⟨past, hstale, rfl, .refl⟩
  | cons wake stale ih =>
    obtain ⟨hcount, hrest, hseen⟩ := hsettled.count hstale
    obtain ⟨past', hnil, hseen', hsteps⟩ := ih hcount hrest
    exact ⟨past', hnil, hseen'.trans hseen, .head (h.step_upon_cons hevent hsettled hstale) hsteps⟩

/-- An unused stage (`Unused`) upon a past comes to rest where it would without the past, and then nothing is left to
    count. -/
theorem Unused.of_rest_upon (h : u.Unused) (hsettled : past.StaleGroupsSettled) :
    (∃ fuel, (u.upon past).rest react fuel = some v) → ∃ x past', (∃ fuel, u.rest react fuel = some x) ∧
      past'.stale = [] ∧ past'.seen = past.seen ∧ v = x.upon past' := by
  rw [rest_iff]
  rintro ⟨hsteps, hlast⟩
  obtain ⟨x, past', hx, hunused, hsettled', hseen, rfl⟩ := h.of_stepping_upon hsettled hsteps
  have hevent : x.nextEvent? = none := by
    cases hevent : x.nextEvent? with
    | none => rfl
    | some p => exact absurd (step_upon_event hevent past') (by rw [hlast]; simp)
  refine ⟨x, past', rest_iff.mpr ⟨hx, by rw [hunused.step_eq, hevent]; rfl⟩, ?_, hseen, rfl⟩
  cases hstale : past'.stale with
  | nil => rfl
  | cons wake stale => exact absurd (hunused.step_upon_cons hevent hsettled' hstale) (by rw [hlast]; simp)

/-- And it does come to rest upon the past. -/
theorem Unused.rest_upon (h : u.Unused) (hsettled : past.StaleGroupsSettled)
    (hrest : ∃ fuel, u.rest react fuel = some x) :
    ∃ past', past'.stale = [] ∧ past'.seen = past.seen ∧
      ∃ fuel, (u.upon past).rest react fuel = some (x.upon past') := by
  obtain ⟨hsteps, hlast⟩ := rest_iff.mp hrest
  obtain ⟨hupon, hunused⟩ := h.stepping_upon past hsteps
  have hevent : x.nextEvent? = none := by
    rw [hunused.step_eq, Option.map_eq_none_iff] at hlast
    exact hlast
  obtain ⟨past', hstale, hseen, hcounts⟩ := hunused.counts_all react hevent hsettled
  refine ⟨past', hstale, hseen, rest_iff.mpr ⟨hupon.trans hcounts, ?_⟩⟩
  rw [step_upon x react hstale, hlast]
  rfl

/-! ## Loading -/

/-- `w.opened react lines script` — a script is loaded after some lines of the log. -/
def opened (react : Reactions) (w : Stage) (lines : List LogLine) (script : Script) : Stage :=
  ((w.logAll lines).load script).1.publish react ((w.logAll lines).load script).2

/-- A text that is read and loaded: its log lines, and a load. -/
theorem setup_eq_load {settings : Settings} {text source : String} {script : Script}
    (hparse : Script.parse settings.commentMark source text = .ok script) (hx : x.session.settings = settings) :
    x.setup text source = (((x.logAll (Script.parseLog source (.ok script))).load script).1,
      .ok ((x.logAll (Script.parseLog source (.ok script))).load script).2) := by
  simp only [setup, hx, hparse]

/-- A call that loads a script opens it (`opened`), and then lets the stage come to rest; which call it was does not
    matter. -/
theorem opened_of_loads {settings : Settings} {script : Script} {first : HostCall}
    (h : first.Loads settings script) (react : Reactions) : ∃ lines, ∀ x : Stage, x.session.settings = settings →
      (∀ fuel, first.run react fuel x = ((x.opened react lines script).rest react fuel).map (·, none)) ∧
      first.Passes react x = Stepping react (x.opened react lines script) := by
  unfold HostCall.Loads at h
  split at h
  · subst h
    exact ⟨[], fun x _ => ⟨fun _ => rfl, rfl⟩⟩
  · -- the text may be read by the host
    next text source =>
    refine ⟨Script.parseLog source (.ok script), fun x hx => ⟨fun fuel => ?_, ?_⟩⟩
    · simp only [HostCall.run, setupFrom, setup_eq_load h hx]
      rfl
    · simp only [HostCall.Passes, setup_eq_load h hx]
      rfl
  · -- or by an act
    next text =>
    refine ⟨Script.parseLog unnamedSource (.ok script), fun x hx => ?_⟩
    have hperform : x.carryOut react (.setup text) =
        (x.opened react (Script.parseLog unnamedSource (.ok script)) script, none) := by
      simp only [carryOut, perform, setup_eq_load h hx]
      rfl
    simp only [HostCall.run, HostCall.Passes, doAct, hperform, implies_true, and_self]
  · -- or it is a document
    next document =>
    refine ⟨[], fun x hx => ?_⟩
    have hperform : x.carryOut react (.loadCompiled document) = (x.opened react [] script, none) := by
      simp only [carryOut, perform, h]
      rfl
    simp only [HostCall.run, HostCall.Passes, doAct, hperform, implies_true, and_self]
  · exact h.elim

/-- All that a stage leaves behind. -/
def bygone (w : Stage) : Past := ⟨w.journal, w.seen, w.chains, w.groups, w.ready⟩

/-- Loading makes a stage on which all is over a new one upon a past. -/
theorem opened_eq_upon (htimers : w.timers = []) (hactive : w.active = none) (lines : List LogLine) (script : Script) :
    w.opened react lines script = (w.renewed.opened react lines script).upon w.bygone := by
  have hload : (w.logAll lines).load script =
      (((w.renewed.logAll lines).load script).1.upon w.bygone, ((w.renewed.logAll lines).load script).2) := by
    have hsession : w.session.after (.load script) = w.renewed.session.after (.load script) := rfl
    simp only [load, log, see, record, logAll_eq, upon, bygone, htimers, hactive, hsession]
    simp [renewed, Past.deed]
  rw [opened, opened, hload]
  exact publish_upon _ _ react _

theorem unused_opened (react : Reactions) (w : Stage) (lines : List LogLine) (script : Script) :
    (w.renewed.opened react lines script).Unused :=
  ((((Aside.logAll w.renewed lines).trans (Aside.load _ script)).trans (Aside.publish react _ _)).gear_eq).trans rfl

/-- Where all chains are over, what is left to count belongs to groups that are settled (`StaleGroupsSettled`): an
    advance that waited for one of them would not be over. -/
theorem Fresh.staleGroupsSettled {w₀ : Stage} (h₀ : w₀.Fresh) (h : Reaches react w₀ w)
    (hover : ∀ c ∈ w.chains, c.outcome ≠ none) :
    w.timers = [] ∧ w.active = none ∧ w.bygone.StaleGroupsSettled := by
  obtain ⟨hwakes, hovers⟩ := (h.coherent h₀.gear_eq).all_over hover
  simp only [Gear.wakes, Gear.running, Gear.queued, List.append_eq_nil_iff, List.map_eq_nil_iff] at hwakes
  obtain ⟨hrunning, hqueued, htimers⟩ := hwakes
  refine ⟨htimers, ?_, fun wake hwake => ?_⟩
  · cases hactive : w.active with
    | none => rfl
    | some p => simp [gear, hactive] at hrunning
  · rcases wake with ⟨chain, failure⟩ | ⟨number, failure⟩
    · have hmem : chain ∈ w.ready.filterMap Wake.chain? := List.mem_filterMap.mpr ⟨_, hwake, rfl⟩
      exact absurd (hqueued ▸ hmem) List.not_mem_nil
    · obtain ⟨g, hg, hsettled⟩ := hovers number failure hwake
      exact ⟨number, failure, g, rfl, hg, hsettled⟩

/-- What can be told of the new stage can be told of the old one. -/
theorem report_upon (hseen : past.seen = w.seen) (x : Stage) : (x.upon past).report w.seen.length = x.report 0 := by
  simp [report, upon, hseen]

/-! ## A fresh start -/

section Afresh

variable {script : Script} {first : HostCall} {calls : List HostCall} {outcomes : List (Option Failure)}
  (htimers : w.timers = []) (hactive : w.active = none) (hsettled : w.bygone.StaleGroupsSettled)
  (hloads : first.Loads w.session.settings script)

include htimers hactive hsettled hloads

/-- What the old stage comes to, the new one does. -/
theorem renewed_runs (hruns : (told react).Runs w (first :: calls) outcomes v) :
    ∃ x past, (told react).Runs w.renewed (first :: calls) outcomes x ∧ past.seen = w.seen ∧ v = x.upon past := by
  obtain ⟨lines, hopened⟩ := opened_of_loads hloads react
  obtain ⟨hrun, hpasses⟩ := hopened w rfl
  obtain ⟨hrun', hpasses'⟩ := hopened w.renewed rfl
  have hunused := unused_opened react w lines script
  rw [opened_eq_upon htimers hactive] at hrun hpasses
  -- the run ends in the middle of the first call, or goes on after it
  rcases HostedSystem.runs_cons_iff.mp hruns with
    ⟨rfl, hv⟩ | ⟨failure, later, w', rfl, ⟨fuel, _, hfuel, rfl⟩, hlater⟩
  · have hmidway : first.Passes react w v := hv
    rw [hpasses] at hmidway
    obtain ⟨x, past, hx, -, -, hseen, rfl⟩ := hunused.of_stepping_upon hsettled hmidway
    have hmidway' : first.Passes react w.renewed x := hpasses' ▸ hx
    exact ⟨x, past, .midway hmidway', hseen, rfl⟩
  · rw [hrun, Option.map_eq_some_iff] at hfuel
    obtain ⟨y, hy, ⟨⟩⟩ := hfuel
    obtain ⟨z, past, ⟨fuel', hz⟩, hstale, hseen, rfl⟩ := hunused.of_rest_upon hsettled ⟨fuel, hy⟩
    obtain ⟨x, hx, rfl⟩ := (runs_upon hstale calls later).mp hlater
    exact ⟨x, past, .next ⟨fuel', none, by rw [hrun', hz]; rfl, rfl⟩ hx, hseen, rfl⟩

/-- What the new stage comes to, the old one does. -/
theorem runs_of_renewed (hruns : (told react).Runs w.renewed (first :: calls) outcomes x) :
    ∃ past, past.seen = w.seen ∧ (told react).Runs w (first :: calls) outcomes (x.upon past) := by
  obtain ⟨lines, hopened⟩ := opened_of_loads hloads react
  obtain ⟨hrun, hpasses⟩ := hopened w rfl
  obtain ⟨hrun', hpasses'⟩ := hopened w.renewed rfl
  have hunused := unused_opened react w lines script
  -- once the script is loaded, the old stage is the new one upon what is bygone
  rw [opened_eq_upon htimers hactive] at hrun hpasses
  rcases HostedSystem.runs_cons_iff.mp hruns with
    ⟨rfl, hx⟩ | ⟨failure, later, w', rfl, ⟨fuel, _, hfuel, rfl⟩, hlater⟩
  · have hmidway : first.Passes react w.renewed x := hx
    rw [hpasses'] at hmidway
    have hmidway' : first.Passes react w (x.upon w.bygone) := hpasses ▸ (hunused.stepping_upon w.bygone hmidway).1
    exact ⟨w.bygone, rfl, .midway hmidway'⟩
  · rw [hrun', Option.map_eq_some_iff] at hfuel
    obtain ⟨y, hy, ⟨⟩⟩ := hfuel
    -- when it has come to rest nothing of the past is left to count, and later calls take no notice of it
    obtain ⟨past, hstale, hseen, fuel', hrest⟩ := hunused.rest_upon hsettled ⟨fuel, hy⟩
    exact ⟨past, hseen, .next ⟨fuel', none, by rw [hrun, hrest]; rfl, rfl⟩
      ((runs_upon hstale calls later).mpr ⟨x, hlater, rfl⟩)⟩

end Afresh

/-- A text that cannot be read leaves everything as it was. -/
theorem setup_refused {text source : String} {e : ScriptError}
    (h : Script.parse x.session.settings.commentMark source text = .error e) : x.setup text source = (x, .error e) := by
  simp only [setup, h, Script.parseLog]
  rfl

/-- A text that cannot be read changes nothing about what follows. -/
theorem runs_refused {text source : String} {e : ScriptError} {calls : List HostCall}
    {outcomes : List (Option Failure)} (h : x.setup text source = (x, .error e)) :
    (told react).Runs x (.setup text source :: calls) (some (.script e) :: outcomes) v ↔
      (told react).Runs x calls outcomes v := by
  have hrun : ∀ fuel, (HostCall.setup text source).run react fuel x = some (x, some (.script e)) := fun fuel => by
    simp only [HostCall.run, setupFrom, h]
  constructor
  · rintro (_ | _ | ⟨⟨fuel, _, hreturns, rfl⟩, hlater⟩)
    rw [hrun] at hreturns
    cases hreturns
    exact hlater
  · exact .next ⟨0, _, hrun 0, rfl⟩

/-- After a script has been loaded (`HostCall.Loads`) on a stage where all is over, whatever a host calls for, it is
    told what it would have been told by a session that has just been created (`renewed`).  A text that cannot be
    read changes nothing, now or later. -/
theorem reload_starts_afresh {w₀ : Stage} (h₀ : w₀.Fresh) (h : Reaches react w₀ w)
    (hover : ∀ c ∈ w.chains, c.outcome ≠ none) {script : Script} {first : HostCall}
    (hloads : first.Loads w.session.settings script) :
    (∀ calls outcomes report,
      (∃ v, (told react).Runs w (first :: calls) outcomes v ∧ v.report w.seen.length = report) ↔
        ∃ x, (told react).Runs w.renewed (first :: calls) outcomes x ∧ x.report 0 = report) ∧
    ∀ (x : Stage) (text source : String) (e : ScriptError),
      Script.parse x.session.settings.commentMark source text = .error e →
        x.setup text source = (x, .error e) ∧
        ∀ calls outcomes v, (told react).Runs x (.setup text source :: calls) (some (.script e) :: outcomes) v ↔
          (told react).Runs x calls outcomes v := by
  obtain ⟨htimers, hactive, hsettled⟩ := h₀.staleGroupsSettled h hover
  refine ⟨fun calls outcomes report => ⟨?_, ?_⟩, fun x text source e hparse => ?_⟩
  · rintro ⟨v, hruns, rfl⟩
    obtain ⟨x, past, hx, hseen, rfl⟩ := renewed_runs htimers hactive hsettled hloads hruns
    exact ⟨x, hx, (report_upon hseen x).symm⟩
  · rintro ⟨x, hruns, rfl⟩
    obtain ⟨past, hseen, hv⟩ := runs_of_renewed htimers hactive hsettled hloads hruns
    exact ⟨x.upon past, hv, report_upon hseen x⟩
  · exact ⟨setup_refused hparse, fun _ _ _ => runs_refused (setup_refused hparse)⟩

/-! ## Tea once more -/

/-- Two choices, one after the other. -/
def teaText : String := "@choice, tea, green, black\n@choice, milk, yes, no"

def teaStage : Stage := { bus := some {} }

/-- A listener that does nothing. -/
def still : Reactions := fun _ _ => []

/-- The first choice has been answered, and the second one waits. -/
def teaServed : Option (Stage × Option Failure) := do
  let (w, _) ← setupFrom still 10 teaStage teaText "menu"
  let (w, _) ← Stage.advance still 20 w .own
  let (w, _) ← doAct still 10 w (.setVariable "tea" "green")
  Stage.advance still 20 w .own

theorem teaServed_reached {failure : Option Failure} (h : teaServed = some (w, failure)) :
    Reaches still teaStage w := by
  simp only [teaServed, Option.bind_eq_bind, Option.bind_eq_some_iff] at h
  obtain ⟨⟨w₁, _⟩, h₁, ⟨w₂, _⟩, h₂, ⟨w₃, _⟩, h₃, h₄⟩ := h
  exact (Reaches.setupFrom h₁).trans ((Reaches.advance h₂).trans ((Reaches.doAct h₃).trans (Reaches.advance h₄)))

/-- A choice waits, a variable is set and the cursor is at the end when the same text is read again. -/
theorem reload_starts_afresh_tea :
    ∃ w script e, teaStage.Fresh ∧ Reaches still teaStage w ∧ (∀ c ∈ w.chains, c.outcome ≠ none) ∧
      w.session.pending.map Offer.var = some "milk" ∧ w.session.store = [("tea", "green")] ∧ w.session.cursor = 2 ∧
      (HostCall.setup teaText "menu").Loads w.session.settings script ∧
      (∀ calls outcomes report,
        (∃ v, (told still).Runs w (.setup teaText "menu" :: calls) outcomes v ∧ v.report w.seen.length = report) ↔
          ∃ x, (told still).Runs w.renewed (.setup teaText "menu" :: calls) outcomes x ∧ x.report 0 = report) ∧
      Script.parse w.session.settings.commentMark "menu" "@pour, tea" = .error e ∧
      w.setup "@pour, tea" "menu" = (w, .error e) := by
  have hrun : teaServed.map (fun p => (p.1.session.pending.map Offer.var, p.1.session.store, p.1.session.cursor,
      p.1.chains.all (·.outcome.isSome), p.1.session.settings)) =
        some (some "milk", [("tea", "green")], 2, true, {}) := rfl
  obtain ⟨⟨w, failure⟩, hserved, hw⟩ := Option.map_eq_some_iff.mp hrun
  simp only [Prod.mk.injEq, List.all_eq_true] at hw
  obtain ⟨hpending, hstore, hcursor, hall, hsettings⟩ := hw
  have hfresh : teaStage.Fresh := ⟨rfl, rfl, rfl⟩
  have hover : ∀ c ∈ w.chains, c.outcome ≠ none := fun c hc hnone => by simpa [hnone] using hall c hc
  have hmark : w.session.settings.commentMark = defaultMark := by rw [hsettings]; rfl
  obtain ⟨script, hscript⟩ : ∃ script, Script.parse defaultMark "menu" teaText = .ok script := ⟨_, rfl⟩
  obtain ⟨e, he⟩ : ∃ e, Script.parse defaultMark "menu" "@pour, tea" = .error e := ⟨_, rfl⟩
  have hloads : (HostCall.setup teaText "menu").Loads w.session.settings script := by
    show Script.parse w.session.settings.commentMark "menu" teaText = .ok script
    rw [hmark, hscript]
  have hrefused : Script.parse w.session.settings.commentMark "menu" "@pour, tea" = .error e := by rw [hmark, he]
  have hafresh := reload_starts_afresh hfresh (teaServed_reached hserved) hover hloads
  exact ⟨w, script, e, hfresh, teaServed_reached hserved, hover, hpending, hstore, hcursor, hloads, hafresh.1, hrefused,
    (hafresh.2 w _ _ e hrefused).1⟩

end Stage

end ChatScene
