/-
  A scene without conditions and jumps is shown in the order of its script, each command once.

  Any number of advances may be in flight at a time, one after the other, side by side or within the reactions of the
  listener.  All of them collect from one cursor, and the commands of a beat run as chains of their own.

  1. **The line** (`Gear.lineup`) — the commands that have been collected and have not begun, in the order in which they
     will begin: that of the running chain, then those of the ready list, then the beat that the running chain is about
     to start.

  2. **One move** — takes the first command of the line, or puts the next beat behind it (`Pace.lineup_after`), or
     leaves it as it is (`Orderly.lineup_turns`, `Orderly.lineup_spawns`).  This is where good order of the chains is
     needed: a chain that is put behind the others has no command to begin.

  3. **The account** (`Session.Lined`) — the commands of the script are those that have begun, then the line, then those
     that have not been collected.  What the listener has been shown is what has begun.  Every stride keeps it
     (`Plays.lined`), and so does every move (`Stage.Lined.change`), in a `Performance`: a script without conditions and
     jumps that is loaded once.

  4. **Main result** (`shown_in_source_order`) — at every moment what has been shown is the beginning of the script.
     When the scene is over nothing is left to collect, and when no advance is in flight the line is empty
     (`lineup_eq_nil`), so then everything has been shown.
-/
import Mathlib.Algebra.Order.BigOperators.Group.List
import Mathlib.Algebra.Order.Group.Nat
import Mathlib.Data.List.Basic
import ChatScene.Proofs.Orderly
import ChatScene.Proofs.Flights
import ChatScene.Proofs.Endings

namespace ChatScene

/-! ## The line -/

/-- The command that begins when the frame runs. -/
def Frame.opening : Frame → List Command
  | .command c => [c]
  | _ => []

/-- The commands that the frame is about to start. -/
def Frame.launching : Frame → List Command
  | .start _ _ cs => cs
  | _ => []

theorem Frame.opening_eq_nil {f : Frame} (h : f.isOpening = false) : f.opening = [] := by
  cases f with
  | command => cases h
  | acts | settle | announce | advance | start | beat | reportEnd | leave | sleep => rfl

theorem Frame.launching_eq_nil {f : Frame} (h : ∀ context n cs, f ≠ .start context n cs) : f.launching = [] := by
  cases f with
  | start context n cs => exact absurd rfl (h context n cs)
  | command | acts | settle | announce | advance | beat | reportEnd | leave | sleep => rfl

/-- The commands that the frames of a stride are about to start. -/
def Stride.gathered (t : Stride) : List Command := t.frames.flatMap Frame.launching

namespace Gear

variable {G G' : Gear} {a : Nat} {c : Chain} {frame : Frame} {rest : List Frame} {t : Stride}

/-- `G.top i` — the frame that the chain will run next. -/
def top (G : Gear) (i : Nat) : Option Frame := (G.chains[i]?).bind (·.frames.head?)

/-- `G.opening i` — the command that begins when the chain goes on. -/
def opening (G : Gear) (i : Nat) : List Command := (G.top i).elim [] Frame.opening

/-- `G.launching i` — the commands that the chain is about to start. -/
def launching (G : Gear) (i : Nat) : List Command := (G.top i).elim [] Frame.launching

/-- The commands that have been collected and have not begun, in the order in which they will begin. -/
def lineup (G : Gear) : List Command := (G.running ++ G.queued).flatMap G.opening ++ G.running.flatMap G.launching

theorem top_eq (hc : G.chains[a]? = some c) : G.top a = c.frames.head? := by simp [top, hc]

/-- The line while a chain is running: its own commands come first, then those of the ready list (`queued`), and last
    those that it is about to start (`launching`). -/
theorem lineup_active {failure : Option Failure} (hactive : G.active = some (a, failure)) :
    G.lineup = G.opening a ++ G.queued.flatMap G.opening ++ G.launching a := by
  simp [lineup, running_eq hactive]

theorem lineup_idle (hactive : G.active = none) : G.lineup = G.queued.flatMap G.opening := by
  simp [lineup, running, hactive]

/-- A chain without commands to begin begins none, and starts none. -/
theorem opening_launching_eq_nil {i : Nat} (h : ∀ f ∈ G.top i, f.isOpening = false) :
    G.opening i = [] ∧ G.launching i = [] := by
  cases htop : G.top i with
  | none => simp [opening, launching, htop]
  | some f =>
    have hf := h f htop
    refine ⟨by simp [opening, htop, Frame.opening_eq_nil hf], ?_⟩
    rw [launching, htop]
    exact Frame.launching_eq_nil (Frame.ne_start (Frame.isStart_eq_false hf))

/-! ## The line after a stride -/

/-- What is on top of the chain that strides. -/
theorem top_after (hc : G.chains[a]? = some c) : (G.after a rest t).top a = (t.frames ++ rest).head? := by
  rw [top, getElem?_after hc]
  rfl

/-- The commands of the ready list (`queued`) stand where they stood: chains other than the running one are not
    touched. -/
theorem Pace.queued_after (h : G.Pace a c frame rest t) :
    G.queued.flatMap (G.after a rest t).opening = G.queued.flatMap G.opening := by
  have hwakes := wakes_active h.active
  have hnotin := (List.nodup_cons.mp (hwakes ▸ h.orderly.nodup)).1
  refine List.flatMap_congr fun i hi => ?_
  have hmem : i ∈ G.queued ++ G.timers.map (·.chain) := List.mem_append_left _ hi
  have hlt : i < G.chains.length := h.orderly.lt_length (hwakes ▸ List.mem_cons_of_mem a hmem)
  have hne : i ≠ a := fun heq => hnotin (heq ▸ hmem)
  rw [opening, opening, top, top, getElem?_after_of_ne hlt hne]

/-- Where the running chain is after its stride (`Way`): it runs on, or it is behind the others, or it waits. -/
theorem places_after (G : Gear) (rest : List Frame) (hbegun : t.begun = []) (hfree : t.way.IsFree a) :
    (G.after a rest t).running = [a] ∧ (G.after a rest t).queued = G.queued ∨
      (G.after a rest t).running = [] ∧ (G.after a rest t).queued = G.queued ++ [a] ∨
      (G.after a rest t).running = [] ∧ (G.after a rest t).queued = G.queued := by
  cases hway : t.way with
  | on => exact .inl (by simp [running, queued, Gear.after, hway, hbegun])
  | back => exact .inr (.inl (by simp [running, queued, Gear.after, hway, hbegun, Wake.chain?]))
  | away => exact .inr (.inr (by simp [running, queued, Gear.after, hway, hbegun]))
  | stay =>
    rw [hway] at hfree
    exact hfree.elim

/-- A stride takes the command of its frame from the front of the line (`lineup`) and puts what it gathers behind the
    line. -/
theorem Pace.lineup_after (h : G.Pace a c frame rest t) :
    ∃ line, G.lineup = frame.opening ++ line ∧ (G.after a rest t).lineup = line ++ t.gathered := by
  have hqueued := h.queued_after
  have hold : G.lineup = frame.opening ++ (G.queued.flatMap G.opening ++ frame.launching) := by
    rw [lineup_active h.active, opening, launching, top_eq h.chain, h.frames, List.append_assoc]
    rfl
  refine ⟨_, hold, ?_⟩
  cases h.unfailingStride with
  | plain hstart hbegun hclosed hfree hopened =>
    have hnone := opening_launching_eq_nil (G := G.after a rest t) (i := a) <| by
      rw [top_after h.chain]
      intro f hf
      rcases List.mem_append.mp (List.mem_of_mem_head? hf) with hf | hf
      · exact hclosed f hf
      · exact h.rest_closed f hf
    have hgathered : t.gathered = [] :=
      List.flatMap_eq_nil_iff.mpr fun f hf =>
        Frame.launching_eq_nil (Frame.ne_start (Frame.isStart_eq_false (hclosed f hf)))
    rw [Frame.launching_eq_nil (Frame.ne_start hstart), hgathered, List.append_nil, List.append_nil, ← hqueued]
    rcases places_after G rest hbegun hfree with ⟨hrunning, hready⟩ | ⟨hrunning, hready⟩ | ⟨hrunning, hready⟩
    all_goals simp [lineup, hrunning, hready, hnone]
  | @collects frame t context cs hframe hbegun hstart hway hne hopened =>
    have htop : (G.after a rest t).top a = some (.start context G.groups.length cs) := by
      rw [top_after h.chain, hstart]
      rfl
    have hactive' : (G.after a rest t).active = some (a, none) := by simp only [Gear.after, hway]
    have hready : (G.after a rest t).queued = G.queued := by simp [queued, Gear.after, hway, hbegun]
    rw [lineup_active hactive', opening, launching, htop, hready, hqueued,
      Frame.launching_eq_nil (Frame.ne_start (Frame.isStart_eq_false hframe))]
    simp [Stride.gathered, hstart, Frame.opening, Frame.launching]
  | @starts t context n cs hbegun hnumber hbeat hway hopened =>
    obtain ⟨onChoice, hbeat⟩ := hbeat
    have hidle : (G.after a rest t).active = none := by simp only [Gear.after, hway]
    have hready : (G.after a rest t).queued = G.queued ++ (cs.zipIdx G.chains.length).map Prod.snd := by
      simp only [queued, Gear.after, hway, hbegun, List.filterMap_append, filterMap_launch]
    -- each of the new chains is about to run its command
    have hbegins : ((cs.zipIdx G.chains.length).map Prod.snd).flatMap (G.after a rest t).opening = cs := by
      have hone : ∀ p ∈ cs.zipIdx G.chains.length, (G.after a rest t).opening p.2 = [p.1] := by
        intro p hp
        rw [opening, top, getElem?_after_begun (hbegun ▸ hp)]
        rfl
      rw [List.flatMap_map, List.flatMap_congr hone, ← List.map_eq_flatMap, List.zipIdx_map_fst]
    rw [lineup_idle hidle, hready, List.flatMap_append, hqueued, hbegins]
    simp [Stride.gathered, hbeat, Frame.launching]

/-! ## The line while the chains take turns -/

/-- A chain without commands to begin may be put behind the others. -/
theorem lineup_append_queued (is : List Nat) (hchains : ∀ i, i ∈ G.running ++ G.queued → G'.top i = G.top i)
    (hrunning : G'.running = G.running) (hqueued : G'.queued = G.queued ++ is) (his : ∀ i ∈ is, G'.opening i = []) :
    G'.lineup = G.lineup := by
  have hopening : (G.running ++ G.queued).flatMap G'.opening = (G.running ++ G.queued).flatMap G.opening :=
    List.flatMap_congr fun i hi => by rw [opening, opening, hchains i hi]
  have hlaunching : G.running.flatMap G'.launching = G.running.flatMap G.launching :=
    List.flatMap_congr fun i hi => by rw [launching, launching, hchains i (List.mem_append_left _ hi)]
  have hnone : is.flatMap G'.opening = [] := List.flatMap_eq_nil_iff.mpr his
  rw [lineup, lineup, hrunning, hqueued, ← List.append_assoc, List.flatMap_append, hopening, hlaunching, hnone,
    List.append_nil]

/-- A chain that waits for its beat begins no command. -/
theorem opening_beat {i : Nat} (hc : G.chains[i]? = some c)
    (hbeat : ∃ context onChoice rest, c.frames = .beat context onChoice :: rest) : G.opening i = [] := by
  obtain ⟨context, onChoice, rest, hframes⟩ := hbeat
  rw [opening, top_eq hc, hframes]
  rfl

theorem opening_eq_nil_of_no_command {i : Nat} (h : ∀ c, G.chains[i]? = some c → ∀ k, .command k ∉ c.frames) :
    G.opening i = [] := by
  rw [opening]
  cases htop : G.top i with
  | none => rfl
  | some f =>
    obtain ⟨c, hc, hhead⟩ := Option.bind_eq_some_iff.mp htop
    cases f with
    | command k => exact absurd (List.mem_of_mem_head? hhead) (h c hc k)
    | acts | settle | announce | advance | start | beat | reportEnd | leave | sleep => rfl

/-- Turns leave the line (`lineup`) as it is.  The owner of a group that is woken waits for a beat, so it has no
    command to begin; and chains that have waited for a time have none either. -/
theorem Orderly.lineup_turns (h : G.Orderly) {m : Stage.Move} (hturns : G.Turns m G') : G'.lineup = G.lineup := by
  cases hturns with
  | @ends chain failure c hactive hc hnil =>
    have htop : G.top chain = none := by rw [top_eq hc, hnil]; rfl
    have hqueued : (c.group.toList.map (Wake.over · failure)).filterMap Wake.chain? = [] := by cases c.group <;> rfl
    have hsame : ∀ i, ((G.chains.modify chain fun c => { c with outcome := some failure })[i]?).bind (·.frames.head?) =
        G.top i := by
      intro i
      rw [List.getElem?_modify, top]
      cases G.chains[i]? with
      | none => rfl
      | some d =>
        by_cases hi : chain = i
        · simp [hi]
        · simp [hi]
    rw [lineup_active hactive, lineup_idle rfl, opening, launching, htop]
    simp only [Option.elim_none, List.nil_append, List.append_nil, queued, List.filterMap_append, hqueued]
    exact List.flatMap_congr fun i _ => by rw [opening, opening, ← hsame i]; rfl
  | strays hactive hnone =>
    obtain ⟨c, hc, -⟩ := h.alive _ (mem_wakes hactive)
    rw [hnone] at hc
    cases hc
  | @resumes chain failure ready hactive hready =>
    -- no chain is about to start a beat
    have hlaunching : G.launching chain = [] := by
      rw [launching]
      cases htop : G.top chain with
      | none => rfl
      | some f =>
        obtain ⟨c, hc, hhead⟩ := Option.bind_eq_some_iff.mp htop
        refine Frame.launching_eq_nil ?_
        rintro context n cs rfl
        exact h.no_start_idle hactive hc context n cs (List.mem_of_mem_head? hhead)
    have hqueued : G.queued = chain :: ready.filterMap Wake.chain? := by
      rw [queued, hready]
      rfl
    rw [lineup_idle hactive, hqueued, lineup_active rfl, List.flatMap_cons]
    exact (congrArg _ hlaunching).trans (List.append_nil _)
  | @counts number failure ready g hactive hready hg =>
    obtain ⟨c, hc, hbeat, -⟩ := h.owner_waits hactive hg (h.unsettled number g hg (h.left_pos hready hg))
      (owed_pos (hready ▸ List.mem_cons_self))
    have hqueued : G.queued = ready.filterMap Wake.chain? := by rw [queued, hready]; rfl
    refine lineup_append_queued (if g.tells failure then [g.owner] else []) (fun i _ => rfl) rfl ?_ fun i hi => ?_
    · rw [hqueued, queued, List.filterMap_append]
      split <;> rfl
    · split at hi
      · rw [List.mem_singleton.mp hi]
        exact opening_beat hc hbeat
      · cases hi
  | @misses number failure ready hactive hready hnone =>
    have hqueued : G.queued = ready.filterMap Wake.chain? := by rw [queued, hready]; rfl
    exact lineup_append_queued [] (fun i _ => rfl) rfl (by rw [hqueued, List.append_nil]; rfl) (by simp)
  | @wakes woken kept failure _ hperm =>
    refine lineup_append_queued (woken.map (·.chain)) (fun i _ => rfl) rfl ?_ fun i hi => ?_
    · simp only [queued, List.filterMap_append, filterMap_resume]
    · obtain ⟨timer, htimer, rfl⟩ := List.mem_map.mp hi
      refine opening_eq_nil_of_no_command fun c hc => ?_
      exact h.timed timer (hperm.mem_iff.mpr (List.mem_append_left kept htimer)) c hc
  | @strikes before after chain failure _ hready =>
    refine lineup_append_queued [] (fun i _ => rfl) rfl ?_ (by simp)
    simp [queued, hready, Wake.chain?]

/-- Nor does a new chain without commands change it. -/
theorem Orderly.lineup_spawns (h : G.Orderly) {frames : List Frame} (hclosed : ∀ f ∈ frames, f.isOpening = false)
    (hG : G' = { G with chains := G.chains ++ [{ frames }], ready := G.ready ++ [.resume G.chains.length none] }) :
    G'.lineup = G.lineup := by
  have hchains : G'.chains = G.chains ++ [{ frames := frames }] := by rw [hG]
  have hrunning : G'.running = G.running := by rw [hG]; rfl
  refine lineup_append_queued [G.chains.length] (fun i hi => ?_) hrunning ?_ fun i hi => ?_
  · have hmem : i ∈ G.wakes := by
      rw [wakes, ← List.append_assoc]
      exact List.mem_append_left _ hi
    rw [top, top, hchains, List.getElem?_append_left (h.lt_length hmem)]
  · rw [hG]
    simp [queued, Wake.chain?]
  · rw [List.mem_singleton.mp hi]
    refine opening_eq_nil_of_no_command fun c hc k hk => ?_
    rw [hchains, List.getElem?_concat_length] at hc
    cases hc
    cases hclosed _ hk

end Gear

/-! ## The account of a session -/

/-- The commands that have not been collected. -/
def Session.ahead (s : Session) : List Command := s.script.commands.drop s.cursor

/-- The journal of one performance: a script without conditions and jumps is loaded once, the listener stays, and only
    advances collect beats. -/
structure Performance (journal : List Deed) : Prop where
  once : loads journal ≤ 1
  straight : ∀ script, .load script ∈ journal → ∀ c ∈ script.commands, c.goal? = none
  kept : .attach false ∉ journal
  unlooked : ∀ beat, .collect none beat ∉ journal

/-- A deed of a performance. -/
def Deed.performs : Deed → Bool
  | .load script => script.commands.all (·.goal?.isNone)
  | .attach on => on
  | .collect number _ => number.isSome
  | _ => true

/-- Whether a journal is one of a performance (`Performance`) can be computed. -/
theorem performance_iff {journal : List Deed} :
    Performance journal ↔ loads journal ≤ 1 ∧ journal.all Deed.performs = true := by
  rw [List.all_eq_true]
  constructor
  · refine fun h => ⟨h.once, fun d hd => ?_⟩
    -- each kind of deed is excluded by one of the conditions, or by none
    cases d with
    | load script => simpa [Deed.performs] using h.straight script hd
    | attach on =>
      cases on with
      | false => exact absurd hd h.kept
      | true => rfl
    | collect number beat =>
      cases number with
      | none => exact absurd hd (h.unlooked beat)
      | some n => rfl
    | answer | offer | jump | finish | adjust | pass => rfl
  · rintro ⟨honce, hall⟩
    refine ⟨honce, fun script hscript => ?_, fun hkept => ?_, fun beat hbeat => ?_⟩
    · simpa [Deed.performs] using hall _ hscript
    · cases hall _ hkept
    · cases hall _ hbeat

theorem Performance.of_append (js : List Deed) {ks : List Deed} (h : Performance (js ++ ks)) : Performance ks where
  once := by
    have honce := h.once
    rw [loads, List.countP_append] at honce
    exact Nat.le_of_add_left_le honce
  straight script hscript := h.straight script (List.mem_append_right js hscript)
  kept hkept := h.kept (List.mem_append_right js hkept)
  unlooked beat hbeat := h.unlooked beat (List.mem_append_right js hbeat)

/-- A deed that leaves the script, the cursor and the end as they are, and the listener where it is. -/
def Deed.isNeutral : Deed → Bool
  | .answer _ _ | .offer _ _ _ | .adjust _ | .pass _ _ | .attach true => true
  | _ => false

namespace Session

/-- `s.Lined journal line shown` — the script is what has begun, then the line, then what is ahead; what has begun has
    been shown. -/
structure Lined (s : Session) (journal : List Deed) (line shown : List Command) : Prop where
  commands_eq : ∃ begun, s.script.commands = begun ++ (line ++ s.ahead) ∧ shown = begun.filter Command.isShown
  straight : ∀ c ∈ s.script.commands, c.goal? = none
  ended : s.finished = true → s.ahead = []
  attached : s.attached = true
  unread : loads journal = 0 → s.script.commands = []

variable {s : Session} {js : List Deed} {line shown : List Command}

/-- The line of a session that has not been begun is empty. -/
theorem Lined.eq_nil (h : s.Lined js line shown) (hloads : loads js = 0) : line = [] ∧ shown = [] := by
  obtain ⟨begun, hcommands, hshown⟩ := h.commands_eq
  rw [h.unread hloads] at hcommands
  have hnil := List.append_eq_nil_iff.mp hcommands.symm
  refine ⟨(List.append_eq_nil_iff.mp hnil.2).1, ?_⟩
  rw [hshown, hnil.1]
  rfl

/-- Deeds that have to do neither with the cursor nor with the script. -/
theorem Lined.neutral (h : s.Lined js line shown) {d : Deed} (hd : d.isNeutral = true) :
    (s.after d).Lined (d :: js) line shown := by
  have hload : loads (d :: js) = loads js := by
    cases d with
    | load => cases hd
    | answer | collect | offer | jump | finish | adjust | attach | pass => simp [loads, Deed.isLoad]
  -- what the account speaks of is left alone: script, cursor, end and listener
  have hsame : (s.after d).script = s.script ∧ (s.after d).cursor = s.cursor ∧ (s.after d).finished = s.finished ∧
      (s.after d).attached = true := by
    cases d with
    | attach on =>
      cases on with
      | false => cases hd
      | true => exact ⟨rfl, rfl, rfl, rfl⟩
    | pass context passage => cases context <;> exact ⟨rfl, rfl, rfl, h.attached⟩
    | answer | offer | adjust => exact ⟨rfl, rfl, rfl, h.attached⟩
    | load | collect | jump | finish => cases hd
  obtain ⟨hscript, hcursor, hfinished, hattached⟩ := hsame
  have hahead : (s.after d).ahead = s.ahead := by rw [ahead, ahead, hscript, hcursor]
  exact ⟨hscript ▸ hahead ▸ h.commands_eq, hscript ▸ h.straight, hfinished ▸ hahead ▸ h.ended, hattached,
    hload ▸ hscript ▸ h.unread⟩

/-- A script is loaded on a session that has not been begun: all of it is `ahead`. -/
theorem Lined.load (h : s.Lined js line shown) {script : Script} (hperformance : Performance (.load script :: js)) :
    (s.after (.load script)).Lined (.load script :: js) line shown := by
  have hloads : loads (.load script :: js) = loads js + 1 := List.countP_cons_of_pos rfl
  have hnone : loads js = 0 := by
    have honce := hperformance.once
    omega
  obtain ⟨rfl, rfl⟩ := h.eq_nil hnone
  refine ⟨⟨[], rfl, rfl⟩, hperformance.straight script List.mem_cons_self, nofun, h.attached, fun hzero => ?_⟩
  omega

/-- What others do on the side (`isAside`).  In a performance they collect nothing, and load nothing after the first
    script. -/
theorem Lined.asides {ds : List Deed} (h : s.Lined js line shown) (hds : ∀ d ∈ ds, d.isAside = true)
    (hperformance : Performance (ds ++ js)) : (s.replay ds).Lined (ds ++ js) line shown := by
  -- by induction on the deeds, of which the last one is at the front
  induction ds with
  | nil => exact h
  | cons d ds ih =>
    have hprev := ih (fun e he => hds e (List.mem_cons_of_mem d he)) (.of_append [d] hperformance)
    rw [Session.replay_cons]
    have hd := hds d List.mem_cons_self
    cases d with
    | load script => exact hprev.load hperformance
    | answer | adjust => exact hprev.neutral rfl
    | attach on =>
      cases on with
      | false => exact absurd List.mem_cons_self hperformance.kept
      | true => exact hprev.neutral rfl
    | collect number beat =>
      cases number with
      -- others do not collect in a performance
      | none => exact absurd List.mem_cons_self (hperformance.unlooked beat)
      | some n => cases hd
    | offer | jump | finish | pass => cases hd

/-- A beat is put behind the line, and the cursor is moved past it. -/
theorem Lined.collect (h : s.Lined js line shown) (n : Nat) :
    (s.after (.collect (some n) s.nextBeat)).Lined (.collect (some n) s.nextBeat :: js) (line ++ s.nextBeat) shown := by
  obtain ⟨begun, hcommands, hshown⟩ := h.commands_eq
  have hahead : s.nextBeat ++ (s.after (.collect (some n) s.nextBeat)).ahead = s.ahead := by
    obtain ⟨rest, hrest⟩ := s.nextBeat_prefix
    have hdrop : (s.after (.collect (some n) s.nextBeat)).ahead = s.ahead.drop s.nextBeat.length :=
      (List.drop_drop ..).symm
    have hrest : s.nextBeat ++ rest = s.ahead := hrest
    rw [hdrop, ← hrest, List.drop_left]
  refine ⟨⟨begun, ?_, hshown⟩, h.straight, fun hfinished => ?_, h.attached, fun hloads => h.unread ?_⟩
  · rw [List.append_assoc, hahead]
    exact hcommands
  · rw [h.ended hfinished] at hahead
    exact (List.append_eq_nil_iff.mp hahead).2
  · simpa [loads, Deed.isLoad] using hloads

/-- The end of the scene is come to where nothing is left to collect. -/
theorem Lined.finish (h : s.Lined js line shown) (hlast : s.nextBeat = []) :
    (s.after .finish).Lined (.finish :: js) line shown where
  commands_eq := h.commands_eq
  straight := h.straight
  ended _ := takeBeat_eq_nil.mp hlast
  attached := h.attached
  unread hloads := h.unread (by simpa [loads, Deed.isLoad] using hloads)

/-- The first command of the line begins, and is shown if it can be. -/
theorem Lined.begins {c : Command} (h : s.Lined js (c :: line) shown) :
    s.Lined js line (shown ++ [c].filter Command.isShown) := by
  obtain ⟨begun, hcommands, hshown⟩ := h.commands_eq
  refine ⟨⟨begun ++ [c], ?_, ?_⟩, h.straight, h.ended, h.attached, h.unread⟩
  · rw [hcommands]
    simp
  · rw [hshown, List.filter_append]

end Session

section Strides

variable {react : Reactions} {s : Session} {js : List Deed} {line shown : List Command} {number chain : Nat}
  {group : Option Nat} {frame : Frame} {t : Stride}

/-- A `Round` collects a beat or comes to the end. -/
theorem Round.lined {beat : List Command} {script : Script} {context : Context}
    (hround : Round beat script number chain context t) (hbeat : s.nextBeat = beat) (h : s.Lined js line shown) :
    (s.replay t.deeds).Lined (t.deeds ++ js) (line ++ t.gathered) (shown ++ shownIn t.calls) := by
  have hcollect := h.collect number
  rw [hbeat] at hcollect
  cases hround with
  | ends hlast =>
    rw [hlast] at hcollect hbeat
    have hreset := hcollect.neutral (d := .pass context .reset) rfl
    have hfinish := hreset.finish <| by
      refine Eq.trans ?_ hbeat
      cases context <;> rfl
    simpa [Session.replay, Stride.gathered, Frame.launching, shownIn] using hfinish
  | collects _ => simpa [Session.replay, Stride.gathered, Frame.launching, shownIn] using hcollect

/-- A stride does to the account (`Lined`) what it does to the line: its command begins, and what it gathers is
    collected. -/
theorem Plays.lined (hplays : Plays react s number group chain none frame t)
    (h : s.Lined js (frame.opening ++ line) shown) :
    (s.replay t.deeds).Lined (t.deeds ++ js) (line ++ t.gathered) (shown ++ shownIn t.calls) := by
  have hplain : frame.opening = [] → t.deeds = [] → t.gathered = [] → shownIn t.calls = [] →
      (s.replay t.deeds).Lined (t.deeds ++ js) (line ++ t.gathered) (shown ++ shownIn t.calls) := by
    intro hopening hdeeds hgathered hcalls
    rw [hopening] at h
    rw [hdeeds, hgathered, hcalls, List.append_nil, List.append_nil]
    exact h
  have hleave : ∀ context, frame.opening = [] → t.deeds = [.pass context .leave] → t.gathered = [] →
      shownIn t.calls = [] →
      (s.replay t.deeds).Lined (t.deeds ++ js) (line ++ t.gathered) (shown ++ shownIn t.calls) := by
    intro context hopening hdeeds hgathered hcalls
    rw [hopening] at h
    rw [hdeeds, hgathered, hcalls, List.append_nil, List.append_nil]
    exact h.neutral rfl
  cases hplays with
  | idles hidle _ =>
    cases frame with
    | command c =>
      -- without the listener nothing would be shown
      have hshown : c.isShown = false := hidle.resolve_left (by simp [h.attached])
      simpa [Session.replay, Stride.gathered, shownIn, hshown] using h.begins
    | acts | settle | announce | advance | start | beat | reportEnd | leave | sleep => exact hplain rfl rfl rfl rfl
  | @shows c cue n hshown _ _ _ =>
    simpa [Session.replay, Stride.gathered, Frame.launching, shownIn, Call.command?, hshown] using h.begins
  | @offers c cue n choice hshown _ _ =>
    have hoffer := h.begins.neutral (d := .offer group c choice) rfl
    simpa [Session.replay, Stride.gathered, Frame.launching, shownIn, Call.command?, hshown] using hoffer
  | @jumps c label position hgoal =>
    -- there is no such command in the script
    obtain ⟨begun, hcommands, -⟩ := h.commands_eq
    have hnone := h.straight c (by simp [hcommands, Frame.opening])
    rw [hgoal] at hnone
    cases hnone
  | dwells | nests | announces => exact hplain rfl rfl rfl rfl
  | starts => exact hplain rfl rfl rfl rfl
  | reports => exact hplain rfl rfl rfl rfl
  | deserted hdetached => exact absurd (h.attached.symm.trans hdetached) (by simp)
  | @stops context onChoice => exact hleave context rfl rfl rfl rfl
  | @leaves context => exact hleave context rfl rfl rfl rfl
  | @enters context t hfinished hround =>
    have henter := h.neutral (d := .pass context .enter) rfl
    have hbeat : (s.after (.pass context .enter)).nextBeat = s.nextBeat := by cases context <;> rfl
    have hround := hround.lined hbeat henter
    rw [Session.replay_append, List.append_assoc]
    exact hround
  | continues hfinished hround => exact hround.lined rfl h

end Strides

/-! ## All runs -/

namespace Stage

variable {react : Reactions} {w₀ w w' : Stage} {m : Move}

/-- The script of the session is what has been shown, what stands in line and what is ahead. -/
def Lined (w : Stage) : Prop := w.session.Lined w.journal w.gear.lineup (shownIn w.calls)

/-- What has been shown goes on with what is shown. -/
theorem Records.shownIn_eq {deeds : List Deed} {calls : List Call} (h : Records w deeds calls w') :
    shownIn w'.calls = shownIn w.calls ++ shownIn calls := by
  rw [h.calls_eq, shownIn, List.filterMap_append]
  rfl

/-- One move keeps the account (`Lined`). -/
theorem Lined.change (h : w.Lined) (horderly : w.OrderlyUnfailing) (hcommand : m.RunsNoCommand)
    (hperformance : Performance w'.journal) (hchange : Change react w m w') : w'.Lined := by
  have hrecorded : ∀ (deeds : List Deed) {asides : List Deed} {calls : List Call} {line : List Command},
      Records w (asides ++ deeds) calls w' → (∀ d ∈ asides, d.isAside = true) → w'.gear.lineup = line →
      (w.session.replay deeds).Lined (deeds ++ w.journal) line (shownIn w.calls ++ shownIn calls) → w'.Lined := by
    intro deeds asides calls line hrecords hasides hline hlined
    have hjournal : w'.journal = asides ++ (deeds ++ w.journal) := by rw [hrecords.journal_eq, List.append_assoc]
    rw [Lined, hrecords.shownIn_eq, hrecords.session_eq, Session.replay_append, hjournal, hline]
    exact hlined.asides hasides (hjournal ▸ hperformance)
  have hstill : ∀ {asides : List Deed}, Records w asides [] w' → (∀ d ∈ asides, d.isAside = true) →
      w'.gear.lineup = w.gear.lineup → w'.Lined := by
    intro asides hrecords hasides hline
    have hnone : shownIn w.calls ++ shownIn [] = shownIn w.calls := List.append_nil _
    refine hrecorded [] (by rw [List.append_nil]; exact hrecords) hasides hline ?_
    rw [hnone]
    exact h
  -- the account is that of the session, so each change is looked at with the line that it leaves
  cases hchange with
  | aside haside =>
    obtain ⟨asides, hasides, hrecords⟩ := haside.records
    exact hstill hrecords hasides (by rw [haside.gear_eq])
  | @strides _ chain failure frame rest t asides hactive hframes hplays hgear hasides hrecords =>
    have hstride := horderly.unfailingStride h.attached hactive hplays
    obtain rfl : failure = none := horderly.unfailing.active chain failure hactive
    obtain ⟨c, hc, hcons⟩ := framesOf_eq_some hframes
    have hpace : w.gear.Pace chain c frame rest t := ⟨horderly.orderly, hactive, hc, hcons, hstride⟩
    obtain ⟨line, hbefore, hafter⟩ := hpace.lineup_after
    rw [Lined, hbefore] at h
    exact hrecorded t.deeds hrecords hasides (hgear ▸ hafter) (hplays.lined h)
  | @acts _ chain act acts rest failure asides hactive hframes hperform hgear hasides hrecords =>
    obtain ⟨c, hc, hcons⟩ := framesOf_eq_some hframes
    have hpace : w.gear.Pace chain c (.acts (act :: acts)) rest { frames := [.acts acts] } :=
      ⟨horderly.orderly, hactive, hc, hcons, UnfailingStride.acts⟩
    obtain ⟨line, hbefore, hafter⟩ := hpace.lineup_after
    refine hstill hrecords hasides ?_
    rw [horderly.gear_acts hframes hperform hgear, hafter, hbefore]
    simp [Stride.gathered, Frame.launching, Frame.opening]
  | turns hturns hrecords => exact hstill hrecords (by simp) (horderly.orderly.lineup_turns hturns)
  | spawns houtside hgear hrecords =>
    exact hstill hrecords (by simp) (horderly.orderly.lineup_spawns (closed_of_outside houtside hcommand) hgear)

/-- On a new stage there is no script, and no command has been collected. -/
theorem New.lined (h : w.New) (hattached : w.session.attached = true) : w.Lined := by
  have hcommands : w.session.script.commands = [] := by rw [h.session_eq]
  have hlineup : w.gear.lineup = [] := by rw [h.gear_eq]; rfl
  have hcalls : w.calls = [] := by simp [calls, h.seen_eq]
  have hahead : w.session.ahead = [] := by rw [Session.ahead, hcommands, List.drop_nil]
  rw [Lined, hlineup, hcalls]
  refine ⟨⟨[], ?_, rfl⟩, ?_, fun _ => hahead, hattached, fun _ => hcommands⟩
  · rw [hcommands, hahead]
    rfl
  · simp [hcommands]

/-- A run in which nobody outside runs a command or makes a chain fail. -/
abbrev RunsOn (react : Reactions) : Stage → Stage → Prop :=
  ReachesBy (fun m => m.RunsNoCommand ∧ m.CancelsNone) react

/-- In a performance (`Performance`) the chains stay in good order, nothing fails, and the account is kept. -/
theorem RunsOn.orderlyUnfailing_lined (h₀ : w₀.New) (hattached : w₀.session.attached = true)
    (hreact : ListenerSucceeds react) (h : RunsOn react w₀ w) (hperformance : Performance w.journal) :
    w.OrderlyUnfailing ∧ w.Lined := by
  induction h with
  | refl => exact ⟨h₀.orderlyUnfailing, h₀.lined hattached⟩
  | @tail v v' _ hmove ih =>
    obtain ⟨m, ⟨hcommand, hcancel⟩, hmakes⟩ := hmove
    have hchange := hmakes.change
    obtain ⟨deeds, calls, hrecords⟩ := hchange.records
    obtain ⟨horderly, hlined⟩ := ih (.of_append deeds (hrecords.journal_eq ▸ hperformance))
    exact ⟨horderly.change hlined.attached hreact hcommand hcancel hchange,
      hlined.change horderly hcommand hperformance hchange⟩

/-- While no advance is in flight (`inFlight`) no frame has a context to leave. -/
theorem context?_eq_none (hflights : ∀ context, w.inFlight context = 0) {c : Chain} (hc : c ∈ w.chains) {f : Frame}
    (hf : f ∈ c.frames) : f.context? = none := by
  cases hcontext : f.context? with
  | none => rfl
  | some context =>
    have hchain := List.sum_eq_zero_iff.mp (hflights context) _ (List.mem_map.mpr ⟨c, hc, rfl⟩)
    have hframe := List.sum_eq_zero_iff.mp hchain _ (List.mem_map.mpr ⟨f, hf, rfl⟩)
    simp [Frame.holds, hcontext] at hframe

/-- A command that stands in line belongs to a beat that some advance waits for, or is about to start; so without an
    advance there is none. -/
theorem lineup_eq_nil (h : w.gear.Orderly) (hflights : ∀ context, w.inFlight context = 0) : w.gear.lineup = [] := by
  have hlaunching : ∀ i, w.gear.launching i = [] := by
    intro i
    rw [Gear.launching]
    cases htop : w.gear.top i with
    | none => rfl
    | some f =>
      obtain ⟨c, hc, hhead⟩ := Option.bind_eq_some_iff.mp htop
      have hfree := context?_eq_none hflights (List.mem_of_getElem? hc) (List.mem_of_mem_head? hhead)
      refine Frame.launching_eq_nil ?_
      rintro context n cs rfl
      cases hfree
  have hopening : ∀ i ∈ w.gear.running ++ w.gear.queued, w.gear.opening i = [] := by
    intro i hi
    refine Gear.opening_eq_nil_of_no_command fun c hc k hk => ?_
    have hwakes : i ∈ w.gear.wakes := by
      rw [Gear.wakes, ← List.append_assoc]
      exact List.mem_append_left _ hi
    -- the chain owes its end to a group, so the owner of the group waits
    obtain ⟨group, hgroup⟩ := Option.ne_none_iff_exists'.mp ((h.opensOnTop c (List.mem_of_getElem? hc)).grouped k hk)
    have howes : 1 ≤ c.owes group := by
      simp [Chain.owes, hgroup, h.outcome_eq hwakes hc]
    have howed : 1 ≤ w.gear.owed group := by
      have hle : c.owes group ≤ (w.gear.chains.map (Chain.owes group)).sum :=
        List.single_le_sum (fun _ _ => Nat.zero_le _) _ (List.mem_map.mpr ⟨c, List.mem_of_getElem? hc, rfl⟩)
      rw [Gear.owed]
      omega
    have hleft := h.accounts group ▸ howed
    cases hg : w.gear.groups[group]? with
    | none => simp [hg] at hleft
    | some g =>
      rw [hg] at hleft
      obtain ⟨d, hd, ⟨⟨context, onChoice, rest, hframes⟩, -⟩ | ⟨context, cs, hmem⟩⟩ :=
        h.owners group g hg (h.unsettled group g hg hleft) howed
      · cases context?_eq_none hflights (List.mem_of_getElem? hd) (f := .beat context onChoice) (by simp [hframes])
      · cases context?_eq_none hflights (List.mem_of_getElem? hd) hmem
  rw [Gear.lineup, List.flatMap_eq_nil_iff.mpr hopening, List.flatMap_eq_nil_iff.mpr fun i _ => hlaunching i]
  rfl

/-- In every `Performance` the calls to the listener begin in the order of the script, none of them twice; and when the
    scene is over and no advance is in flight (`inFlight`), all texts, images and choices have been shown. -/
theorem shown_in_source_order (h₀ : w₀.New) (hattached : w₀.session.attached = true)
    (hreact : ListenerSucceeds react) (h : RunsOn react w₀ w) (hperformance : Performance w.journal) :
    shownIn w.calls <+: w.session.script.commands.filter Command.isShown ∧
      (w.session.finished = true → (∀ context, w.inFlight context = 0) →
        shownIn w.calls = w.session.script.commands.filter Command.isShown) := by
  obtain ⟨horderly, hlined⟩ := h.orderlyUnfailing_lined h₀ hattached hreact hperformance
  obtain ⟨begun, hcommands, hshown⟩ := hlined.commands_eq
  constructor
  · rw [hcommands, hshown, List.filter_append]
    exact List.prefix_append ..
  · intro hfinished hflights
    rw [lineup_eq_nil horderly.orderly hflights, hlined.ended hfinished, List.append_nil, List.append_nil] at hcommands
    rw [hcommands, hshown]

def riddles : Script :=
  Script.ofCommands "parsed"
    [⟨.whole 0, ["@choice", "v", "x", "y"], .choice "v" ["x", "y"]⟩,
      ⟨.whole 1, ["@choice", "w", "x", "y"], .choice "w" ["x", "y"]⟩]

theorem riddles_read : riddles.Read := by
  have hparse : Script.parse defaultMark unnamedSource "@choice, v, x, y\n@choice, w, x, y" = .ok riddles := rfl
  exact .text hparse

/-- A listener that answers every choice at once. -/
def answering : Reactions
  | .choice var, _ => [.setVariable var "x"]
  | _, _ => []

theorem answering_succeeds : ListenerSucceeds answering := by
  intro cue n _ act hact
  cases cue with
  | choice var =>
    rw [List.mem_singleton.mp hact]
    exact fun _ => rfl
  | text | image | ended | heard => cases hact

theorem RunsOn.begin (react : Reactions) (w : Stage) (context : Context) :
    RunsOn react w (w.spawn [.advance context] none) :=
  .single ⟨.spawn [.advance context], ⟨by simp [Move.RunsNoCommand], trivial⟩, .spawn (by simp [Frame.FromOutside])⟩

/-- Two advances have begun side by side. -/
def duet : Stage :=
  let w := (({} : Stage).load riddles).1.publish answering (({} : Stage).load riddles).2
  (w.spawn [.advance .own] none).spawn [.advance .own] none

/-- When both are over a third one comes to the end. -/
def solved : Stage :=
  ((duet.steps answering 26).bind fun w => (w.spawn [.advance .own] none).steps answering 6).getD {}

theorem runsOn_solved : RunsOn answering {} solved := by
  have hrun : ((duet.steps answering 26).bind fun w => (w.spawn [.advance .own] none).steps answering 6) =
      some solved := rfl
  obtain ⟨v, hboth, hlast⟩ := Option.bind_eq_some_iff.mp hrun
  have hduet : RunsOn answering {} duet :=
    .head ⟨.load, ⟨trivial, trivial⟩, .load riddles_read⟩
      ((RunsOn.begin answering _ .own).trans (RunsOn.begin answering _ .own))
  have hover : RunsOn answering {} v := hduet.trans (ReachesBy.steps ⟨trivial, trivial⟩ hboth)
  exact hover.trans ((RunsOn.begin answering v .own).trans (ReachesBy.steps ⟨trivial, trivial⟩ hlast))

/-- Two advances collect a riddle each before one has been shown. -/
theorem shown_in_source_order_riddles :
    ({} : Stage).New ∧ ({} : Stage).session.attached = true ∧
      ListenerSucceeds answering ∧ RunsOn answering {} solved ∧ Performance solved.journal ∧
      solved.session.finished = true ∧ (∀ context, solved.inFlight context = 0) ∧
      shownIn solved.calls = riddles.commands := by
  have hnew : ({} : Stage).New := ⟨⟨rfl, rfl, rfl⟩, rfl, rfl⟩
  have hperformance : Performance solved.journal := performance_iff.mpr ⟨Nat.le_refl 1, rfl⟩
  have hflights : ∀ context, solved.inFlight context = 0 := fun _ => rfl
  obtain ⟨-, hall⟩ := shown_in_source_order hnew rfl answering_succeeds runsOn_solved hperformance
  exact ⟨hnew, rfl, answering_succeeds, runsOn_solved, hperformance, rfl, hflights, hall rfl hflights⟩

end Stage

end ChatScene
