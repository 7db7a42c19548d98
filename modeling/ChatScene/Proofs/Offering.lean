/-
  Variables that a scene has offered.

  When reactions neither call nor fail (`NeitherCallsNorFails`), nobody sets a variable while a session advances.  The
  choice that waits for an answer afterwards is the one that the listener was shown last, and it is a choice of the
  script.  So if it gets one of its answers, every variable still has a value that a choice of the script offers for it.

  1. **Stores** — `Script.Offers store`: every variable has one of the answers of a choice of the script for it.
     Setting one more such answer keeps this (`Script.Offers.put`).

  2. **Steps** — no stride sets a variable (`Plays.same_replay`), and neither do handlers and the acts of reactions; so
     no step does (`ActsNeitherCallNorFail.store_step`).

  3. **Plots** — `Plot.Leads p calls q`: the scene has gone on from `p` to `q` with these calls to the listener, and
     what waits for an answer is the choice that was shown last (`lastOffer`).  An advance is like that
     (`Advances.leads`).

  4. **Between rounds** (`Stage.BetweenRounds`) — nothing is on its way and all variables have been offered.  An advance
     comes back to this (`BetweenRounds.advance`), and so does an answer to the choice that waits
     (`BetweenRounds.setVariable`).
-/
import ChatScene.Proofs.Forward
import ChatScene.Proofs.Moves

namespace ChatScene

/-! ## Offered variables -/

/-- `s.Offers store` — every variable has one of the answers of a choice of the script for that variable. -/
def Script.Offers (s : Script) (store : List (String × String)) : Prop :=
  ∀ entry ∈ store, ∃ d ∈ s.commands, ∃ choices, d.body = .choice entry.1 choices ∧ entry.2 ∈ choices

/-- An entry of the store after one has been put (`putVariable`): the new one, or an old one. -/
theorem mem_putVariable {name value : String} {store : List (String × String)} {entry : String × String}
    (h : entry ∈ putVariable name value store) : entry = (name, value) ∨ entry ∈ store := by
  -- a variable keeps its place, or comes last if it is new
  induction store with
  | nil => exact .inl (List.mem_singleton.mp h)
  | cons first store ih =>
    obtain ⟨k, v⟩ := first
    rw [putVariable] at h
    split at h
    · rename_i hk
      subst hk
      rcases List.mem_cons.mp h with rfl | h
      · exact .inl rfl
      · exact .inr (List.mem_cons_of_mem _ h)
    · rcases List.mem_cons.mp h with rfl | h
      · exact .inr List.mem_cons_self
      · rcases ih h with rfl | h
        · exact .inl rfl
        · exact .inr (List.mem_cons_of_mem _ h)

/-- One more variable with an answer that is offered for it (`Offers`). -/
theorem Script.Offers.put {s : Script} {store : List (String × String)} (h : s.Offers store) {d : Command}
    (hd : d ∈ s.commands) {name value : String} {choices : List String} (hbody : d.body = .choice name choices)
    (hvalue : value ∈ choices) : s.Offers (putVariable name value store) := by
  intro entry hentry
  rcases mem_putVariable hentry with rfl | hentry
  · exact ⟨d, hd, choices, hbody, hvalue⟩
  · exact h entry hentry

/-! ## Who sets variables -/

/-- Passing through a context sets no variable and leaves the listener `attached`. -/
theorem Session.same_pass (s : Session) (context : Context) (passage : Passage) :
    (s.after (.pass context passage)).store = s.store ∧ (s.after (.pass context passage)).attached = s.attached := by
  cases context <;> exact ⟨rfl, rfl⟩

theorem Round.same_replay {beat : List Command} {script : Script} {number chain : Nat}
    {context : Context} {t : Stride} (h : Round beat script number chain context t) (s : Session) :
    (s.replay t.deeds).store = s.store ∧ (s.replay t.deeds).attached = s.attached := by
  cases h with
  | ends => exact Session.same_pass _ _ _
  | collects => exact ⟨rfl, rfl⟩

/-- No stride (`Plays`) of a chain sets a variable, or detaches the listener. -/
theorem Plays.same_replay {react : Reactions} {s : Session} {number : Nat} {group : Option Nat}
    {chain : Nat} {failure : Option Failure} {frame : Frame} {t : Stride}
    (h : Plays react s number group chain failure frame t) (s' : Session) :
    (s'.replay t.deeds).store = s'.store ∧ (s'.replay t.deeds).attached = s'.attached := by
  cases h with
  | @enters context t _ hround =>
    have hafter := hround.same_replay (s'.replay [.pass context .enter])
    have hpass := Session.same_pass s' context .enter
    rw [Session.replay_append]
    exact ⟨hafter.1.trans hpass.1, hafter.2.trans hpass.2⟩
  | continues _ hround => exact hround.same_replay s'
  | stops | leaves | gives => exact Session.same_pass _ _ _
  | idles | shows | offers | jumps | dwells | nests | announces | starts | reports | deserted | fails => exact ⟨rfl, rfl⟩

theorem SamePlotAndGear.store_eq {w v : Stage} (h : SamePlotAndGear w v) : v.session.store = w.session.store :=
  congrArg (·.session.store) h.plot_eq

namespace Stage

variable {react : Reactions} {w v : Stage} {k fuel : Nat} {context : Context} {failure : Option Failure}

/-- All acts that are left of reactions neither call nor fail. -/
def ActsNeitherCallNorFail (w : Stage) : Prop := w.gear.Every (Frame.ActsAre fun act => act.neitherCallsNorFails = true)

theorem lasting_actsNeitherCallNorFail (hreact : NeitherCallsNorFails react) : Lasting react
    (Frame.ActsAre fun act => act.neitherCallsNorFails = true) :=
  lasting_actsAre fun cue n _ => hreact cue n

/-- What is left of reactions stays like that, by `Stage.Change.every`. -/
theorem ActsNeitherCallNorFail.of_reaches (hreact : NeitherCallsNorFails react) (h : w.ActsNeitherCallNorFail)
    (hreaches : Reaches react w v) : v.ActsNeitherCallNorFail := by
  induction hreaches with
  | refl => exact h
  | tail _ hnext ih =>
    obtain ⟨m, hmakes⟩ := hnext.makes
    exact hmakes.change.every (lasting_actsNeitherCallNorFail hreact) ih

theorem Fresh.actsNeitherCallNorFail (h : w.Fresh) : w.ActsNeitherCallNorFail := by
  intro c hc
  rw [h.gear_eq] at hc
  cases hc

theorem ActsNeitherCallNorFail.store_step (hreact : NeitherCallsNorFails react) (h : w.ActsNeitherCallNorFail)
    (hstep : w.step react = some v) :
    v.session.store = w.session.store := by
  -- strides do no deed that sets a variable; handlers and the acts of reactions could, but call nothing
  cases step_cases hstep with
  | delivers => exact (hreact.deliver _ _).store_eq
  | @strides _ u _ _ _ _ t _ _ hplays hstrides =>
    have hpublish : SamePlotAndGear u (u.publish? react t.event) := by
      cases t.event with
      | none => exact .refl u
      | some event => exact hreact.publish u event
    have hdeeds : u.session.store = w.session.store := by
      rw [hstrides.unheard.session_eq]
      exact (hplays.same_replay w.session).1
    rw [hstrides.result_eq]
    exact hpublish.store_eq.trans hdeeds
  | @acts w' chain act acts rest failure _ hframes hact =>
    obtain ⟨c, hc, hcframes⟩ := framesOf_eq_some hframes
    have hacts : Frame.ActsAre (fun act => act.neitherCallsNorFails = true) (.acts (act :: acts)) :=
      h c (List.mem_of_getElem? hc) _ (hcframes ▸ List.mem_cons_self)
    have hsamePlot := hreact.carryOut ({ w with active := none }.setFrames chain (.acts acts :: rest))
      (hacts act List.mem_cons_self)
    rw [hact] at hsamePlot
    exact hsamePlot.1.store_eq
  | ends =>
    simp only [finish]
    split <;> rfl
  | @counts number failure ready _ _ =>
    exact congrArg Session.store (records_memberOver { w with ready } number failure).session_eq
  | strays | resumes | fires => rfl

/-- No step sets a variable, and neither does any number of steps with time passing in between (`Arrives`). -/
theorem ActsNeitherCallNorFail.store_arrives (hreact : NeitherCallsNorFails react) (h : w.ActsNeitherCallNorFail)
    (harrives : Arrives react k w v) :
    v.session.store = w.session.store := by
  induction harrives with
  | refl => rfl
  | tail hbefore hgo ih =>
    cases hgo with
    | step hstep => exact ((h.of_reaches hreact (Arrives.reaches hbefore)).store_step hreact hstep).trans ih
    | tick _ _ htick => exact (congrArg Session.store (turns_tick htick).2.session_eq).trans ih

/-- An advance that returns has not failed, has left the stage at rest (`AtRest`), and has done to the plot what an
    advance does. -/
theorem Going.of_await (hreact : NeitherCallsNorFails react) (h : w.Going k context)
    (hr : w.await react k fuel = some (v, failure)) :
    failure = none ∧ v.AtRest ∧ w.plot.Advances v.plot := by
  -- on the fuel, as for turns
  induction fuel using Nat.strongRecOn generalizing w with
  | ind fuel ih =>
    have hfree := Unhindered.of_await hreact hr
    cases hhalted : w.plot.solo.halted with
    | true =>
      obtain ⟨u, harrives, hplot, hrest, houtcome⟩ := h.stops hfree.clears hhalted
      obtain ⟨n, -, hn⟩ := Arrives.await_of harrives hr
      cases hrest.await_eq houtcome hn
      refine ⟨rfl, hrest, ?_⟩
      rw [hplot]
      exact .stops hhalted
    | false =>
      by_cases hbeat : w.plot.session.nextBeat = []
      · obtain ⟨u, hgoes, hplot, hrest, houtcome⟩ := h.ends hfree hhalted hbeat
        obtain ⟨n, -, hn⟩ := await_of_transGen hgoes hr
        cases hrest.await_eq houtcome hn
        exact ⟨rfl, hrest, hplot ▸ .ends hhalted hbeat⟩
      · obtain ⟨u, hgoes, hgoing, hplot⟩ := h.plays (hfree.during _) hhalted hbeat
        obtain ⟨n, hless, hn⟩ := await_of_transGen hgoes hr
        obtain ⟨hfailure, hrest, hadvances⟩ := ih n hless hgoing hn
        exact ⟨hfailure, hrest, .plays hhalted hbeat (hplot ▸ hadvances)⟩

end Stage

/-! ## The choice that waits -/

/-- The choice that a command offers. -/
def Command.offer? (c : Command) : Option Offer :=
  match c.body with
  | .choice var choices => some ⟨c.line, var, choices⟩
  | _ => none

/-- What a command offers are the choices in its body. -/
theorem Command.body_of_offer? {c : Command} {offer : Offer} (h : c.offer? = some offer) :
    c.body = .choice offer.var offer.choices := by
  unfold Command.offer? at h
  split at h
  · rename_i hbody
    cases h
    exact hbody
  · cases h

/-- The choice that the listener is shown with a call. -/
def Call.offer? : Call → Option Offer
  | .shown c => c.offer?
  | .ended => none

/-- The last choice that is shown. -/
def lastOffer (calls : List Call) : Option Offer := calls.reverse.findSome? Call.offer?

/-- The last offer of both: that of the later calls, if there is one. -/
theorem lastOffer_append (before after : List Call) :
    lastOffer (before ++ after) = (lastOffer after).or (lastOffer before) := by
  rw [lastOffer, List.reverse_append, List.findSome?_append]
  rfl

/-- A command shows the choice that it offers, and no other. -/
theorem Command.lastOffer_calls (c : Command) : lastOffer c.calls = c.offer? := by
  unfold Command.calls
  split
  · rename_i hbody
    simp [lastOffer, Call.offer?]
  · simp [lastOffer, Call.offer?]
  · simp [lastOffer, Call.offer?]
  · rename_i hchoice
    have hnone : c.offer? = none := by
      unfold Command.offer?
      split
      · rename_i hbody
        exact absurd hbody (hchoice _ _)
      · rfl
    rw [hnone]
    rfl

namespace Plot

variable {p q r : Plot} {before after calls : List Call}

/-- `p.Leads calls q` — the scene has gone on with these calls to the listener and without an answer; what waits for
    one is the choice that was shown last. -/
structure Leads (p : Plot) (calls : List Call) (q : Plot) : Prop where
  script_eq : q.session.script = p.session.script
  store_eq : q.session.store = p.session.store
  attached_eq : q.session.attached = p.session.attached
  calls_eq : q.calls = p.calls ++ calls
  pending_eq : q.session.pending = (lastOffer calls).or p.session.pending
  mem : ∀ c, Call.shown c ∈ calls → c ∈ p.session.script.commands

theorem Leads.refl (p : Plot) : Leads p [] p :=
  ⟨rfl, rfl, rfl, (List.append_nil _).symm, rfl, fun _ h => by cases h⟩

theorem Leads.trans (h : Leads p before q) (h' : Leads q after r) : Leads p (before ++ after) r where
  script_eq := h'.script_eq.trans h.script_eq
  store_eq := h'.store_eq.trans h.store_eq
  attached_eq := h'.attached_eq.trans h.attached_eq
  calls_eq := by rw [h'.calls_eq, h.calls_eq, List.append_assoc]
  pending_eq := by rw [h'.pending_eq, h.pending_eq, lastOffer_append, Option.or_assoc]
  mem c hc := by
    rcases List.mem_append.mp hc with hc | hc
    · exact h.mem c hc
    · exact h.script_eq ▸ h'.mem c hc

/-- A command of the script goes on like that (`Leads`): if it is a choice, it is shown and waits. -/
theorem leads_play {c : Command} (hc : c ∈ p.session.script.commands) : Leads p c.calls (p.play c) := by
  have hsession : (p.play c).session.store = p.session.store ∧
      (p.play c).session.pending = c.offer?.or p.session.pending := by
    cases hbody : c.body with
    | choice var choices => simp [Plot.play, Session.afterCommand, Command.offer?, hbody]
    | bare | text | image | condition | label | wait | jump =>
      simp only [Plot.play, Session.afterCommand, Command.offer?, hbody, Option.none_or]
      split <;> exact ⟨rfl, rfl⟩
  refine ⟨(p.same_play c).1, hsession.1, p.play_attached c, rfl, ?_, ?_⟩
  · rw [c.lastOffer_calls]
    exact hsession.2
  · intro d hd
    have hsame : d = c := by
      unfold Command.calls at hd
      split at hd <;> simp_all
    exact hsame ▸ hc

/-- So do all commands of a beat, one after the other. -/
theorem leads_playAll {cs : List Command} (hcs : ∀ c ∈ cs, c ∈ p.session.script.commands) :
    ∃ calls, Leads p calls (cs.foldl Plot.play p) := by
  -- on the commands: a later choice takes the place of an earlier one
  induction cs generalizing p with
  | nil => exact ⟨[], .refl p⟩
  | cons c cs ih =>
    have hplay := leads_play (hcs c List.mem_cons_self)
    have hrest : ∀ d ∈ cs, d ∈ (p.play c).session.script.commands := by
      intro d hd
      rw [hplay.script_eq]
      exact hcs d (List.mem_cons_of_mem c hd)
    obtain ⟨calls, hcalls⟩ := ih hrest
    exact ⟨c.calls ++ calls, hplay.trans hcalls⟩

/-- And so does a whole advance, beat by beat. -/
theorem Advances.leads (h : p.Advances q) : ∃ calls, Leads p calls q := by
  have hcollected : ∀ p : Plot, Leads p [] p.collected := fun p =>
    ⟨rfl, rfl, rfl, (List.append_nil _).symm, rfl, fun _ h => by cases h⟩
  induction h with
  | stops => exact ⟨[], .refl _⟩
  | @plays p q _ _ _ ih =>
    obtain ⟨calls, hplayed⟩ := leads_playAll (p := p.collected) fun c hc => p.session.mem_of_mem_nextBeat hc
    obtain ⟨more, hmore⟩ := ih
    exact ⟨_, ((hcollected p).trans hplayed).trans hmore⟩
  | @ends p _ _ =>
    have hended : Leads p.collected [.ended] p.ended := ⟨rfl, rfl, rfl, rfl, rfl, by simp⟩
    exact ⟨_, (hcollected p).trans hended⟩

end Plot

/-! ## Scenes under way -/

/-- `w.BetweenRounds script` — between the rounds of a console: nothing is on its way, and all variables have been
    offered by the scene. -/
structure Stage.BetweenRounds (script : Script) (w : Stage) : Prop where
  atRest : w.AtRest
  actsNeitherCallNorFail : w.ActsNeitherCallNorFail
  attached : w.session.attached = true
  script_eq : w.session.script = script
  offered : script.Offers w.session.store

namespace Stage.BetweenRounds

variable {react : Reactions} {script : Script} {w v : Stage} {fuel : Nat} {failure : Option Failure}

theorem acts_advancing (hreact : NeitherCallsNorFails react) (h : w.BetweenRounds script) :
    (w.spawn [.advance .own] none).ActsNeitherCallNorFail := by
  have hspawn : Next react w (w.spawn [.advance .own] none) := .spawn (by simp [Frame.FromOutside])
  exact h.actsNeitherCallNorFail.of_reaches hreact (.single hspawn)

/-- An advance between two rounds (`BetweenRounds`): it does not fail, and the stage is between two rounds again, but
    for a choice that may wait. -/
theorem advance (hreact : NeitherCallsNorFails react) (h : w.BetweenRounds script)
    (hr : w.advance react fuel .own = some (v, failure)) :
    failure = none ∧ v.BetweenRounds script ∧ ∃ calls, w.plot.Leads calls v.plot := by
  obtain ⟨rfl, hrest, hadvances⟩ := (h.atRest.going h.attached .own).of_await hreact hr
  obtain ⟨calls, hleads⟩ := hadvances.leads
  have hstore : v.session.store = w.session.store := hleads.store_eq
  refine ⟨rfl, ⟨hrest, h.actsNeitherCallNorFail.of_reaches hreact (Reaches.advance hr), ?_, ?_, ?_⟩, calls, hleads⟩
  · exact hleads.attached_eq.trans h.attached
  · exact hleads.script_eq.trans h.script_eq
  · rw [hstore]
    exact h.offered

/-- The choice is answered with one of its answers, which are offered for its variable. -/
theorem setVariable (hreact : NeitherCallsNorFails react) (h : w.BetweenRounds script) {d : Command}
    (hd : d ∈ script.commands)
    {name value : String} {choices : List String} (hbody : d.body = .choice name choices) (hvalue : value ∈ choices)
    (hr : w.doAct react fuel (.setVariable name value) = some (v, failure)) :
    failure = none ∧ v.BetweenRounds script ∧ v.session.store = putVariable name value w.session.store ∧
      v.session.pending = none := by
  obtain ⟨hfailure, hgear, hplot⟩ := setVariable_samePlotAndGear hreact w name value
  obtain ⟨u, hu, heq⟩ := Option.map_eq_some_iff.mp hr
  cases heq
  obtain ⟨hsamePlot, hrest⟩ := rest_idle hreact (hgear ▸ h.atRest.idle) hu
  have hvplot : v.plot = (w.record (.answer name value)).plot := hsamePlot.plot_eq.trans hplot
  have hstore : v.session.store = putVariable name value w.session.store := congrArg (·.session.store) hvplot
  refine ⟨hfailure, ⟨hrest, h.actsNeitherCallNorFail.of_reaches hreact (Reaches.doAct hr), ?_, ?_, ?_⟩, hstore, ?_⟩
  · exact (congrArg (·.session.attached) hvplot).trans h.attached
  · exact (congrArg (·.session.script) hvplot).trans h.script_eq
  · rw [hstore]
    exact h.offered.put hd hbody hvalue
  · exact congrArg (·.session.pending) hvplot

end Stage.BetweenRounds

end ChatScene
