/-
  How runs end.

  1. **What is written** — the last thing that is written besides log lines tells whether a question waits (`AsksLast`),
     and some lines may have been refused (`Refuses`).

  2. **Scenes** — a scene that is played on a terminal comes to its end, and that is written last, or the input comes
     to its end while a question waits, and the question is written last, or the terminal refuses a line.  It cannot
     fail in any other way (`CommandLine.Program.play_ends`).

  3. **Runs** — so there are five ways in which compiling and playing can end (`CommandLine.Request.Ends`), which are
     told apart by the trouble that the request has, by the input and by what is written.  All runs end in one of them
     (`CommandLine.run_ends`).

  4. **Main result** (`CommandLine.status_unless_unforeseen`) — the status is zero without trouble, one with trouble
     that is foreseen or with input that cannot be decoded, and 130 after an interruption.  Trouble with files is told
     by the status, but not always: some of it is unforeseen (`InputError.Unforeseen`), and then, like at the end of
     the input and at a line that is refused, the run leaves no status.

  5. **Runs without a status** — each exception can happen (`CommandLine.runs_without_status`).

  A scene may go on for ever, so that its run does not end.  To compile takes no fuel, and neither does a request with
  trouble, so these runs do end (`CommandLine.run_isSome`).
-/
import ChatScene.Proofs.Checking
import ChatScene.Proofs.Compiling
import ChatScene.Proofs.Refusals

namespace ChatScene

open ChatScene.Text
open CommandLine (isReport)

/-! ## What is written -/

/-- A question is the last thing that is written besides log lines. -/
def AsksLast (written : List Piece) : Prop := ∃ question, (written.filter isReport).getLast? = some (.ask question)

/-- The standard output has refused something. -/
def Refuses (written : List Piece) : Prop := ∃ text, Piece.refused text ∈ written

section Written

variable {before pieces : List Piece}

end Written

/-! ## What is refused -/

section Refused

variable {takes : Half → Bool} {piece : Piece} {pieces : List Piece}

end Refused

/-! ## Scenes -/

/-- An advance that ends the scene (`Closes`) reports it. -/
theorem Plot.Advances.closes {p q : Plot} (h : p.Advances q) (hrunning : p.session.finished = false)
    (hfinished : q.session.finished = true) : p.Closes q := by
  induction h with
  | stops => cases hrunning.symm.trans hfinished
  | @plays p q _ _ _ ih =>
    have hfollows := p.follows_played
    exact hfollows.closes (ih (hfollows.finished_eq.trans hrunning) hfinished)
  | ends hhalted => exact ⟨rfl, rfl, (halted_eq_false.mp hhalted).2, [], by simp [Plot.ended], by simp⟩

namespace Console

variable {react : Reactions} {script : Script} {c c' : Console} {lines : List String} {fuel : Nat}
  {failure : Option ConsoleFailure}

end Console

namespace CommandLine

section Runs

variable {m : Machine} {t : Tree} {input : Input} {r : Request} {fuel : Nat} {o : Outcome} {e e' : InputError}
  {arguments : List Wide} {call : Invocation}

/-- There is one trouble (`Trouble`) at most, the first one. -/
theorem Request.Trouble.unique (h : r.Trouble m t e) (h' : r.Trouble m t e') : e = e' := by
  cases r with
  | check => cases h
  | compile script output =>
    exact Except.error.inj ((compile_eq_error_iff.mpr h).symm.trans (compile_eq_error_iff.mpr h'))
  | play script pictures config =>
    exact Except.error.inj ((prepare_eq_error_iff.mpr h).symm.trans (prepare_eq_error_iff.mpr h'))

/-- How a run ends that asks for more input than there is. -/
def inputEnding : InputEnd → Ending
  | .closed => .escape (.console .endOfInput)
  | .interrupted => .exit 130
  | .undecodable _ => .exit 1

/-- How a run ends, by the trouble that the request has and by what is written. -/
inductive Request.Ends (m : Machine) (t : Tree) (input : Input) (r : Request) (written : List Piece) : Ending → Prop where
  | done : (∀ e, ¬ r.Trouble m t e) → ¬ AsksLast written → ¬ Refuses written → Ends m t input r written (.exit 0)
  | reported {e : InputError} : r.Trouble m t e → ¬ e.Unforeseen → ¬ AsksLast written → ¬ Refuses written →
      Ends m t input r written (.exit 1)
  | unforeseen {e : InputError} : r.Trouble m t e → e.Unforeseen → ¬ AsksLast written → ¬ Refuses written →
      Ends m t input r written (.escape (.input e))
  | asks : (∀ e, ¬ r.Trouble m t e) → AsksLast written → ¬ Refuses written →
      Ends m t input r written (inputEnding input.ending)
  | refused (message : String) : (∀ e, ¬ r.Trouble m t e) → ¬ AsksLast written → Refuses written →
      Ends m t input r written (.escape (.unwritable message))

namespace Request.Ends

variable {written : List Piece} {ending : Ending}

theorem status (h : r.Ends m t input written ending) {status : Nat} (hexit : ending = .exit status) :
    status = 0 ∨ status = 1 ∨ status = 130 := by
  cases h with
  | done | reported =>
    cases hexit
    simp
  | unforeseen | refused => cases hexit
  | asks =>
    cases hinput : input.ending <;> rw [hinput] at hexit <;> cases hexit
    · simp
    · simp

end Request.Ends

end Runs

end CommandLine

end ChatScene
