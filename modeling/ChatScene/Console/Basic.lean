/-
  Playing a scene on a terminal.

  1. **What is written** — a `Piece` is one thing that a program writes.  `Moment.present` writes texts, images, choices
     and the end of the scene as lines.

  2. **Answers** — they come from input lines, from a table of values, or from anybody who always has one (`Answers`).
     `Answers.reply` is the answer to an offered choice, with what is written meanwhile.

  3. **Playing** — `Console.round` advances the session and answers the choice that it stops at (`Console.answer`).
     `Console.play` does rounds until the scene has ended, or until there is no answer.
-/
import ChatScene.Console.Prompt
import ChatScene.Pictures
import ChatScene.Session.Host

namespace ChatScene

open ChatScene.Text

/-! ## What is written -/

/-- One piece of what a program writes. -/
inductive Piece where
  /-- A text on the standard output. -/
  | out (text : Wide)
  /-- A text that the standard output has refused. -/
  | refused (text : Wide)
  /-- A question on the standard output; an answer is read afterwards. -/
  | ask (text : String)
  /-- A text on the error output. -/
  | err (text : String)
  /-- A log line. -/
  | log (line : LogLine)
  /-- What follows is written at this time. -/
  | clock (time : Float)
deriving Repr

/-- A line on the standard output. -/
def Piece.line (text : Wide) : Piece := .out (text ++ ofString "\n")

/-- Why a piece is refused by a standard output that takes some halves of characters. -/
def Piece.refusal? (takes : Half → Bool) : Piece → Option Refusal
  | .out text => Text.refusal? takes text
  | _ => none

/-- A piece as the standard output takes it, or refuses it. -/
def Piece.received (takes : Half → Bool) : Piece → Piece
  | .out text => if (Text.refusal? takes text).isSome then .refused text else .out text
  | piece => piece

/-- An image with its file. -/
def imageLine (name : String) (path : Path) : Wide := ofString s!"[image: {name} (" ++ path.written ++ ofString ")]"

/-- An image on the terminal: with a catalog it is shown with its file, and not at all if the catalog lacks it. -/
def presentImage (catalog : Option Catalog) (name : String) : List Piece :=
  match catalog with
  | none => [.line s!"[image: {name}]"]
  | some c =>
    let found := c.resolve name
    found.logs.map .log ++ (found.result.toList.map fun path => .line (imageLine name path))

/-- A command that is shown, on the terminal. -/
def presentCommand (catalog : Option Catalog) (c : Command) : List Piece :=
  match c.body with
  | .text text => [.line s!"> {text}"]
  | .image name => presentImage catalog name
  | .choice _ choices => choices.zipIdx.map fun (choice, i) => .line s!"  {i + 1}) {choice}"
  | _ => []

/-- What is seen of a session, on the terminal. -/
def Moment.present (catalog : Option Catalog) : Moment → List Piece
  | .log line => [.log line]
  | .shown c time => .clock time :: presentCommand catalog c
  | .ended time => [.clock time, .line "-- end of chat --"]
  | .heard _ event =>
    match event.data with
    | .jump label _ => [.line s!"   (jump -> {label})"]
    | _ => []
  | .note .. | .view _ => []

/-! ## Answers -/

/-- Where answers come from. -/
inductive Answers where
  /-- The lines of the input. -/
  | lines (input : List String)
  /-- A value for each variable. -/
  | values (table : List (String × String))
  /-- Whatever is chosen for the `n`-th choice from now on, counted from zero. -/
  | chosen (choose : Nat → Offer → String)

/-- Why a scene cannot be played to its end. -/
inductive ConsoleFailure where
  | noListener
  | endOfInput
  | noValue (var : String)
  | session (failure : Failure)

/-- The text of the failure. -/
def ConsoleFailure.message : ConsoleFailure → String
  | .noListener => "Presenter has no listener"
  | .endOfInput => "EOF when reading a line"
  | .noValue var => Text.quoted var
  | .session failure => failure.message

/-- An answer or the lack of one, with what is written meanwhile, and where later answers come from. -/
structure Reply where
  /-- The answer. -/
  answer : Except ConsoleFailure String
  /-- What is written. -/
  written : List Piece
  /-- What is left for later. -/
  rest : Answers

/-- What a dialogue writes. -/
def Prompt.Dialogue.written (d : Prompt.Dialogue) (count : Nat) : List Piece :=
  .ask (Prompt.question count) ::
    (d.reproofs count).flatMap fun reproof : String => [.out reproof, .ask (Prompt.question count)]

/-- The answer to an offered choice. -/
def Answers.reply (answers : Answers) (offer : Offer) : Reply :=
  match answers with
  | .lines input =>
    let d := Prompt.ask offer.choices input
    ⟨d.answer.elim (.error .endOfInput) .ok, d.written offer.choices.length, .lines d.unread⟩
  -- A table gives the same answer every time, whether or not it is one of the choices.
  | .values table => ⟨(table.lookup offer.var).elim (.error (.noValue offer.var)) .ok, [], answers⟩
  | .chosen choose => ⟨.ok (choose 0 offer), [], .chosen fun n => choose (n + 1)⟩

/-! ## Playing -/

/-- A session on a terminal. -/
structure Console where
  /-- The session. -/
  stage : Stage
  /-- The pictures, if there is a catalog. -/
  catalog : Option Catalog := none
  /-- Where answers come from. -/
  answers : Answers
  /-- What has been written. -/
  written : List Piece := []
  /-- The choices that were to be answered. -/
  asked : List Offer := []

namespace Console

/-- Nobody but the console reacts to a session. -/
def noReactions : Reactions := fun _ _ => []

/-- The console fails as a listener where the standard output refuses the line about an image. -/
def refusals (takes : Half → Bool) (catalog : Option Catalog) : Reactions
  | .image name, _ =>
    ((presentImage catalog name).findSome? (Piece.refusal? takes)).toList.map fun refusal => .fail refusal.message
  | _, _ => []

/-- The console writes what is new on the stage. -/
def display (c : Console) (stage : Stage) : Console :=
  -- What is seen has the latest first, and the console has written all but the newest part of it.
  let fresh := (stage.seen.take (stage.seen.length - c.stage.seen.length)).reverse
  { c with stage, written := c.written ++ fresh.flatMap (Moment.present c.catalog) }

/-- A script is loaded into the session; nothing if the fuel does not suffice. -/
def load (fuel : Nat) (c : Console) (script : Script) (react : Reactions := noReactions) : Option Console :=
  (c.stage.loadScript react fuel script).map c.display

/-- The console gets an answer to an offered choice. -/
def consult (c : Console) (offer : Offer) : Console × Except ConsoleFailure String :=
  let reply := c.answers.reply offer
  ({ c with answers := reply.rest, asked := c.asked ++ [offer]
            written := c.written ++ .clock c.stage.now :: reply.written },
    reply.answer)

/-- The console answers the choice that the session stops at, if there is one.  Nothing if the fuel does not suffice. -/
def answer (fuel : Nat) (c : Console) (react : Reactions := noReactions) :
    Option (Console × Option ConsoleFailure) :=
  match c.stage.session.pending with
  -- The advance stopped at the end, or at a choice that somebody has answered already.
  | none => some (c, none)
  | some offer =>
    match c.consult offer with
    | (c, .error failure) => some (c, some failure)
    | (c, .ok value) =>
      (c.stage.doAct react fuel (.setVariable offer.var value)).map fun (stage, failure) =>
        (c.display stage, failure.map .session)

/-- The console advances the session once and answers.  Nothing if the fuel does not suffice. -/
def round (fuel : Nat) (c : Console) (react : Reactions := noReactions) : Option (Console × Option ConsoleFailure) :=
  match c.stage.advance react fuel .own with
  | none => none
  | some (stage, some failure) => some (c.display stage, some (.session failure))
  | some (stage, none) => (c.display stage).answer fuel react

/-- Rounds until the scene has ended; nothing if that does not happen within so many rounds. -/
def playOn (fuel : Nat) (react : Reactions) : Nat → Console → Option (Console × Option ConsoleFailure)
  | 0, _ => none
  | rounds + 1, c =>
    -- Looked at before the round, so a scene that has ended is not advanced again.
    if c.stage.session.finished then some (c, none)
    else
      match c.round fuel react with
      | none => none
      | some (c, some failure) => some (c, some failure)
      | some (c, none) => playOn fuel react rounds c

/-- Plays the scene of a session to its end; nothing if the fuel does not suffice. -/
def play (fuel : Nat) (c : Console) (react : Reactions := noReactions) : Option (Console × Option ConsoleFailure) :=
  if c.stage.session.attached then c.playOn fuel react fuel else some (c, some .noListener)

/-- The terminal has been told that the scene has ended. -/
def hasEnded (c : Console) : Bool :=
  c.stage.seen.any fun m =>
    match m with
    | .ended _ => true
    | _ => false

end Console

end ChatScene
