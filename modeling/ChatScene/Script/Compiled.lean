/-
  Compiled scripts: the JSON form of a script.

  1. **Writing** — `Script.toJson` holds the name, the commands with line, kind and tokens, and the label table.

  2. **Schemas** — `scriptSchema` and `commandSchema` say which documents are read.

  3. **Reading** — `Script.ofJson` checks the document against the schema and builds every command anew from its tokens
     (`Command.ofJson`).  Kinds and labels that the document gives are checked and not used: the kind is that of the
     keyword, and the table is that of the commands.  Halves of characters in the name or in tokens are spelled out.
-/
import ChatScene.Json.Schema
import ChatScene.Script.Basic

namespace ChatScene

/-- A line number as a document value. -/
def Line.toJson : Line → Json
  | .whole n => .int n
  | .real x => .float x

/-- A command as a document. -/
def Command.toJson (c : Command) : Json :=
  -- The fields of the body are left out: the tokens say all of them.
  .obj [("index", c.line.toJson), ("type", .str c.kind.lowerName),
    ("args", .arr (c.args.map fun arg => .str (Text.ofString arg)))]

/-- A script as a document. -/
def Script.toJson (s : Script) : Json :=
  .obj
    [("id", .str s.id),
     ("commands", .arr (s.commands.map Command.toJson)),
     ("labels", .obj (s.labels.map fun (name, i) => (Text.ofString name, .int i)))]

/-- A number that is whole and not negative. -/
def countSchema : Json.Schema := .mk .integer [.notNegative]

/-- The form of a command in a compiled script. -/
def commandSchema : Json.Schema :=
  .mk .object
    [.required ["index", "args"],
     .member "index" countSchema,
     -- Checked if it is there, but not required: the tokens give the kind.
     .member "type" (.mk .string []),
     .member "args" (.mk .array [.someItem, .items (.mk .string [])])]

/-- The form of a compiled script. -/
def scriptSchema : Json.Schema :=
  .mk .object
    [.required ["id", "commands"],
     .member "id" (.mk .string []),
     .member "commands" (.mk .array [.items commandSchema]),
     .member "labels" (.mk .object [.members countSchema])]

/-- Why a document is no compiled script. -/
inductive CompiledError where
  | form (complaint : Json.Complaint)
  | command (error : ScriptError)

/-- The text of the error. -/
def CompiledError.message : CompiledError → String
  | .form complaint => "Invalid compiled script: " ++ complaint.message
  | .command error => error.message

/-- A line number from a document that follows `countSchema`. -/
def Line.ofJson : Json → Line
  -- A double without fraction passes `countSchema` and is kept as one.
  | .float x => .real x
  | .int n => .whole n
  | _ => .whole 0

/-- The texts of a list of texts. -/
def textsOf (j : Json) : List String := (j.arr?.getD []).filterMap Json.str?

/-- The command of an entry that follows `commandSchema`. -/
def Command.ofJson (entry : Json) : Except CommandError Command :=
  Command.ofTokens (Line.ofJson ((entry.get? "index").getD .null)) (textsOf ((entry.get? "args").getD .null))

/-- The commands of entries, up to the first that is refused. -/
def commandsOfJson : List Json → Except CommandError (List Command)
  | [] => .ok []
  | entry :: rest =>
    match Command.ofJson entry with
    | .error e => .error e
    | .ok command =>
      match commandsOfJson rest with
      | .error e => .error e
      | .ok commands => .ok (command :: commands)

/-- The script of a compiled document. -/
def Script.ofJson (j : Json) : Except CompiledError Script :=
  match scriptSchema.check j with
  | .error complaint => .error (.form complaint)
  | .ok () =>
    let id := ((j.get? "id").bind Json.str?).getD ""
    match commandsOfJson (((j.get? "commands").bind Json.arr?).getD []) with
    -- The name of the script stands where the error of a text has the name of its source.
    | .error e => .error (.command ⟨id, e⟩)
    | .ok commands => .ok (Script.ofCommands id commands)

end ChatScene
