/-
  The program on a real terminal.

  The files that the arguments name are read, the run is computed, and what it writes is written.  When a run stops for
  want of input, one more line is read and the run is computed again; what has been written stays.
-/
import ChatScene.CommandLine.Run

namespace ChatScene.Terminal

/-! ## Files -/

/-- There is a folder at the path. -/
def isFolder (path : Path) : IO Bool := do
  try
    let _ ← IO.FS.realPath (path.text ++ "/.")
    return true
  catch _ => return false

/-- The content of a file, if there is one. -/
def content? (path : Path) : IO (Option Text.Utf8.Bytes) := do
  try return some (← IO.FS.readBinFile path.text).toList
  catch _ => return none

/-- The place that names lead to. -/
def placeOf (path : Path) : Place := path.names.foldl Place.step (Place.start path)

/-- The tree with what there is at the path. -/
def observe (t : Tree) (path : Path) : IO Tree := do
  if ← isFolder path then return { t with folders := placeOf path :: t.folders }
  match ← content? path with
  | some bytes => return { t with files := Tree.putFile (placeOf path) bytes t.files }
  | none => return t

/-- The tree with what there is on the way to the path, and at the path. -/
def observeWay (t : Tree) (path : Path) : IO Tree :=
  (List.range (path.names.length + 1)).foldlM (fun t n => observe t { path with names := path.names.take n }) t

/-- The files that a request is about. -/
def treeFor (request : CommandLine.Request) : IO Tree := do
  let t ← request.paths.foldlM observeWay ({} : Tree)
  match request with
  | .play _ (some manifest) _ => (Catalog.filesOf t {} manifest).foldlM observeWay t
  | _ => return t

/-- Writes the files that have changed. -/
def save (request : CommandLine.Request) (before after : Tree) : IO Unit :=
  for path in request.paths do
    let old := before.content? (placeOf path)
    let new := after.content? (placeOf path)
    match new with
    | some bytes => if old ≠ new then IO.FS.writeBinFile path.text ⟨bytes.toArray⟩
    | none => pure ()

/-! ## Writing -/

/-- Writes a piece; the time of the last piece is known. -/
def write (least : Level) (time : Float) : Piece → IO Float
  | .clock now => do
    if time < now then IO.sleep ((now - time) * 1000).toUInt32
    return now
  | piece => do
    let (out, err) := (← IO.getStdout, ← IO.getStderr)
    out.putStr (Text.spelled piece.outText)
    out.flush
    err.putStr (piece.errText least)
    err.flush
    return time

/-- Runs the program with more and more input lines; so many pieces have been written before, up to this time. -/
partial def loop (arguments : List Text.Wide) (t : Tree) (lines : List String) (written : Nat) (time : Float) :
    IO Ending := do
  match CommandLine.run {} 1000000000 t { lines } arguments with
  | none => return .exit 1
  | some o =>
    let time ← (o.written.drop written).foldlM (write o.least) time
    match o.ending with
    | .escape (.console .endOfInput) =>
      let line ← (← IO.getStdin).getLine
      if line.isEmpty then return o.ending
      loop arguments t (lines ++ inputLines line) o.written.length time
    | ending =>
      match CommandLine.Invocation.ofArguments arguments with
      | .ok call => save call.request t o.tree
      | .error _ => pure ()
      return ending

end ChatScene.Terminal

/-- The program. -/
def main (arguments : List String) : IO UInt32 := do
  let arguments := arguments.map ChatScene.Text.ofString
  let t ← match ChatScene.CommandLine.Invocation.ofArguments arguments with
    | .ok call => ChatScene.Terminal.treeFor call.request
    | .error _ => pure {}
  match ← ChatScene.Terminal.loop arguments t [] 0 0 with
  | .exit status => return UInt32.ofNat status
  | .escape failure =>
    IO.eprintln failure.message
    return 1
