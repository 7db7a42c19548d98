/-
  Files and folders.

  1. **Places** — a `Place` is reached from the working folder, or from the top, name by name; two dots lead out of a
     folder (`Place.step`).

  2. **Trees** — a `Tree` holds the files and folders that are known, each at its place.  Every name but the last has to
     be that of a folder.  The folders above the working folder exist, and hold nothing else that is known.

  3. **Following a path** — `Tree.locate` is the place that a path leads to.  There are paths that lead nowhere in any
     tree: those with a half of a character that is no byte, those with a null character, and those that are too long.
     A name that is too long is found out only when it is come to, after all names before it (`Tree.follow`).

  4. **Reading and writing** — `Tree.readText` and `Tree.writeText`.  Writing changes the one file and nothing else.
-/
import ChatScene.Files.Path
import ChatScene.Text.Utf8

namespace ChatScene

open ChatScene.Text

/-! ## Places -/

/-- Where places are counted from. -/
inductive Origin where
  /-- So many levels above the working folder. -/
  | above (levels : Nat)
  /-- The top. -/
  | top
deriving DecidableEq, Repr

/-- A place for a file or a folder. -/
structure Place where
  /-- Where the names begin. -/
  origin : Origin := .above 0
  /-- The names from the outside in. -/
  names : List Wide := []
deriving DecidableEq, Repr

namespace Place

/-- The place around this one. -/
def outward (p : Place) : Place :=
  match p.names, p.origin with
  | [], .above n => { p with origin := .above (n + 1) }
  | [], .top => p
  | names, _ => { p with names := names.dropLast }

/-- The place that a name leads to. -/
def step (p : Place) (name : Wide) : Place :=
  -- A single dot does not come up: reading a path has dropped it.
  if name = ofString ".." then p.outward else { p with names := p.names ++ [name] }

/-- Where a path begins. -/
def start (path : Path) : Place := if path.isAbsolute then { origin := .top } else {}

end Place

/-! ## Errors -/

/-- Why a file cannot be read or written. -/
inductive FileError where
  | missing (path : Path)
  | isFolder (path : Path)
  /-- A name on the way is that of a file. -/
  | noFolder (path : Path)
  /-- The path, or a name in it, is too long. -/
  | tooLong (path : Path)
  /-- No file has a name with a null character. -/
  | nullInName
  /-- No file has a name with such a half of a character. -/
  | halfInName (refusal : Refusal)
  /-- No half of a character can be written to a file. -/
  | halfInText (refusal : Refusal)
  /-- The content is no text. -/
  | encoding (error : Utf8.Error)
deriving DecidableEq, Repr

/-- The text of the error. -/
def FileError.message : FileError → String
  | .missing path => s!"[Errno 2] No such file or directory: {quoted path.written}"
  | .isFolder path => s!"[Errno 21] Is a directory: {quoted path.written}"
  | .noFolder path => s!"[Errno 20] Not a directory: {quoted path.written}"
  | .tooLong path => s!"[Errno 36] File name too long: {quoted path.written}"
  | .nullInName => "embedded null byte"
  | .halfInName refusal | .halfInText refusal => refusal.message
  | .encoding error => error.message

/-! ## Trees -/

/-- Files with their contents, and folders. -/
structure Tree where
  /-- The files. -/
  files : List (Place × Utf8.Bytes) := []
  /-- The folders, except those that always exist. -/
  folders : List Place := []

namespace Tree

/-- The content of the file at a place. -/
def content? (t : Tree) (p : Place) : Option Utf8.Bytes := t.files.lookup p

/-- There is a folder at the place. -/
def hasFolder (t : Tree) (p : Place) : Bool := p.names.isEmpty || t.folders.contains p

/-- How many bytes a name may have. -/
def maxNameBytes : Nat := 255

/-- How many bytes a whole path may have. -/
def maxPathBytes : Nat := 4095

/-- The place that names lead to, one after the other. -/
def follow (t : Tree) (path : Path) (p : Place) : List Wide → Except FileError Place
  | [] => .ok p
  | name :: rest =>
    -- The folder is asked for before the name is looked at, so a long name behind a missing folder is a missing file.
    if t.hasFolder p then
      if byteCount name ≤ maxNameBytes then t.follow path (p.step name) rest else .error (.tooLong path)
    else if (t.content? p).isSome then .error (.noFolder path)
    else .error (.missing path)

/-- The place that a path leads to; there need not be anything. -/
def locate (t : Tree) (path : Path) : Except FileError Place :=
  match refusal? isByteHalf path.written with
  | some refusal => .error (.halfInName refusal)
  | none =>
    -- All of this is found out before any folder is asked for.
    if path.names.any (·.contains (.char (Char.ofNat 0))) then .error .nullInName
    else if byteCount path.written ≤ maxPathBytes then t.follow path (Place.start path) path.names
    else .error (.tooLong path)

/-- There is a file or a folder.  A path that is too long is an error; others that lead nowhere hold nothing. -/
def holds (t : Tree) (path : Path) : Except FileError Bool :=
  match t.locate path with
  | .ok p => .ok (t.hasFolder p || (t.content? p).isSome)
  -- Being too long is the one thing that is no answer to the question.
  | .error (.tooLong path) => .error (.tooLong path)
  | .error _ => .ok false

/-- The bytes of a file. -/
def readBytes (t : Tree) (path : Path) : Except FileError Utf8.Bytes :=
  match t.locate path with
  | .error e => .error e
  | .ok p =>
    if t.hasFolder p then .error (.isFolder path)
    else (t.content? p).elim (.error (.missing path)) .ok

/-- The characters of a file. -/
def readExact (t : Tree) (path : Path) : Except FileError (List Char) :=
  match t.readBytes path with
  | .error e => .error e
  | .ok bytes => (Utf8.decode bytes).mapError .encoding

/-- The text of a file, with every line end as a line feed. -/
def readText (t : Tree) (path : Path) : Except FileError String :=
  (t.readExact path).map fun cs => String.ofList (unifyBreaks cs)

/-- The files with one of them replaced, or added at the end. -/
def putFile (p : Place) (bytes : Utf8.Bytes) : List (Place × Utf8.Bytes) → List (Place × Utf8.Bytes)
  | [] => [(p, bytes)]
  | (q, old) :: rest => if q = p then (q, bytes) :: rest else (q, old) :: putFile p bytes rest

/-- The tree with a file at a place. -/
def put (t : Tree) (p : Place) (bytes : Utf8.Bytes) : Tree := { t with files := putFile p bytes t.files }

/-- Opens a file for writing: its place, and the tree in which it is there and empty.  The folder of a new file has to
    exist. -/
def openEmpty (t : Tree) (path : Path) : Except FileError (Place × Tree) :=
  match t.locate path with
  | .error e => .error e
  | .ok p => if t.hasFolder p then .error (.isFolder path) else .ok (p, t.put p [])

/-- The tree after a text has been written to a file. -/
def writeText (t : Tree) (path : Path) (cs : List Char) : Except FileError Tree :=
  (t.openEmpty path).map fun (p, opened) => opened.put p (Utf8.encode cs)

/-! ## Building a tree -/

/-- The folders on the way to a place, and the place itself. -/
def ancestors (names : List Wide) : List Place :=
  (List.range (names.length + 1)).map fun n => { names := names.take n }

/-- The tree with a folder, and all folders around it, in the working folder. -/
def addFolder (t : Tree) (names : List Wide) : Tree := { t with folders := t.folders ++ ancestors names }

/-- The tree with a file in the working folder, and all folders around it. -/
def addFile (t : Tree) (names : List Wide) (bytes : Utf8.Bytes) : Tree :=
  (t.addFolder names.dropLast).put { names } bytes

end Tree

end ChatScene
