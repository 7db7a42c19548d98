/-
  Pictures: the catalog that gives each image name its file.

  1. **Looking up and adding** — a `Catalog` has one picture for each name, and the first picture of a name stays
     (`Catalog.add`).  A name without a picture is reported when it is looked up (`Catalog.resolve`).

  2. **Reading a manifest** — a catalog is read from a document with a list of entries (`Catalog.ofManifest`).  An entry
     that is not an object with a name and a path is reported and left out; a file that does not exist is reported only
     (`Catalog.addEntries`).

  3. **Manifests that end early** — two things end the reading of a manifest at an entry, and then there is no catalog
     (`Catalog.entryFault?`): what is wrong with the entry cannot be put into words, or the path of its file is too long
     to look for the file.
-/
import ChatScene.Files.Scene

namespace ChatScene

open ChatScene.Text

/-- A picture: its name and its file. -/
structure Picture where
  /-- The name that scenes use. -/
  name : Wide
  /-- The file. -/
  path : Path
deriving DecidableEq, Repr

/-- Pictures in the order in which they were added, one for each name. -/
abbrev Catalog := List Picture

namespace Catalog

/-! ## Looking up and adding -/

/-- The picture of a name. -/
def get? (c : Catalog) (name : Wide) : Option Picture := c.find? (·.name = name)

/-- The names, in order. -/
def names (c : Catalog) : List Wide := c.map (·.name)

/-- There is a picture of the name. -/
def has (c : Catalog) (name : Wide) : Bool := c.names.contains name

/-- The report about a name without a picture. -/
def unknownReport (name : Wide) : LogLine :=
  ⟨.error, .pictures, s!"Image '{spelled name}' not found in picture catalog."⟩

/-- The file of a name; a name without a picture is reported. -/
def resolve (c : Catalog) (name : Wide) : Logged (Option Path) :=
  match c.get? name with
  | some picture => ⟨[], some picture.path⟩
  | none => ⟨[unknownReport name], none⟩

/-- The catalog with one more picture, unless its name is taken. -/
def add (c : Catalog) (p : Picture) : Logged Catalog :=
  if (c.get? p.name).isSome then
    ⟨[⟨.warning, .pictures, s!"Duplicate picture name '{spelled p.name}' ignored."⟩], c⟩
  else ⟨[], c ++ [p]⟩

/-- The catalog with more pictures, one after the other. -/
def addAll (c : Catalog) : List Picture → Logged Catalog
  | [] => ⟨[], c⟩
  | p :: ps =>
    let first := c.add p
    let rest := addAll first.result ps
    ⟨first.logs ++ rest.logs, rest.result⟩

/-! ## Reading a manifest -/

/-- The form of a manifest. -/
def manifestSchema : Json.Schema := .mk .object [.required ["pictures"], .member "pictures" (.mk .array [])]

/-- The form of an entry. -/
def entrySchema : Json.Schema :=
  .mk .object
    [.required ["name", "path"], .member "name" (.mk .string [.someText]), .member "path" (.mk .string [.someText])]

/-- The text of a member. -/
def memberText (entry : Json) (name : String) : Wide := ((entry.get? name).bind Json.wide?).getD []

/-- The picture of an entry that follows `entrySchema`, in a manifest in this folder. -/
def pictureOf (folder : Path) (entry : Json) : Picture :=
  ⟨memberText entry "name", folder.join (Path.ofWide (memberText entry "path"))⟩

/-- The report about a file that does not exist. -/
def absenceReport (t : Tree) (p : Picture) : List LogLine :=
  match t.holds p.path with
  | .ok false => [⟨.warning, .pictures, s!"Picture file for '{spelled p.name}' not found: {p.path.text}"⟩]
  | _ => []

/-- What ends the reading of a manifest at an entry. -/
def entryFault? (t : Tree) (m : Machine) (manifest : Path) (entry : Json) : Option InputError :=
  if (entrySchema.violations entry).all (m.words ·.complaint) then
    match entrySchema.check entry with
    -- An entry that is reported and left out ends nothing.
    | .error _ => none
    | .ok () =>
      match t.holds (pictureOf manifest.parent entry).path with
      | .error e => some (.file e)
      | .ok _ => none
  else some .wordless

/-- The catalog with the pictures of the entries of a manifest. -/
def addEntries (t : Tree) (manifest : Path) (c : Catalog) : List Json → Logged Catalog
  | [] => ⟨[], c⟩
  | entry :: rest =>
    match entrySchema.check entry with
    | .error complaint =>
      let more := addEntries t manifest c rest
      ⟨⟨.error, .pictures, s!"Skipping picture entry in {manifest.text}: {complaint.message}"⟩ :: more.logs,
        more.result⟩
    | .ok () =>
      let picture := pictureOf manifest.parent entry
      let first := c.add picture
      let more := addEntries t manifest first.result rest
      -- The file is looked for first, so a second picture of a name is told of after its missing file.
      ⟨absenceReport t picture ++ first.logs ++ more.logs, more.result⟩

/-- The entries of a manifest that follows `manifestSchema`. -/
def entriesOf (j : Json) : List Json := ((j.get? "pictures").bind Json.arr?).getD []

/-- The files of all entries of a manifest in a file, as far as they name one. -/
def filesOf (t : Tree) (m : Machine) (manifest : Path) : List Path :=
  match t.inputDocument m manifest with
  | .error _ => []
  | .ok j => (entriesOf j).map fun entry => (pictureOf manifest.parent entry).path

/-- The catalog that a list of entries gives, up to the first one at which reading ends. -/
def ofEntries (t : Tree) (m : Machine) (manifest : Path) (entries : List Json) : Logged (Except InputError Catalog) :=
  match entries.findSome? (entryFault? t m manifest) with
  | some fault =>
    -- The reports about the entries before stay; the catalog does not.
    let before := entries.takeWhile fun entry => (entryFault? t m manifest entry).isNone
    ⟨(addEntries t manifest [] before).logs, .error fault⟩
  | none =>
    let read := addEntries t manifest [] entries
    ⟨read.logs ++ [⟨.info, .pictures, s!"Loaded {read.result.length} pictures from {manifest.text}."⟩],
      .ok read.result⟩

/-- The catalog that a manifest gives. -/
def ofManifest (t : Tree) (m : Machine) (manifest : Path) (j : Json) : Logged (Except InputError Catalog) :=
  if (manifestSchema.violations j).all (m.words ·.complaint) then
    match manifestSchema.check j with
    | .error complaint => ⟨[], .error (.manifest manifest complaint)⟩
    | .ok () => ofEntries t m manifest (entriesOf j)
  else ⟨[], .error .wordless⟩

/-- The catalog of a manifest in a file. -/
def load (t : Tree) (m : Machine) (manifest : Path) : Logged (Except InputError Catalog) :=
  match t.inputDocument m manifest with
  | .error e => ⟨[], .error e⟩
  | .ok j => ofManifest t m manifest j

end Catalog

end ChatScene
