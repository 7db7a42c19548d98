/-
  Catalogs: the first picture of each name.

  1. **Adding** — a picture is added unless its name is taken, so that after any number of them the catalog has those
     that were the first of their names, in order.  `Catalog.firsts` says which these are, and `addAll_result` that they
     are what adding leaves.

  2. **Entries** — an entry of a manifest is a picture when it is an object with a name and a path (`fieldsOf?`).  All
     other entries are passed over, so reading a manifest is adding the pictures of its entries (`addEntries_result`).

  3. **Manifests** — a catalog is loaded just when its manifest can be read and has a list of entries, and reading ends
     at none of them (`Catalog.entryFault?`); this is `load_isOk_iff`.

  4. **Main result** (`first_pictures_stay`) — the catalog of a manifest has each name once and leads to the first
     picture of that name (`Catalog.Presents`); pictures that are added later leave the first ones alone.  Entries that
     are no pictures and pictures whose names are taken leave no trace: without them the manifest gives the same
     catalog.

  First occurrences are those of `List.eraseDupsBy`, so what is known of it in general can be used.
-/
import Mathlib.Data.List.Nodup
import ChatScene.Pictures
import ChatScene.Proofs.Compiling

namespace ChatScene

open ChatScene.Text

/-! ## First occurrences -/

section FirstOccurrences

variable {α β : Type}

/-- First occurrences with regard to a property: it makes no difference whether the property is taken
    before or after. -/
theorem map_eraseDupsBy (f : α → β) (same : β → β → Bool) (xs : List α) :
    (xs.eraseDupsBy fun x y => same (f x) (f y)).map f = (xs.map f).eraseDupsBy same := by
  match xs with
  | [] => rfl
  | x :: xs =>
    rw [List.eraseDupsBy_cons, List.map_cons, List.map_cons, List.eraseDupsBy_cons, List.filter_map,
      map_eraseDupsBy f same (xs.filter _)]
    rfl
termination_by xs.length
decreasing_by exact Nat.lt_succ_of_le (List.length_filter_le ..)

/-- Nothing is left out when there is nothing twice. -/
theorem eraseDupsBy_of_pairwise {same : α → α → Bool} {xs : List α} (h : xs.Pairwise fun x y => same y x = false) :
    xs.eraseDupsBy same = xs := by
  induction h with
  | nil => rfl
  | cons hx _ ih =>
    rw [List.eraseDupsBy_cons, List.filter_eq_self.mpr fun y hy => decide_eq_true (hx y hy), ih]

end FirstOccurrences

namespace Catalog

/-! ## Adding -/

section Adding

variable {c : Catalog} {p : Picture} {ps : List Picture} {name : Wide}

/-- A picture is found just when its name is among the `names`. -/
theorem get?_isSome_iff : (c.get? name).isSome = true ↔ name ∈ c.names := by
  simp [get?, names]

/-- What adding does: nothing when the name is among the `names`, and otherwise one more picture at the end. -/
theorem add_result (c : Catalog) (p : Picture) : (c.add p).result = if p.name ∈ c.names then c else c ++ [p] := by
  simp only [add, get?_isSome_iff]
  split <;> rfl

/-- Adding one list of pictures and then another; `addAll` is a fold. -/
theorem addAll_result_append (c : Catalog) (ps qs : List Picture) :
    (c.addAll (ps ++ qs)).result = ((c.addAll ps).result.addAll qs).result := by
  induction ps generalizing c with
  | nil => rfl
  | cons p ps ih => exact ih (c.add p).result

/-- One picture more: its name was not there, or nothing happens. -/
theorem nodup_names_add (h : c.names.Nodup) : (c.add p).result.names.Nodup := by
  rw [add_result]
  split
  · exact h
  · rename_i hnew
    rw [names, List.map_append]
    exact List.Nodup.append h (List.nodup_singleton _) (List.disjoint_singleton.mpr hnew)

theorem nodup_names_addAll (h : c.names.Nodup) (ps : List Picture) : (c.addAll ps).result.names.Nodup := by
  induction ps generalizing c with
  | nil => exact h
  | cons p ps ih => exact ih (nodup_names_add h)

/-- A picture that is added is found unless there is one of its name before it. -/
theorem get?_add (c : Catalog) (p : Picture) (name : Wide) :
    (c.add p).result.get? name = (c.get? name).or (get? [p] name) := by
  rw [add_result]
  split
  · rename_i htaken
    cases hfound : c.get? name with
    | some q => rfl
    | none =>
      have hother : p.name ≠ name := by
        rintro rfl
        exact absurd (get?_isSome_iff.mpr htaken) (by simp [hfound])
      simp [get?, hother]
  · exact List.find?_append

/-- The same for all that are added: what was in the catalog `c` goes first, and then the first of the list `ps`. -/
theorem get?_addAll (c : Catalog) (ps : List Picture) (name : Wide) :
    (c.addAll ps).result.get? name = (c.get? name).or (get? ps name) := by
  induction ps generalizing c with
  | nil => exact Option.or_none.symm
  | cons p ps ih =>
    have hsplit : get? (p :: ps) name = (get? [p] name).or (get? ps name) := by
      rw [get?, ← List.singleton_append]
      exact List.find?_append
    show ((c.add p).result.addAll ps).result.get? name = _
    rw [ih, get?_add, Option.or_assoc, hsplit]

/-- The first picture of each name, in order. -/
def firsts (ps : List Picture) : List Picture := ps.eraseDupsBy fun p q => p.name == q.name

/-- The first picture (`firsts`) stays, and all others of its name are left out.  This is the recursion that the proofs
    below follow. -/
theorem firsts_cons (p : Picture) (ps : List Picture) :
    firsts (p :: ps) = p :: firsts (ps.filter fun q => q.name ≠ p.name) := by
  rw [firsts, List.eraseDupsBy_cons]
  simp [firsts]

/-- Adding pictures is adding the first of each new name (`firsts`).  Names that the catalog has already are no new
    ones. -/
theorem addAll_result (c : Catalog) (ps : List Picture) :
    (c.addAll ps).result = c ++ firsts (ps.filter fun p => p.name ∉ c.names) := by
  induction ps generalizing c with
  | nil => exact (List.append_nil c).symm
  | cons p ps ih =>
    show ((c.add p).result.addAll ps).result = _
    rw [ih, add_result]
    by_cases htaken : p.name ∈ c.names
    · rw [if_pos htaken, List.filter_cons_of_neg (by simpa using htaken)]
    · -- the name is taken for those that come after
      have hlater : (fun q : Picture => decide (q.name ∉ names (c ++ [p]))) =
          fun q => decide (q.name ∉ c.names) && decide (q.name ≠ p.name) := by
        funext q
        simp [names]
      rw [if_neg htaken, List.filter_cons_of_pos (by simpa using htaken), firsts_cons, List.filter_filter, hlater,
        List.append_assoc]
      simp only [Bool.and_comm]
      rfl

theorem addAll_nil_result (ps : List Picture) : (addAll [] ps).result = firsts ps := by
  rw [addAll_result]
  simp [names]

/-- No name is there twice among the first pictures (`firsts`). -/
theorem nodup_names_firsts (ps : List Picture) : (names (firsts ps)).Nodup := by
  rw [← addAll_nil_result]
  exact nodup_names_addAll (c := []) List.nodup_nil ps

theorem names_firsts (ps : List Picture) : names (firsts ps) = (names ps).eraseDups :=
  map_eraseDupsBy Picture.name (· == ·) ps

theorem firsts_firsts (ps : List Picture) : firsts (firsts ps) = firsts ps := by
  refine eraseDupsBy_of_pairwise ((List.pairwise_map.mp (nodup_names_firsts ps)).imp fun h => ?_)
  exact beq_eq_false_iff_ne.mpr h.symm

end Adding

/-! ## Entries -/

/-- The name and the path that an entry gives: it is an object, and both are texts that are not empty. -/
def fieldsOf? : Json → Option (Wide × Wide)
  | .obj members =>
    match Json.lookup "name" members, Json.lookup "path" members with
    | some (.str name), some (.str path) => if name ≠ [] ∧ path ≠ [] then some (name, path) else none
    | _, _ => none
  | _ => none

/-- `pictureFrom folder fields` — the picture of a name and a path in a manifest in this folder.  An absolute path is
    kept, and a relative one begins in the folder. -/
def pictureFrom (folder : Path) (fields : Wide × Wide) : Picture :=
  let path := Path.ofWide fields.2
  ⟨fields.1, if path.isAbsolute then path else { folder with names := folder.names ++ path.names }⟩

/-- `picturesFrom folder entries` — the pictures that the entries of a manifest in this folder give. -/
def picturesFrom (folder : Path) (entries : List Json) : List Picture :=
  (entries.filterMap fieldsOf?).map (pictureFrom folder)

theorem someText_accepts_iff {j : Json} :
    (Json.Schema.mk .string [.someText]).Accepts j ↔ ∃ text, j = .str text ∧ text ≠ [] := by
  rw [Json.Schema.accepts_mk_iff]
  cases j <;> simp [Json.Shape.admits, Json.Rule.violations]

/-- What an entry has to be, member by member. -/
theorem fieldsOf?_eq_some_iff {entry : Json} {name path : Wide} :
    fieldsOf? entry = some (name, path) ↔
      ∃ members, entry = .obj members ∧ Json.lookup "name" members = some (.str name) ∧ name ≠ [] ∧
        Json.lookup "path" members = some (.str path) ∧ path ≠ [] := by
  constructor
  · intro h
    cases entry with
    | obj members =>
      rw [fieldsOf?] at h
      split at h
      · rename_i hname hpath
        split at h
        · rename_i hsome
          cases h
          exact ⟨members, rfl, hname, hsome.1, hpath, hsome.2⟩
        · cases h
      · cases h
    | _ => cases h
  · rintro ⟨members, rfl, hname, hname', hpath, hpath'⟩
    simp [fieldsOf?, hname, hname', hpath, hpath']

/-- The entries that are let through are those with a name and a path. -/
theorem entrySchema_accepts_iff {entry : Json} : entrySchema.Accepts entry ↔ (fieldsOf? entry).isSome = true := by
  simp only [Option.isSome_iff_exists, Prod.exists, fieldsOf?_eq_some_iff]
  rw [entrySchema, Json.Schema.accepts_mk_iff]
  cases entry with
  | obj members =>
    simp only [Json.Shape.admits, List.forall_mem_cons, Json.Rule.required_eq_nil_iff, Json.Rule.member_eq_nil_iff,
      someText_accepts_iff, List.not_mem_nil, false_imp_iff, implies_true, and_true, true_and]
    constructor
    · rintro ⟨⟨⟨_, hname⟩, _, hpath⟩, hnames, hpaths⟩
      obtain ⟨name, rfl, hname'⟩ := hnames _ hname
      obtain ⟨path, rfl, hpath'⟩ := hpaths _ hpath
      exact ⟨name, path, members, rfl, hname, hname', hpath, hpath'⟩
    · rintro ⟨name, path, _, ⟨⟩, hname, hname', hpath, hpath'⟩
      refine ⟨⟨⟨_, hname⟩, _, hpath⟩, fun v hv => ?_, fun v hv => ?_⟩
      · exact ⟨name, Option.some.inj (hv.symm.trans hname), hname'⟩
      · exact ⟨path, Option.some.inj (hv.symm.trans hpath), hpath'⟩
  | _ => simp [Json.Shape.admits]

/-- The picture of an entry is that of its fields. -/
theorem pictureOf_eq {entry : Json} {fields : Wide × Wide} (h : fieldsOf? entry = some fields) (folder : Path) :
    pictureOf folder entry = pictureFrom folder fields := by
  obtain ⟨members, rfl, hname, -, hpath, -⟩ := fieldsOf?_eq_some_iff.mp h
  simp only [pictureOf, memberText, Json.get?, hname, hpath]
  rfl

/-- Reading entries is adding their pictures (`picturesFrom`); what is logged on the way does not matter here. -/
theorem addEntries_result (t : Tree) (manifest : Path) (c : Catalog) (entries : List Json) :
    (addEntries t manifest c entries).result = (c.addAll (picturesFrom manifest.parent entries)).result := by
  -- by induction on the entries; an entry that is refused adds no picture
  induction entries generalizing c with
  | nil => rfl
  | cons entry entries ih =>
    rw [addEntries]
    cases hcheck : entrySchema.check entry with
    | ok =>
      have hsome := entrySchema_accepts_iff.mp (Json.Schema.check_eq_ok_iff.mp hcheck)
      obtain ⟨fields, hfields⟩ := Option.isSome_iff_exists.mp hsome
      simp only [ih, picturesFrom, List.filterMap_cons_some hfields, pictureOf_eq hfields]
      rfl
    | error complaint =>
      have hnone : fieldsOf? entry = none := by
        rw [← Option.not_isSome_iff_eq_none, ← entrySchema_accepts_iff, ← Json.Schema.check_eq_ok_iff, hcheck]
        exact nofun
      simp only [ih, picturesFrom, List.filterMap_cons_none hnone]

/-! ## Manifests -/

/-- `IsManifest j entries` — the document is an object with this list of entries. -/
def IsManifest (j : Json) (entries : List Json) : Prop :=
  ∃ members, j = .obj members ∧ Json.lookup "pictures" members = some (.arr entries)

/-- A document that is let through is an object with a list of entries, and there is no other condition. -/
theorem manifestSchema_accepts_iff {j : Json} : manifestSchema.Accepts j ↔ ∃ entries, IsManifest j entries := by
  have harray (v : Json) : (Json.Schema.mk .array []).Accepts v ↔ ∃ items, v = .arr items := by
    rw [Json.Schema.accepts_mk_iff]
    cases v <;> simp [Json.Shape.admits]
  rw [manifestSchema, Json.Schema.accepts_mk_iff]
  cases j with
  | obj members =>
    simp only [Json.Shape.admits, List.forall_mem_cons, Json.Rule.required_eq_nil_iff, Json.Rule.member_eq_nil_iff,
      harray, List.not_mem_nil, false_imp_iff, implies_true, and_true, true_and]
    constructor
    · rintro ⟨⟨_, hlist⟩, hlists⟩
      obtain ⟨entries, rfl⟩ := hlists _ hlist
      exact ⟨entries, members, rfl, hlist⟩
    · rintro ⟨entries, _, ⟨⟩, hlist⟩
      exact ⟨⟨_, hlist⟩, fun v hv => ⟨entries, Option.some.inj (hv.symm.trans hlist)⟩⟩
  | _ => simp [Json.Shape.admits, IsManifest]

section Loading

variable {t : Tree} {m : Machine} {manifest : Path} {j : Json} {entries : List Json}

/-- Entries that all can be read give the catalog of the first pictures. -/
theorem ofEntries_result (h : ∀ entry ∈ entries, entryFault? t m manifest entry = none) :
    (ofEntries t m manifest entries).result = .ok (firsts (picturesFrom manifest.parent entries)) := by
  simp only [ofEntries, List.findSome?_eq_none_iff.mpr h, addEntries_result, addAll_nil_result]

/-- The same for a whole manifest (`IsManifest`) in a file. -/
theorem load_result (hj : t.inputDocument m manifest = .ok j) (hentries : IsManifest j entries)
    (h : ∀ entry ∈ entries, entryFault? t m manifest entry = none) :
    (load t m manifest).result = .ok (firsts (picturesFrom manifest.parent entries)) := by
  have hcheck := Json.Schema.check_eq_ok_iff.mpr (manifestSchema_accepts_iff.mpr ⟨entries, hentries⟩)
  have haccepts : manifestSchema.violations j = [] := Json.Schema.check_eq_ok_iff.mp hcheck
  obtain ⟨members, rfl, hlist⟩ := hentries
  have hlist : entriesOf (.obj members) = entries := by simp only [entriesOf, Json.get?, hlist]; rfl
  simp only [load, hj, ofManifest, haccepts, List.all_nil, if_true, hcheck, hlist, ofEntries_result h]

/-- Loading succeeds just for documents with a list of entries at none of which reading ends (`entryFault?`). -/
theorem load_isOk_iff :
    (∃ c, (load t m manifest).result = .ok c) ↔
      ∃ j entries, t.inputDocument m manifest = .ok j ∧ IsManifest j entries ∧
        ∀ entry ∈ entries, entryFault? t m manifest entry = none := by
  constructor
  · rintro ⟨c, hc⟩
    rw [load] at hc
    split at hc
    · cases hc
    rename_i j hj
    rw [ofManifest] at hc
    split at hc
    swap
    · cases hc
    split at hc
    · cases hc
    rename_i hcheck
    -- the document has been let through, so it has a list of entries
    obtain ⟨entries, members, rfl, hlist⟩ :=
      manifestSchema_accepts_iff.mp (Json.Schema.check_eq_ok_iff.mp hcheck)
    have hentries : entriesOf (.obj members) = entries := by simp only [entriesOf, Json.get?, hlist]; rfl
    rw [hentries, ofEntries] at hc
    split at hc
    · cases hc
    · rename_i hread
      exact ⟨_, entries, hj, ⟨members, rfl, hlist⟩, List.findSome?_eq_none_iff.mp hread⟩
  · rintro ⟨j, entries, hj, hentries, h⟩
    exact ⟨_, load_result hj hentries h⟩

end Loading

/-- The entries that are pictures, and the first of their names. -/
def usefulEntries (entries : List Json) : List Json :=
  (entries.filter fun entry => (fieldsOf? entry).isSome).eraseDupsBy fun e f =>
    (fieldsOf? e).map Prod.fst == (fieldsOf? f).map Prod.fst

/-- The entries that count (`usefulEntries`) give the first pictures: leaving out entries and leaving out pictures
    comes to the same. -/
theorem picturesFrom_usefulEntries (folder : Path) (entries : List Json) :
    picturesFrom folder (usefulEntries entries) = firsts (picturesFrom folder entries) := by
  -- the fields of these entries are the first ones of their names
  have hsome : (entries.filter fun entry => (fieldsOf? entry).isSome).map fieldsOf? =
      (entries.filterMap fieldsOf?).map some := by
    rw [List.map_filterMap_some_eq_filter_map_isSome, List.filter_map]
    rfl
  have hfields : (usefulEntries entries).map fieldsOf? =
      ((entries.filterMap fieldsOf?).eraseDupsBy fun a b => a.1 == b.1).map some := by
    have hmap := map_eraseDupsBy some (fun a b : Option (Wide × Wide) => a.map Prod.fst == b.map Prod.fst)
      (entries.filterMap fieldsOf?)
    rw [usefulEntries, map_eraseDupsBy fieldsOf? fun a b => a.map Prod.fst == b.map Prod.fst, hsome, ← hmap]
    simp
  have hfilter : (usefulEntries entries).filterMap fieldsOf? =
      (entries.filterMap fieldsOf?).eraseDupsBy fun a b => a.1 == b.1 := by
    have hid : ((usefulEntries entries).map fieldsOf?).filterMap id = (usefulEntries entries).filterMap fieldsOf? :=
      List.filterMap_map
    rw [← hid, hfields]
    simp
  rw [picturesFrom, hfilter]
  exact map_eraseDupsBy (pictureFrom folder) (fun p q => p.name == q.name) (entries.filterMap fieldsOf?)

/-- `c.Presents ps` — the catalog of some pictures: it has each of their names once, in the order in which the names
    first occur, and all ways to look up a name lead to the first picture of that name. -/
structure Presents (c : Catalog) (ps : List Picture) : Prop where
  nodup : c.names.Nodup
  names_eq : c.names = (ps.map Picture.name).eraseDups
  get?_eq : ∀ name, c.get? name = ps.find? (·.name = name)
  resolve_eq : ∀ name, (c.resolve name).result = (ps.find? (·.name = name)).map Picture.path
  has_eq : ∀ name, c.has name = (ps.find? (·.name = name)).isSome

/-- The first pictures of a list make its catalog. -/
theorem presents_firsts (ps : List Picture) : Presents (firsts ps) ps := by
  have hget (name : Wide) : get? (firsts ps) name = ps.find? (·.name = name) := by
    rw [← addAll_nil_result, get?_addAll]
    rfl
  refine ⟨nodup_names_firsts ps, names_firsts ps, hget, fun name => ?_, fun name => ?_⟩
  · rw [resolve, hget]
    cases ps.find? (·.name = name) <;> rfl
  · rw [← hget, Bool.eq_iff_iff, get?_isSome_iff]
    exact List.contains_iff_mem

/-- The first picture of each name stays.  A manifest (`IsManifest`) is loaded just when it can be read and has a list
    of entries, and each of them can be read.  Then the catalog, with any pictures that are added later, has the
    first pictures (`firsts`) of the entries with a name and a path and of the pictures added, in this order; and a
    manifest that has only those of the entries that are the first of their names gives the same catalog. -/
theorem first_pictures_stay (t : Tree) (m : Machine) (manifest : Path) :
    ((∃ c, (load t m manifest).result = .ok c) ↔
      ∃ j entries, t.inputDocument m manifest = .ok j ∧ IsManifest j entries ∧
        ∀ entry ∈ entries, entryFault? t m manifest entry = none) ∧
    ∀ j entries, t.inputDocument m manifest = .ok j → IsManifest j entries →
      (∀ entry ∈ entries, entryFault? t m manifest entry = none) →
      ∃ c, (load t m manifest).result = .ok c ∧
        (∀ added, (addAll c added).result.Presents (picturesFrom manifest.parent entries ++ added)) ∧
        ∀ u k, u.inputDocument m manifest = .ok k → IsManifest k (usefulEntries entries) →
          (∀ entry ∈ usefulEntries entries, entryFault? u m manifest entry = none) →
          (load u m manifest).result = .ok c := by
  refine ⟨load_isOk_iff, fun j entries hj hentries h => ⟨_, load_result hj hentries h, fun added => ?_, ?_⟩⟩
  · rw [← addAll_nil_result, ← addAll_result_append, addAll_nil_result]
    exact presents_firsts _
  · intro u k hk huseful h'
    rw [load_result hk huseful h', picturesFrom_usefulEntries, firsts_firsts]

/-- Entries that are no objects or have no name, one whose name is taken, and one with an absolute path. -/
def albumEntries : List Json :=
  [.bool true, .obj [("name", .str "sea"), ("path", .str "a.png")], .obj [("path", .str "b.png")],
   .obj [("name", .str "sea"), ("path", .str "c.png")], .obj [("path", .str "/d.png"), ("name", .str "hill")]]

/-- A manifest with given entries in a folder. -/
def albumTree (entries : List Json) : Tree :=
  ({} : Tree).addFile ["art", "album.json"]
    (Text.Utf8.encode (Json.render (.obj [("pictures", .arr entries)])).toList)

theorem inputDocument_albumTree {entries : List Json} (h : Json.ReadableItems 898 entries) :
    (albumTree entries).inputDocument {} ⟨0, ["art", "album.json"]⟩ = .ok (.obj [("pictures", .arr entries)]) := by
  have hreadable : (Json.obj [("pictures", .arr entries)]).Readable 900 := ⟨by simp, ⟨isWhole_ofString _, h⟩, trivial⟩
  refine Tree.inputDocument_of_readText hreadable ?_
  have hbytes : (albumTree entries).readBytes ⟨0, ["art", "album.json"]⟩ =
      .ok (Text.Utf8.encode (Json.render (.obj [("pictures", .arr entries)])).toList) := rfl
  have hreturn : '\r' ∉ (Json.render (.obj [("pictures", .arr entries)])).toList := by
    rw [Json.render, String.toList_ofList]
    exact Json.return_not_mem_write _ _ hreadable 0
  rw [Tree.readText_of_readBytes hbytes, Text.unifyBreaks_of_not_mem hreturn, String.ofList_toList]

theorem first_pictures_stay_album :
    ∃ c, (load (albumTree albumEntries) {} ⟨0, ["art", "album.json"]⟩).result = .ok c ∧
      (addAll c [⟨"sky", ⟨0, ["e.png"]⟩⟩, ⟨"sea", ⟨0, ["f.png"]⟩⟩]).result.names = ["sea", "hill", "sky"] ∧
      (addAll c [⟨"sky", ⟨0, ["e.png"]⟩⟩, ⟨"sea", ⟨0, ["f.png"]⟩⟩]).result.get? "sea" =
        some ⟨"sea", ⟨0, ["art", "a.png"]⟩⟩ ∧
      (c.resolve "hill").result = some ⟨1, ["d.png"]⟩ ∧
      (load (albumTree (usefulEntries albumEntries)) {} ⟨0, ["art", "album.json"]⟩).result = .ok c := by
  have hreadable : Json.ReadableItems 898 albumEntries := by
    simp [albumEntries, Json.ReadableItems, Json.Readable, Json.ReadableMembers, isWhole_ofString]
  have huseful : usefulEntries albumEntries =
      [.obj [("name", .str "sea"), ("path", .str "a.png")],
       .obj [("path", .str "/d.png"), ("name", .str "hill")]] := rfl
  have hreadable' : Json.ReadableItems 898 (usefulEntries albumEntries) := by
    simp [huseful, Json.ReadableItems, Json.Readable, Json.ReadableMembers, isWhole_ofString]
  obtain ⟨c, hc, hadded, hsame⟩ := (first_pictures_stay (albumTree albumEntries) {} ⟨0, ["art", "album.json"]⟩).2 _ _
    (inputDocument_albumTree hreadable) ⟨_, rfl, rfl⟩ (by decide)
  have hlater := hadded [⟨"sky", ⟨0, ["e.png"]⟩⟩, ⟨"sea", ⟨0, ["f.png"]⟩⟩]
  exact ⟨c, hc, hlater.names_eq.trans rfl, (hlater.get?_eq "sea").trans rfl,
    ((hadded []).resolve_eq "hill").trans rfl,
    hsame _ _ (inputDocument_albumTree hreadable') ⟨_, rfl, rfl⟩ (by decide)⟩

end Catalog

end ChatScene
