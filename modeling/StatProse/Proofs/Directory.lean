import Mathlib.Data.List.Forall2
import StatProse.FileTree
import StatProse.Proofs.ByteOrder
import StatProse.Proofs.Loading
import StatProse.Proofs.Validation

/-!
# Tables in directories

A directory stands for one document that holds the arrays of its documents one after another,
in the order of their names. The order in which the directory lists them makes no difference.
All documents are read before any entry is validated, so the first one that cannot be read
ends the loading, whatever the entries of the ones before it are.
-/

namespace StatProse

open Json

/-! ## The documents of a directory -/

theorem Path.isDocument_iff {name : String} :
    Path.isDocument name = true ↔ ∃ stem, stem ≠ "" ∧ name = stem ++ ".json" := by
  simp only [isDocument, documentEnding, Bool.and_eq_true, List.isSuffixOf_iff_suffix, bne_iff_ne]
  constructor
  · rintro ⟨⟨stem, hstem⟩, hne⟩
    have hname : name = String.ofList stem ++ ".json" :=
      String.toList_inj.mp (by rw [String.toList_append, String.toList_ofList, hstem])
    refine ⟨String.ofList stem, fun hempty => hne ?_, hname⟩
    rw [hname, hempty, String.empty_append]
  · rintro ⟨stem, hstem, rfl⟩
    refine ⟨⟨stem.toList, String.toList_append.symm⟩, fun heq => hstem ?_⟩
    have hnil := congrArg String.toList heq
    rw [String.toList_append, List.append_left_eq_self] at hnil
    exact String.toList_inj.mp hnil

/-- The documents among the names in a directory, in the order of the bytes of their names. -/
structure Documents (names documents : List String) : Prop where
  ascending : documents.Pairwise (fun a b => utf8Bytes a < utf8Bytes b)
  mem_iff : ∀ name, name ∈ documents ↔ name ∈ names ∧ ∃ stem, stem ≠ "" ∧ name = stem ++ ".json"

/-- The documents in the order of the bytes of their names, each as often as it is listed. -/
structure Arrangement (names documents : List String) : Prop where
  ascending : documents.Pairwise (fun a b => utf8Bytes a ≤ utf8Bytes b)
  exists_perm : ∃ others, (documents ++ others).Perm names ∧
    (∀ name ∈ documents, ∃ stem, stem ≠ "" ∧ name = stem ++ ".json") ∧
    ∀ name ∈ others, ¬∃ stem, stem ≠ "" ∧ name = stem ++ ".json"

namespace Arrangement

variable {names documents : List String}

theorem perm (h : Arrangement names documents) : documents.Perm (names.filter Path.isDocument) := by
  obtain ⟨others, hperm, hdocuments, hothers⟩ := h.exists_perm
  have hall : ∀ name ∈ documents, Path.isDocument name = true :=
    fun name hname => Path.isDocument_iff.mpr (hdocuments name hname)
  have hnone : ∀ name ∈ others, ¬Path.isDocument name = true :=
    fun name hname => mt Path.isDocument_iff.mp (hothers name hname)
  have hfilter := hperm.filter Path.isDocument
  rwa [List.filter_append, List.filter_eq_self.mpr hall, List.filter_eq_nil_iff.mpr hnone,
    List.append_nil] at hfilter

theorem of_documentNames (names : List String) : Arrangement names (Disk.documentNames names) := by
  have hperm : (Disk.documentNames names).Perm (names.filter Path.isDocument) :=
    List.mergeSort_perm _ _
  constructor
  · refine (List.pairwise_mergeSort ?_ ?_ _).imp fun h => utf8Bytes_le_iff.mpr (of_decide_eq_true h)
    · simpa using fun _ _ _ => String.le_trans
    · simpa using String.le_total
  · refine ⟨names.filter (!Path.isDocument ·),
      (hperm.append_right _).trans (List.filter_append_perm _ _), fun name hname => ?_,
      fun name hname => ?_⟩
    · exact Path.isDocument_iff.mp (List.mem_filter.mp (hperm.mem_iff.mp hname)).2
    · rw [← Path.isDocument_iff]
      simpa using (List.mem_filter.mp hname).2

theorem eq_documentNames (h : Arrangement names documents) :
    documents = Disk.documentNames names := by
  have hother := of_documentNames names
  exact (h.perm.trans hother.perm.symm).eq_of_pairwise
    (fun a b _ _ hle hge => String.le_antisymm (utf8Bytes_le_iff.mp hle) (utf8Bytes_le_iff.mp hge))
    h.ascending hother.ascending

theorem strict (h : Arrangement names documents) (hnodup : names.Nodup) :
    Documents names documents := by
  constructor
  · refine (h.ascending.and (h.perm.nodup_iff.mpr (hnodup.filter _))).imp
      fun ⟨hle, hne⟩ => utf8Bytes_lt_iff.mpr ?_
    exact Decidable.byContradiction fun hlt =>
      hne (String.le_antisymm (utf8Bytes_le_iff.mp hle) (String.not_lt.mp hlt))
  · intro name
    rw [h.perm.mem_iff, List.mem_filter, Path.isDocument_iff]

end Arrangement

namespace Documents

variable {names documents documents' : List String}

theorem nodup (h : Documents names documents) : documents.Nodup := by
  refine h.ascending.imp ?_
  rintro a b hlt rfl
  exact List.lt_irrefl _ hlt

theorem unique (h : Documents names documents) (h' : Documents names documents') :
    documents = documents' := by
  have hperm : documents.Perm documents' :=
    (List.perm_ext_iff_of_nodup h.nodup h'.nodup).mpr fun name =>
      (h.mem_iff name).trans (h'.mem_iff name).symm
  exact hperm.eq_of_pairwise (fun a b _ _ hlt hgt => absurd hgt (List.lt_asymm hlt))
    h.ascending h'.ascending

end Documents

/-! ## One document -/

namespace Disk

variable {d d' : Disk Id} {path file : String} {items : List Value} {es : List Entry} {t : Table}
  {paths : List String} {arrays : List (List Value)} {tables : List (List Entry)}
  {fault : LoadFault}

def Holds (d : Disk Id) (path : String) (items : List Value) : Prop :=
  ∃ text : String, d.read path = pure (.ok text.toUTF8) ∧ readListing text = ⟨items, true⟩

/-- A document can be read and parsed: it is an array of entries. -/
def Readable (d : Disk Id) (path : String) : Prop :=
  ∃ items es, d.Holds path items ∧ items.mapM Entry.ofValue = .ok es

theorem Holds.unique {items' : List Value} (h : d.Holds path items) (h' : d.Holds path items') :
    items = items' := by
  obtain ⟨text, hread, hlisting⟩ := h
  obtain ⟨text', hread', hlisting'⟩ := h'
  have hbytes : text.toUTF8 = text'.toUTF8 := Except.ok.inj (hread.symm.trans hread')
  have htext : text = text' := Option.some.inj (by
    rw [← fromUTF8?_toUTF8 text, hbytes, fromUTF8?_toUTF8])
  rw [htext, hlisting'] at hlisting
  exact congrArg Listing.items hlisting.symm

theorem readTable_of_holds (h : d.Holds path items) (hes : items.mapM Entry.ofValue = .ok es) :
    d.readTable path = pure (.ofEntries es) := by
  obtain ⟨text, hread, hlisting⟩ := h
  have htable : Table.read text = .ok (.ofEntries es) :=
    Table.read_of_items (by rw [hlisting]; exact hes) (by rw [hlisting])
  exact readTable_of_read hread htable

theorem readable_of_readTable (h : (d.readTable path).run = .ok t) : d.Readable path := by
  unfold readTable at h
  obtain ⟨text, htext, h⟩ := run_bind_eq_ok_iff.mp h
  cases hread : Table.read text with
  | error fault =>
    simp only [hread] at h
    cases h
  | ok t' =>
    obtain ⟨items, es, hlisting, hes⟩ := Table.items_of_read hread
    exact ⟨items, es, ⟨text, readText_eq_ok_iff.mp htext, hlisting⟩, hes⟩

theorem not_readable_of_fault (h : (d.readTable path).run = .error fault) : ¬d.Readable path := by
  rintro ⟨items, es, hitems, hes⟩
  rw [readTable_of_holds hitems hes] at h
  cases h

/-! ## Many documents -/

theorem exists_arrays (h : ∀ path ∈ paths, d.Readable path) :
    ∃ arrays tables, List.Forall₂ d.Holds paths arrays ∧
      List.Forall₂ (fun items es => items.mapM Entry.ofValue = .ok es) arrays tables := by
  induction paths with
  | nil => exact ⟨[], [], .nil, .nil⟩
  | cons path paths ih =>
    obtain ⟨items, es, hitems, hes⟩ := h path List.mem_cons_self
    obtain ⟨arrays, tables, harrays, htables⟩ :=
      ih fun path hpath => h path (List.mem_cons_of_mem _ hpath)
    exact ⟨items :: arrays, es :: tables, .cons hitems harrays, .cons hes htables⟩

theorem mapM_flatten
    (h : List.Forall₂ (fun items es => items.mapM Entry.ofValue = .ok es) arrays tables) :
    arrays.flatten.mapM Entry.ofValue = .ok tables.flatten := by
  induction h with
  | nil => rfl
  | cons hes _ ih =>
    rw [List.flatten_cons, List.mapM_append, hes, ih]
    rfl

theorem foldlM_readTable (harrays : List.Forall₂ d.Holds paths arrays)
    (htables : List.Forall₂ (fun items es => items.mapM Entry.ofValue = .ok es) arrays tables)
    (es : List Entry) :
    paths.foldlM (fun t path => return t ++ (← d.readTable path)) (Table.ofEntries es) =
      pure (.ofEntries (es ++ tables.flatten)) := by
  -- the fold carries along the entries of the documents that were read
  induction harrays generalizing tables es with
  | nil =>
    cases htables
    simp
  | cons hitems _ ih =>
    cases htables with
    | @cons _ es' _ _ hes htables =>
      rw [List.foldlM_cons, readTable_of_holds hitems hes, pure_bind, pure_bind]
      rw [show Table.ofEntries es ++ Table.ofEntries es' = .ofEntries (es ++ es') from rfl,
        ih htables, List.flatten_cons, List.append_assoc]

theorem readTables_of_holds (harrays : List.Forall₂ d.Holds paths arrays)
    (htables : List.Forall₂ (fun items es => items.mapM Entry.ofValue = .ok es) arrays tables) :
    d.readTables paths = pure (.ofEntries tables.flatten) :=
  foldlM_readTable harrays htables []

theorem readTables_of_fault {before : List String}
    (hbefore : ∀ path ∈ before, d.Readable path)
    (hfault : (d.readTable path).run = .error fault) (after : List String) :
    (d.readTables (before ++ path :: after)).run = .error fault := by
  obtain ⟨arrays, tables, harrays, htables⟩ := exists_arrays hbefore
  unfold readTables Table.empty
  rw [List.foldlM_append, foldlM_readTable harrays htables, pure_bind, List.foldlM_cons,
    show d.readTable path = throw fault from hfault]
  rfl

theorem exists_first_fault {documents : List String}
    (h : ¬∀ name ∈ documents, d.Readable (Path.join path name)) :
    ∃ before name after fault, documents = before ++ name :: after ∧
      (∀ earlier ∈ before, d.Readable (Path.join path earlier)) ∧
      (d.readTable (Path.join path name)).run = .error fault := by
  induction documents with
  | nil => exact absurd (fun _ => (nomatch ·)) h
  | cons name documents ih =>
    cases hread : (d.readTable (Path.join path name)).run with
    | error fault => exact ⟨[], name, documents, fault, rfl, fun _ => (nomatch ·), hread⟩
    | ok t =>
      have hname := readable_of_readTable hread
      have hrest : ¬∀ name ∈ documents, d.Readable (Path.join path name) :=
        fun hall => h (List.forall_mem_cons.mpr ⟨hname, hall⟩)
      obtain ⟨before, first, after, fault, rfl, hbefore, hfault⟩ := ih hrest
      exact ⟨name :: before, first, after, fault, rfl,
        List.forall_mem_cons.mpr ⟨hname, hbefore⟩, hfault⟩

/-! ## Loading -/

theorem gatherTable_of_directory {names : List String} (hdirectory : d.isDirectory path = pure true)
    (hlist : d.list path = pure (.ok names)) :
    d.gatherTable path = d.readTables ((documentNames names).map (Path.join path)) := by
  unfold gatherTable
  rw [hdirectory, liftM_pure, pure_bind, if_pos rfl, hlist, liftM_pure, pure_bind]

theorem loadTable_congr (h : d'.gatherTable file = d.gatherTable path) :
    d'.loadTable file = d.loadTable path := by
  unfold loadTable
  rw [h]

theorem run_loadTable (h : d.gatherTable path = pure (.ofEntries es)) :
    ((∀ e ∈ es, e.WellFormed) ∧ (d.loadTable path).run = .ok (.ofEntries es)) ∨
      ∃ i, (Table.ofEntries es).FirstFault i ∧ (d.loadTable path).run = .error i.loadFault := by
  unfold loadTable
  rw [h, pure_bind]
  cases hinvalid : (Table.ofEntries es).invalid? with
  | none => exact .inl ⟨Table.invalid?_eq_none_iff.mp hinvalid, rfl⟩
  | some i => exact .inr ⟨i, Table.firstFault_of_invalid? hinvalid, rfl⟩

/-- In whatever order a directory lists its members, it is loaded as a file that holds the
arrays of its documents one after another, in the order of their names. If not all documents
can be read, the fault is that of the first one, also if an earlier one has an invalid
entry. -/
theorem loadTable_of_directory {names documents : List String}
    (hdirectory : d.isDirectory path = pure true) (hlist : d.list path = pure (.ok names))
    (hnodup : names.Nodup) (hdocuments : Documents names documents) :
    ((∀ name ∈ documents, d.Readable (Path.join path name)) → ∃ arrays es,
      List.Forall₂ (fun name items => d.Holds (Path.join path name) items) documents arrays ∧
      arrays.flatten.mapM Entry.ofValue = .ok es ∧
      (∀ (d' : Disk Id) file, d'.isDirectory file = pure false → d'.Holds file arrays.flatten →
        (d.loadTable path).run = (d'.loadTable file).run) ∧
      (((∀ e ∈ es, e.WellFormed) ∧ (d.loadTable path).run = .ok (.ofEntries es)) ∨
        ∃ i, (Table.ofEntries es).FirstFault i ∧ (d.loadTable path).run = .error i.loadFault)) ∧
    ((¬∀ name ∈ documents, d.Readable (Path.join path name)) → ∃ before name after fault,
      documents = before ++ name :: after ∧
      (∀ earlier ∈ before, d.Readable (Path.join path earlier)) ∧
      ¬d.Readable (Path.join path name) ∧
      (d.readTable (Path.join path name)).run = .error fault ∧
      (d.loadTable path).run = .error fault) := by
  have hgather := gatherTable_of_directory hdirectory hlist
  rw [← hdocuments.unique ((Arrangement.of_documentNames names).strict hnodup)] at hgather
  constructor
  · intro hall
    obtain ⟨arrays, tables, harrays, htables⟩ := exists_arrays (List.forall_mem_map.mpr hall)
    rw [readTables_of_holds harrays htables] at hgather
    have hes := mapM_flatten htables
    refine ⟨arrays, tables.flatten, List.forall₂_map_left_iff.mp harrays, hes,
      fun d' file hfile hholds => ?_, run_loadTable hgather⟩
    -- the entries are those of the file, and only they are validated
    have hgather' := (gatherTable_of_file hfile).trans (readTable_of_holds hholds hes)
    rw [loadTable_congr (hgather.trans hgather'.symm)]
  · intro hnot
    obtain ⟨before, name, after, fault, rfl, hbefore, hfault⟩ := exists_first_fault hnot
    refine ⟨before, name, after, fault, rfl, hbefore, not_readable_of_fault hfault, hfault, ?_⟩
    have hread := readTables_of_fault (List.forall_mem_map.mpr hbefore) hfault
      (after.map (Path.join path))
    rw [List.map_append, List.map_cons] at hgather
    unfold loadTable
    rw [hgather, show d.readTables _ = throw fault from hread]
    rfl

namespace Letters

def entryText (ids : List Char) : List Char :=
  ['\x7b', '"', 'i', 'd', 's', '"', ':', '['] ++ ids ++ [']', '\x7d']

def aText : List Char := entryText ['"', 'a', '"']

def bText : List Char := entryText ['"', 'b', '"']

def document (items : List Char) : String := String.ofList ('[' :: items ++ [']'])

/-- A directory that lists its documents against their order, a file with the items of both,
and a directory with an invalid entry before a document that cannot be read. -/
def files : FileTree :=
  .directory [
    ("t", .directory [("b.json", .file (document bText).toUTF8), ("x.txt", .file "?".toUTF8),
      ("a.json", .file (document aText).toUTF8)]),
    ("both", .file (document (aText ++ ',' :: bText)).toUTF8),
    ("u", .directory [("b.json", .directory []),
      ("a.json", .file (document (entryText [])).toUTF8)])]

def item (ids : List Value) : Value := .object [("ids", .array ids)]

theorem documents_of_files {names : List String} (hnames : names.filter Path.isDocument =
    ["b.json", "a.json"]) : Documents names ["a.json", "b.json"] := by
  constructor
  · exact List.pairwise_pair.mpr (utf8Bytes_lt_iff.mpr (by decide))
  · intro name
    rw [← Path.isDocument_iff, ← List.mem_filter, hnames]
    simp [or_comm]

theorem holds_a : files.disk.Holds (Path.join "t" "a.json") [item [.text "a"]] := by
  refine ⟨document aText, rfl, ?_⟩
  rw [readListing, document, String.toList_ofList]
  rfl

theorem holds_b : files.disk.Holds (Path.join "t" "b.json") [item [.text "b"]] := by
  refine ⟨document bText, rfl, ?_⟩
  rw [readListing, document, String.toList_ofList]
  rfl

theorem holds_both : files.disk.Holds "both" [item [.text "a"], item [.text "b"]] := by
  refine ⟨document (aText ++ ',' :: bText), rfl, ?_⟩
  rw [readListing, document, String.toList_ofList]
  rfl

theorem holds_u : files.disk.Holds (Path.join "u" "a.json") [item []] := by
  refine ⟨document (entryText []), rfl, ?_⟩
  rw [readListing, document, String.toList_ofList]
  rfl

end Letters

open Letters in
theorem loadTable_of_letters :
    let d := files.disk
    let names := ["b.json", "x.txt", "a.json"]
    let documents := ["a.json", "b.json"]
    d.isDirectory "t" = pure true ∧ d.list "t" = pure (.ok names) ∧ names.Nodup ∧
    Documents names documents ∧ (∀ name ∈ documents, d.Readable (Path.join "t" name)) ∧
    d.isDirectory "both" = pure false ∧ d.Holds "both" [item [.text "a"], item [.text "b"]] ∧
    (d.loadTable "t").run = (d.loadTable "both").run ∧
    (d.loadTable "t").run = .ok (.ofEntries [{ ids := ["a"] }, { ids := ["b"] }]) ∧
    d.isDirectory "u" = pure true ∧ d.list "u" = pure (.ok documents.reverse) ∧
    documents.reverse.Nodup ∧ Documents documents.reverse documents ∧
    (¬∀ name ∈ documents, d.Readable (Path.join "u" name)) ∧
    (d.readTable (Path.join "u" "a.json")).run = .ok (.ofEntries [{ ids := [] }]) ∧
    (Table.ofEntries [{ ids := [] }]).invalid? = some ⟨0, .noIds⟩ ∧
    (d.loadTable "u").run = .error (.io ReadFault.isDirectory.message (some "u/b.json")) := by
  intro d names documents
  have hdocuments : Documents names documents := documents_of_files (by decide +kernel)
  have hdocuments' : Documents documents.reverse documents :=
    documents_of_files (by decide +kernel)
  have hreadable : ∀ name ∈ documents, d.Readable (Path.join "t" name) := by
    simp only [documents, List.forall_mem_cons]
    exact ⟨⟨_, _, holds_a, rfl⟩, ⟨_, _, holds_b, rfl⟩, by simp⟩
  have hempty : d.readTable (Path.join "u" "a.json") = pure (.ofEntries [{ ids := [] }]) :=
    readTable_of_holds holds_u rfl
  have hdirectory : (d.readTable (Path.join "u" "b.json")).run =
      .error (.io ReadFault.isDirectory.message (some "u/b.json")) := rfl
  have hunreadable : ¬∀ name ∈ documents, d.Readable (Path.join "u" name) :=
    fun hall => not_readable_of_fault hdirectory (hall "b.json" (by simp [documents]))
  have ht : d.isDirectory "t" = pure true := rfl
  have hu : d.isDirectory "u" = pure true := rfl
  have hlist : d.list "t" = pure (.ok names) := rfl
  have hlist' : d.list "u" = pure (.ok documents.reverse) := rfl
  have hnodup : names.Nodup := by simp [names]
  have hnodup' : documents.reverse.Nodup := by simp [documents]
  obtain ⟨hload, -⟩ := loadTable_of_directory ht hlist hnodup hdocuments
  obtain ⟨-, hfail⟩ := loadTable_of_directory hu hlist' hnodup' hdocuments'
  have hsame : (d.loadTable "t").run = (d.loadTable "both").run := by
    obtain ⟨arrays, _, harrays, -, hboth, -⟩ := hload hreadable
    obtain ⟨items, rest, ha, hrest, rfl⟩ := List.forall₂_cons_left_iff.mp harrays
    obtain ⟨items', rest', hb, hrest', rfl⟩ := List.forall₂_cons_left_iff.mp hrest
    obtain rfl := List.forall₂_nil_left_iff.mp hrest'
    refine hboth d "both" rfl ?_
    rw [ha.unique holds_a, hb.unique holds_b]
    exact holds_both
  refine ⟨ht, hlist, hnodup, hdocuments, hreadable, rfl, holds_both, hsame, ?_, hu, hlist',
    hnodup', hdocuments', hunreadable, hempty, by decide +kernel, ?_⟩
  · rw [hsame]
    unfold loadTable
    rw [gatherTable_of_file rfl, readTable_of_holds holds_both rfl, pure_bind]
    rfl
  · obtain ⟨before, name, after, fault, hsplit, -, -, hfault, hresult⟩ := hfail hunreadable
    have hname : name = "b.json" := by
      have hmem : name ∈ documents := by simp [hsplit]
      simp only [documents, List.mem_cons, List.not_mem_nil, or_false] at hmem
      rcases hmem with rfl | rfl
      · rw [hempty] at hfault
        cases hfault
      · rfl
    rw [hname, hdirectory] at hfault
    rw [hresult, hfault]

end Disk

end StatProse
