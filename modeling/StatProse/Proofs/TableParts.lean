import StatProse.Proofs.Directory

/-!
# The parts of a table

A table is loaded from one document or from the documents of a directory. It is loaded if all
of them can be read and every entry is well formed. If not, the loading ends with the fault
of the listing, of the first document that cannot be read or of the first invalid entry.
-/

namespace StatProse

open Json

theorem mapM_eq_error_iff {ε α β : Type} {f : α → Except ε β} {xs : List α} {e : ε} :
    xs.mapM f = .error e ↔ ∃ before x after ys, xs = before ++ x :: after ∧
      before.mapM f = .ok ys ∧ f x = .error e := by
  constructor
  · intro h
    induction xs with
    | nil => cases h
    | cons x xs ih =>
      rw [List.mapM_cons] at h
      cases hx : f x with
      | error fault =>
        rw [hx] at h
        cases h
        exact ⟨[], x, xs, [], rfl, rfl, hx⟩
      | ok y =>
        cases hxs : xs.mapM f with
        | ok ys =>
          rw [hx, hxs] at h
          cases h
        | error fault =>
          rw [hx, hxs] at h
          cases h
          obtain ⟨before, z, after, ys, rfl, hbefore, hz⟩ := ih hxs
          refine ⟨x :: before, z, after, y :: ys, rfl, ?_, hz⟩
          rw [List.mapM_cons, hx, hbefore]
          rfl
  · rintro ⟨before, x, after, ys, rfl, hbefore, hx⟩
    rw [List.mapM_append, List.mapM_cons, hbefore, hx]
    rfl

namespace Disk

variable {d : Disk Id} {path : String} {names documents paths : List String} {es : List Entry}
  {t : Table} {fault : LoadFault}

/-! ## Entries -/

/-- Why there are no entries at a path: there is no text, the first of its items that is no
entry, or the text goes wrong after its items. -/
inductive RefusesEntries (d : Disk Id) (path : String) : LoadFault → Prop
  | unreadable {fault : LoadFault} : d.Unreadable path fault → RefusesEntries d path fault
  | entry {text : String} {complete : Bool} {before after : List Value} {item : Value}
      {es : List Entry} {fault : DocumentFault} : d.read path = pure (.ok text.toUTF8) →
      readListing text = ⟨before ++ item :: after, complete⟩ →
      before.mapM Entry.ofValue = .ok es → Entry.ofValue item = .error fault →
      RefusesEntries d path (.json fault path)
  | incomplete {text : String} {items : List Value} {es : List Entry} :
      d.read path = pure (.ok text.toUTF8) → readListing text = ⟨items, false⟩ →
      items.mapM Entry.ofValue = .ok es → RefusesEntries d path (.json .malformed path)

theorem readTable_eq_match {text : String} (h : d.read path = pure (.ok text.toUTF8)) :
    (d.readTable path).run = match Table.read text with
      | .ok t => .ok t
      | .error fault => .error (.json fault path) := by
  unfold readTable
  rw [readText_of_read h, pure_bind]
  cases Table.read text <;> rfl

theorem readTable_eq_error_iff :
    (d.readTable path).run = .error fault ↔ d.RefusesEntries path fault := by
  constructor
  · intro h
    -- first the text, then its items, then what comes after them
    cases htext : (d.readText path).run with
    | error why =>
      unfold readTable at h
      rw [run_bind_eq_match, htext] at h
      cases h
      exact .unreadable (readText_eq_error_iff.mp htext)
    | ok text =>
      have hread := readText_eq_ok_iff.mp htext
      rw [readTable_eq_match hread] at h
      cases hlisting : readListing text with
      | mk items complete =>
        rw [Table.read_of_listing hlisting] at h
        cases hes : items.mapM Entry.ofValue with
        | error why =>
          obtain ⟨before, item, after, es, rfl, hbefore, hitem⟩ := mapM_eq_error_iff.mp hes
          rw [hes] at h
          cases h
          exact .entry hread hlisting hbefore hitem
        | ok es =>
          rw [hes] at h
          cases complete with
          | true => cases h
          | false =>
            cases h
            exact .incomplete hread hlisting hes
  · intro h
    cases h with
    | unreadable h =>
      unfold readTable
      rw [run_bind_eq_match, readText_eq_error_iff.mpr h]
    | entry hread hlisting hbefore hitem =>
      rw [readTable_eq_match hread, Table.read_of_listing hlisting,
        mapM_eq_error_iff.mpr ⟨_, _, _, _, rfl, hbefore, hitem⟩]
    | incomplete hread hlisting hes =>
      rw [readTable_eq_match hread, Table.read_of_listing hlisting, hes]
      rfl

/-! ## Tables -/

def ListsEntries (d : Disk Id) (path : String) (es : List Entry) : Prop :=
  ∃ items, d.Holds path items ∧ items.mapM Entry.ofValue = .ok es

/-- The entries at a path: those of a document, or of the documents of a directory one after
another. -/
inductive HoldsEntries (d : Disk Id) (path : String) : List Entry → Prop
  | file {es : List Entry} :
      d.isDirectory path = pure false → d.ListsEntries path es → HoldsEntries d path es
  | directory {names documents : List String} {tables : List (List Entry)} :
      d.isDirectory path = pure true → d.list path = pure (.ok names) →
      Arrangement names documents →
      List.Forall₂ (fun name es => d.ListsEntries (Path.join path name) es) documents tables →
      HoldsEntries d path tables.flatten

/-- The table at a path has the entries there, and all of them are well formed. -/
structure HoldsTable (d : Disk Id) (path : String) (t : Table) : Prop where
  entries : d.HoldsEntries path t.entries
  wellFormed : ∀ e ∈ t.entries, e.WellFormed

inductive RefusesTable (d : Disk Id) (path : String) : LoadFault → Prop
  | unlisted {fault : ReadFault} : d.isDirectory path = pure true →
      d.list path = pure (.error fault) → RefusesTable d path (.io fault.message path)
  | file {fault : LoadFault} :
      d.isDirectory path = pure false → d.RefusesEntries path fault → RefusesTable d path fault
  | directory {names before after : List String} {name : String} {fault : LoadFault} :
      d.isDirectory path = pure true → d.list path = pure (.ok names) →
      Arrangement names (before ++ name :: after) →
      (∀ earlier ∈ before, d.Readable (Path.join path earlier)) →
      d.RefusesEntries (Path.join path name) fault → RefusesTable d path fault
  | entry {es : List Entry} {i : Table.Invalid} :
      d.HoldsEntries path es → (Table.ofEntries es).FirstFault i → RefusesTable d path i.loadFault

theorem readTable_of_listsEntries (h : d.ListsEntries path es) :
    d.readTable path = pure (.ofEntries es) := by
  obtain ⟨items, hitems, hes⟩ := h
  exact readTable_of_holds hitems hes

theorem readTables_of_listsEntries {tables : List (List Entry)}
    (h : List.Forall₂ d.ListsEntries paths tables) :
    d.readTables paths = pure (.ofEntries tables.flatten) := by
  -- reading takes the arrays and their entries apart
  obtain ⟨arrays, harrays, htables⟩ : ∃ arrays, List.Forall₂ d.Holds paths arrays ∧
      List.Forall₂ (fun items es => items.mapM Entry.ofValue = .ok es) arrays tables := by
    induction h with
    | nil => exact ⟨[], .nil, .nil⟩
    | cons hes _ ih =>
      obtain ⟨items, hitems, hes⟩ := hes
      obtain ⟨arrays, harrays, htables⟩ := ih
      exact ⟨items :: arrays, .cons hitems harrays, .cons hes htables⟩
  exact readTables_of_holds harrays htables

theorem exists_tables (h : ∀ name ∈ documents, d.Readable (Path.join path name)) :
    ∃ tables, List.Forall₂ (fun name es => d.ListsEntries (Path.join path name) es)
      documents tables := by
  induction documents with
  | nil => exact ⟨[], .nil⟩
  | cons name documents ih =>
    obtain ⟨hname, hrest⟩ := List.forall_mem_cons.mp h
    obtain ⟨items, es, hitems, hes⟩ := hname
    obtain ⟨tables, htables⟩ := ih hrest
    exact ⟨es :: tables, .cons ⟨items, hitems, hes⟩ htables⟩

theorem gatherTable_of_holdsEntries (h : d.HoldsEntries path es) :
    d.gatherTable path = pure (.ofEntries es) := by
  cases h with
  | file hfile hes => rw [gatherTable_of_file hfile, readTable_of_listsEntries hes]
  | directory hdirectory hlist harranged htables =>
    rw [gatherTable_of_directory hdirectory hlist, ← harranged.eq_documentNames]
    exact readTables_of_listsEntries (List.forall₂_map_left_iff.mpr htables)

theorem loadTable_of_holdsTable (h : d.HoldsTable path t) : (d.loadTable path).run = .ok t := by
  rcases run_loadTable (gatherTable_of_holdsEntries h.entries) with ⟨-, hrun⟩ | ⟨i, hfault, -⟩
  · rw [hrun, show Table.ofEntries t.entries = t from Table.ext rfl]
  · exact absurd h.wellFormed hfault.not_wellFormed

theorem loadTable_of_refusesTable (h : d.RefusesTable path fault) :
    (d.loadTable path).run = .error fault := by
  -- entries that cannot be gathered are not validated
  have hgather : (d.gatherTable path).run = .error fault →
      (d.loadTable path).run = .error fault := by
    intro hgather
    unfold loadTable
    rw [run_bind_eq_match, hgather]
  cases h with
  | unlisted hdirectory hlist =>
    apply hgather
    unfold gatherTable
    rw [hdirectory, liftM_pure, pure_bind, if_pos rfl, hlist, liftM_pure, pure_bind]
    rfl
  | file hfile hentries =>
    apply hgather
    rw [gatherTable_of_file hfile, readTable_eq_error_iff.mpr hentries]
  | directory hdirectory hlist harranged hbefore hentries =>
    apply hgather
    rw [gatherTable_of_directory hdirectory hlist, ← harranged.eq_documentNames, List.map_append,
      List.map_cons]
    exact readTables_of_fault (List.forall_mem_map.mpr hbefore)
      (readTable_eq_error_iff.mpr hentries) _
  | entry hentries hfault =>
    rcases run_loadTable (gatherTable_of_holdsEntries hentries) with ⟨hwell, -⟩ | ⟨i, hfirst, hrun⟩
    · exact absurd hwell hfault.not_wellFormed
    · rw [hrun, hfirst.unique hfault]

theorem holdsEntries_or_refusesTable (d : Disk Id) (path : String) :
    (∃ es, d.HoldsEntries path es) ∨ ∃ fault, d.RefusesTable path fault := by
  cases hdirectory : d.isDirectory path with
  | false =>
    cases hread : (d.readTable path).run with
    | error fault => exact .inr ⟨fault, .file hdirectory (readTable_eq_error_iff.mp hread)⟩
    | ok t =>
      obtain ⟨items, es, hitems, hes⟩ := readable_of_readTable hread
      exact .inl ⟨es, .file hdirectory ⟨items, hitems, hes⟩⟩
  | true =>
    cases hlist : d.list path with
    | error fault => exact .inr ⟨_, .unlisted hdirectory hlist⟩
    | ok names =>
      have harranged := Arrangement.of_documentNames names
      by_cases hall : ∀ name ∈ documentNames names, d.Readable (Path.join path name)
      · obtain ⟨tables, htables⟩ := exists_tables hall
        exact .inl ⟨_, .directory hdirectory hlist harranged htables⟩
      · obtain ⟨before, name, after, fault, hsplit, hbefore, hfault⟩ := exists_first_fault hall
        exact .inr ⟨fault, .directory hdirectory hlist (hsplit ▸ harranged) hbefore
          (readTable_eq_error_iff.mp hfault)⟩

theorem holdsTable_or_refusesTable (d : Disk Id) (path : String) :
    (∃ t, d.HoldsTable path t) ∨ ∃ fault, d.RefusesTable path fault := by
  rcases holdsEntries_or_refusesTable d path with ⟨es, hes⟩ | hrefused
  · rcases run_loadTable (gatherTable_of_holdsEntries hes) with ⟨hwell, -⟩ | ⟨i, hfault, -⟩
    · exact .inl ⟨.ofEntries es, hes, hwell⟩
    · exact .inr ⟨_, .entry hes hfault⟩
  · exact .inr hrefused

theorem loadTable_eq_ok_iff : (d.loadTable path).run = .ok t ↔ d.HoldsTable path t := by
  refine ⟨fun h => ?_, loadTable_of_holdsTable⟩
  rcases holdsTable_or_refusesTable d path with ⟨u, hu⟩ | ⟨fault, hfault⟩
  · rw [loadTable_of_holdsTable hu] at h
    cases h
    exact hu
  · rw [loadTable_of_refusesTable hfault] at h
    cases h

theorem loadTable_eq_error_iff :
    (d.loadTable path).run = .error fault ↔ d.RefusesTable path fault := by
  refine ⟨fun h => ?_, loadTable_of_refusesTable⟩
  rcases holdsTable_or_refusesTable d path with ⟨u, hu⟩ | ⟨why, hwhy⟩
  · rw [loadTable_of_holdsTable hu] at h
    cases h
  · rw [loadTable_of_refusesTable hwhy] at h
    cases h
    exact hwhy

end Disk

end StatProse
