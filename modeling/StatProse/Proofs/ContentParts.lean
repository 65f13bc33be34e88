import StatProse.Proofs.TableParts

/-!
# The parts of a content

A content is loaded part by part: the settings, then the table that they name, then the
modifiers if they name any. It is loaded if all its parts can be, and otherwise the loading
ends with the fault of the first part that cannot be.
-/

namespace StatProse

/-! ## Documents -/

namespace Disk

variable {α β : Type} {d : Disk Id} {base path text : String} {read? : String → Option α}
  {g : α → β} {a : α} {b : β} {malformed fault : LoadFault}

def HoldsDocument (d : Disk Id) (read? : String → Option α) (path : String) (a : α) : Prop :=
  ∃ text : String, d.read path = pure (.ok text.toUTF8) ∧ read? text = some a

inductive Refuses (d : Disk Id) (read? : String → Option α) (path : String)
    (malformed : LoadFault) : LoadFault → Prop
  | unreadable {fault : LoadFault} :
      d.Unreadable path fault → Refuses d read? path malformed fault
  | malformed {text : String} : d.read path = pure (.ok text.toUTF8) → read? text = none →
      Refuses d read? path malformed malformed

/-- Reads a document and makes something of it. Settings and modifiers are loaded so. -/
def readDocument (d : Disk Id) (read? : String → Option α) (g : α → β) (malformed : LoadFault)
    (path : String) : ExceptT LoadFault Id β := do
  match read? (← d.readText path) with
  | some a => return g a
  | none => throw malformed

theorem readDocument_eq_ok_iff : (d.readDocument read? g malformed path).run = .ok b ↔
    ∃ a, d.HoldsDocument read? path a ∧ g a = b := by
  rw [readDocument, run_bind_eq_ok_iff]
  constructor
  · rintro ⟨text, htext, h⟩
    cases ha : read? text with
    | none =>
      simp only [ha] at h
      cases h
    | some a =>
      simp only [ha] at h
      cases h
      exact ⟨a, ⟨text, readText_eq_ok_iff.mp htext, ha⟩, rfl⟩
  · rintro ⟨a, ⟨text, htext, ha⟩, rfl⟩
    refine ⟨text, readText_eq_ok_iff.mpr htext, ?_⟩
    simp only [ha]
    rfl

theorem readDocument_eq_error_iff : (d.readDocument read? g malformed path).run = .error fault ↔
    d.Refuses read? path malformed fault := by
  rw [readDocument, run_bind_eq_error_iff]
  constructor
  · rintro (h | ⟨text, htext, h⟩)
    · exact .unreadable (readText_eq_error_iff.mp h)
    · cases ha : read? text with
      | none =>
        simp only [ha] at h
        cases h
        exact .malformed (readText_eq_ok_iff.mp htext) ha
      | some a =>
        simp only [ha] at h
        cases h
  · intro h
    cases h with
    | unreadable h => exact .inl (readText_eq_error_iff.mpr h)
    | malformed htext ha =>
      refine .inr ⟨_, readText_eq_ok_iff.mpr htext, ?_⟩
      simp only [ha]
      rfl

def readMembers? (text : String) : Option (List (String × Modifier)) :=
  Json.read? text >>= Modifiers.read?

theorem loadSettings_eq (d : Disk Id) (toml : Toml.DocumentReader) (path : String) :
    d.loadSettings toml path = d.readDocument (Settings.read? toml) id (.toml path) path := by
  unfold loadSettings readDocument
  congr 1
  funext text
  cases Settings.read? toml text <;> rfl

theorem loadModifiers_eq (d : Disk Id) (path : String) : d.loadModifiers path =
    d.readDocument readMembers? Modifiers.ofMembers (.json .malformed path) path := by
  unfold loadModifiers readDocument
  congr 1
  funext text
  unfold readMembers?
  cases Json.read? text >>= Modifiers.read? <;> rfl

end Disk

/-! ## Keys -/

namespace Modifiers

variable {fields : List (String × Json.Value)} {members : List (String × Modifier)} {id : String}

theorem keys_of_read? (h : read? (.object fields) = some members) :
    members.map Prod.fst = fields.map Prod.fst := by
  unfold read? at h
  induction fields generalizing members with
  | nil =>
    cases h
    rfl
  | cons field fields ih =>
    simp only [List.mapM_cons, Option.bind_eq_bind, Option.bind_eq_some_iff] at h
    obtain ⟨member, hmember, rest, hrest, heq⟩ := h
    obtain ⟨m, -, rfl⟩ := Option.map_eq_some_iff.mp hmember
    cases heq
    simp [ih hrest]

theorem mem_foldl_insert (ms : Modifiers) :
    id ∈ members.foldl (fun ms (key, m) => ms.insert key { m with id := key }) ms ↔
      id ∈ ms ∨ id ∈ members.map Prod.fst := by
  induction members generalizing ms with
  | nil => simp
  | cons member members ih =>
    simp only [List.foldl_cons, ih, Std.HashMap.mem_insert, beq_iff_eq, List.map_cons,
      List.mem_cons]
    constructor
    · rintro ((hid | hid) | hid)
      · exact .inr (.inl hid.symm)
      · exact .inl hid
      · exact .inr (.inr hid)
    · rintro (hid | hid | hid)
      · exact .inl (.inr hid)
      · exact .inl (.inl hid.symm)
      · exact .inr hid

theorem mem_ofMembers : id ∈ ofMembers members ↔ id ∈ members.map Prod.fst := by
  simp [ofMembers, mem_foldl_insert]

end Modifiers

/-! ## Parts -/

/-- The modifiers at a path that the settings may name, by the keys of their document. -/
inductive Disk.HoldsModifiers (d : Disk Id) (base : String) :
    Option String → List String → Modifiers → Prop
  | unnamed : HoldsModifiers d base none [] ∅
  | named {path : String} {fields : List (String × Json.Value)}
      {members : List (String × Modifier)} :
      d.HoldsDocument Json.read? (Path.join base path) (.object fields) →
      Modifiers.read? (.object fields) = some members →
      HoldsModifiers d base (some path) (fields.map Prod.fst) (Modifiers.ofMembers members)

namespace Disk

variable {d : Disk Id} {base : String} {path? : Option String} {ms : Modifiers}
  {fault : LoadFault}

def loadNamed (d : Disk Id) (base : String) : Option String → ExceptT LoadFault Id Modifiers
  | some path => d.loadModifiers (Path.join base path)
  | none => pure ∅

theorem loadNamed_eq_ok_iff :
    (d.loadNamed base path?).run = .ok ms ↔ ∃ keys, d.HoldsModifiers base path? keys ms := by
  constructor
  · intro h
    cases path? with
    | none =>
      cases h
      exact ⟨[], .unnamed⟩
    | some path =>
      rw [loadNamed, loadModifiers_eq, readDocument_eq_ok_iff] at h
      obtain ⟨members, ⟨text, htext, hmembers⟩, rfl⟩ := h
      obtain ⟨v, hv, hread⟩ := Option.bind_eq_some_iff.mp hmembers
      -- only an object has members
      cases v with
      | object fields => exact ⟨_, .named ⟨text, htext, hv⟩ hread⟩
      | _ => cases hread
  · rintro ⟨keys, h⟩
    cases h with
    | unnamed => rfl
    | named hfields hmembers =>
      obtain ⟨text, htext, hv⟩ := hfields
      rw [loadNamed, loadModifiers_eq, readDocument_eq_ok_iff]
      exact ⟨_, ⟨text, htext, Option.bind_eq_some_iff.mpr ⟨_, hv, hmembers⟩⟩, rfl⟩

theorem loadNamed_eq_error_iff : (d.loadNamed base path?).run = .error fault ↔
    ∃ path, path? = some path ∧ d.Refuses readMembers? (Path.join base path)
      (.json .malformed (Path.join base path)) fault := by
  cases path? with
  | none =>
    constructor
    · intro h
      cases h
    · rintro ⟨path, hpath, -⟩
      cases hpath
  | some path =>
    simp only [loadNamed, loadModifiers_eq, readDocument_eq_error_iff, Option.some.injEq,
      exists_eq_left']

end Disk

namespace Content

/-- All parts of a content can be loaded. The keys are those of the modifiers. -/
structure Parts (toml : Toml.DocumentReader) (d : Disk Id) (path : String) (keys : List String)
    (c : Content) : Prop where
  settings : d.HoldsDocument (Settings.read? toml) path c.settings
  table : d.HoldsTable (Path.join (Path.parent path) c.settings.tablePath) c.table
  modifiers :
    d.HoldsModifiers (Path.parent path) c.settings.modifierPath keys c.modifiers
  overrides : c.overrides = Overrides.builtin.insertAll c.settings.overrides

/-- The fault of the first part of a content that cannot be loaded. -/
inductive Fails (toml : Toml.DocumentReader) (d : Disk Id) (path : String) : LoadFault → Prop
  | settings {fault : LoadFault} :
      d.Refuses (Settings.read? toml) path (.toml path) fault → Fails toml d path fault
  | table {s : Settings} {fault : LoadFault} :
      d.HoldsDocument (Settings.read? toml) path s →
      d.RefusesTable (Path.join (Path.parent path) s.tablePath) fault → Fails toml d path fault
  | modifiers {s : Settings} {t : Table} {file : String} {fault : LoadFault} :
      d.HoldsDocument (Settings.read? toml) path s →
      d.HoldsTable (Path.join (Path.parent path) s.tablePath) t →
      s.modifierPath = some file →
      d.Refuses Disk.readMembers? (Path.join (Path.parent path) file)
        (.json .malformed (Path.join (Path.parent path) file)) fault →
      Fails toml d path fault

variable {toml : Toml.DocumentReader} {d : Disk Id} {path id : String} {keys : List String}
  {c : Content} {fault : LoadFault}

theorem Parts.modifier?_isSome_iff (h : Parts toml d path keys c) :
    (c.modifier? id).isSome ↔ id ∈ keys := by
  rw [modifier?, ← Std.HashMap.mem_iff_isSome_getElem?]
  -- the modifiers and the settings are taken out of the content for the cases
  generalize hms : c.modifiers = ms
  have hmodifiers := hms ▸ h.modifiers
  generalize c.settings.modifierPath = path? at hmodifiers
  cases hmodifiers with
  | unnamed => simp
  | named _ hmembers => rw [Modifiers.mem_ofMembers, Modifiers.keys_of_read? hmembers]

theorem load_eq (toml : Toml.DocumentReader) (d : Disk Id) (path : String) :
    load toml d path = do
    let s ← d.loadSettings toml path
    let t ← d.loadTable (Path.join (Path.parent path) s.tablePath)
    let ms ← d.loadNamed (Path.parent path) s.modifierPath
    return ⟨s, t, ms, Overrides.builtin.insertAll s.overrides⟩ := by
  unfold load
  congr 1
  funext s
  dsimp only
  congr 1
  funext t
  -- whether modifiers are named or not, the loading goes on in the same way
  cases s.modifierPath <;> rfl

theorem load_eq_ok_iff : (load toml d path).run = .ok c ↔ ∃ keys, Parts toml d path keys c := by
  simp only [load_eq, run_bind_eq_ok_iff, Disk.loadSettings_eq, Disk.readDocument_eq_ok_iff,
    Disk.loadTable_eq_ok_iff, Disk.loadNamed_eq_ok_iff]
  constructor
  · rintro ⟨_, ⟨s, hs, rfl⟩, t, ht, ms, ⟨keys, hms⟩, hc⟩
    cases hc
    exact ⟨keys, hs, ht, hms, rfl⟩
  · rintro ⟨keys, hs, ht, hms, hoverrides⟩
    refine ⟨_, ⟨_, hs, rfl⟩, _, ht, _, ⟨keys, hms⟩, ?_⟩
    rw [id, ← hoverrides]
    rfl

theorem load_eq_error_iff : (load toml d path).run = .error fault ↔ Fails toml d path fault := by
  simp only [load_eq, run_bind_eq_error_iff, Disk.loadSettings_eq, Disk.readDocument_eq_ok_iff,
    Disk.readDocument_eq_error_iff, Disk.loadTable_eq_ok_iff, Disk.loadTable_eq_error_iff,
    Disk.loadNamed_eq_error_iff]
  constructor
  · rintro (hs | ⟨_, ⟨s, hs, rfl⟩, ht | ⟨t, ht, hms | ⟨ms, -, hc⟩⟩⟩)
    · exact .settings hs
    · exact .table hs ht
    · obtain ⟨file, hfile, hms⟩ := hms
      exact .modifiers hs ht hfile hms
    · -- putting the parts together cannot fail
      cases hc
  · intro h
    cases h with
    | settings hs => exact .inl hs
    | table hs ht => exact .inr ⟨_, ⟨_, hs, rfl⟩, .inl ht⟩
    | modifiers hs ht hfile hms =>
      exact .inr ⟨_, ⟨_, hs, rfl⟩, .inr ⟨_, ht, .inl ⟨_, hfile, hms⟩⟩⟩

theorem parts_or_fails (toml : Toml.DocumentReader) (d : Disk Id) (path : String) :
    (∃ keys c, Parts toml d path keys c) ∨ ∃ fault, Fails toml d path fault := by
  cases h : (load toml d path).run with
  | error fault => exact .inr ⟨fault, load_eq_error_iff.mp h⟩
  | ok c =>
    obtain ⟨keys, hparts⟩ := load_eq_ok_iff.mp h
    exact .inl ⟨keys, c, hparts⟩

end Content

end StatProse
