import Std.Data.HashMap
import StatProse.Entry

/-!
# Tables

A table is a list of entries. Stats are looked up through a map from each stat id to the
first entry that mentions it; the map is determined by the entries, and `position?_eq`
says that a lookup finds what a scan of the entries finds.
-/

namespace StatProse

/-- Adds the ids of one entry to a map from ids to entry positions. Ids that the map
already holds keep their position. -/
def noteIds (position : Nat) (ids : List String) (map : Std.HashMap String Nat) :
    Std.HashMap String Nat :=
  ids.foldl (fun map id => map.insertIfNew id position) map

def noteEntries (position : Nat) : List Entry → Std.HashMap String Nat → Std.HashMap String Nat
  | [], map => map
  | e :: entries, map => noteEntries (position + 1) entries (noteIds position e.ids map)

theorem getElem?_noteIds (position : Nat) (ids : List String) (map : Std.HashMap String Nat)
    (id : String) :
    (noteIds position ids map)[id]? = map[id]?.or (if id ∈ ids then some position else none) := by
  induction ids generalizing map with
  | nil => simp [noteIds]
  | cons first ids ih =>
    rw [show noteIds position (first :: ids) map
      = noteIds position ids (map.insertIfNew first position) from rfl, ih,
      Std.HashMap.getElem?_insertIfNew]
    by_cases hid : first = id
    · subst hid
      cases hm : map[first]? with
      | none => simp [← Std.HashMap.contains_iff_mem, Std.HashMap.contains_eq_isSome_getElem?, hm]
      | some p => simp [← Std.HashMap.contains_iff_mem, Std.HashMap.contains_eq_isSome_getElem?, hm]
    · simp [hid, Ne.symm hid]

theorem getElem?_noteEntries (position : Nat) (entries : List Entry)
    (map : Std.HashMap String Nat) (id : String) :
    (noteEntries position entries map)[id]? =
      map[id]?.or ((entries.findIdx? (·.mentions id)).map (position + ·)) := by
  induction entries generalizing position map with
  | nil => simp [noteEntries]
  | cons e entries ih =>
    rw [noteEntries, ih, getElem?_noteIds, List.findIdx?_cons]
    by_cases hid : id ∈ e.ids
    · simp [Entry.mentions, hid]
    · have hshift : (fun n => position + 1 + n) = (fun n => position + (n + 1)) := by
        funext n
        omega
      simp [Entry.mentions, hid, Option.map_map, Function.comp_def, hshift]

structure Table where
  entries : List Entry
  firsts : Std.HashMap String Nat := noteEntries 0 entries ∅
  firsts_eq : firsts = noteEntries 0 entries ∅ := by rfl

namespace Table

theorem ext {s t : Table} (h : s.entries = t.entries) : s = t := by
  obtain ⟨entries, _, rfl⟩ := s
  obtain ⟨_, _, rfl⟩ := t
  cases h
  rfl

def ofEntries (entries : List Entry) : Table := { entries }

def empty : Table := ofEntries []

instance : Inhabited Table := ⟨empty⟩

def size (t : Table) : Nat := t.entries.length

def entry? (t : Table) (position : Nat) : Option Entry := t.entries[position]?

def position? (t : Table) (id : String) : Option Nat := t.firsts[id]?

def entryFor? (t : Table) (id : String) : Option (Nat × Entry) := do
  let position ← t.position? id
  let e ← t.entry? position
  return (position, e)

def append (t u : Table) : Table := ofEntries (t.entries ++ u.entries)

instance : Append Table := ⟨append⟩

structure Invalid where
  position : Nat
  fault : EntryFault
deriving DecidableEq

/-- The first entry with a fault, counting positions from the given one. -/
def firstInvalid? (position : Nat) : List Entry → Option Invalid
  | [] => none
  | e :: entries =>
    match e.fault? with
    | some fault => some ⟨position, fault⟩
    | none => firstInvalid? (position + 1) entries

def invalid? (t : Table) : Option Invalid := firstInvalid? 0 t.entries

theorem position?_eq (t : Table) (id : String) :
    t.position? id = t.entries.findIdx? (·.mentions id) := by
  simp [position?, t.firsts_eq, getElem?_noteEntries]

theorem entryFor?_eq (t : Table) (id : String) :
    t.entryFor? id = (t.entries.findIdx? (·.mentions id)).bind
      (fun position => (t.entries[position]?).map (position, ·)) := by
  simp only [entryFor?, entry?, position?_eq, Option.map_eq_bind]
  rfl

end Table

end StatProse
