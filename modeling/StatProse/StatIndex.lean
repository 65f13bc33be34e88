import Std.Data.HashMap
import StatProse.Modifier
import StatProse.Table

/-!
# Stat indices

A stat index numbers stat ids from zero in the order in which they are first seen. The
numbers stay as the index grows, so other data can be keyed by them.
-/

namespace StatProse

/-- Stat ids by position, and positions by stat id. The two are inverse to each other. -/
structure StatIndex where
  ids : Array String := #[]
  positions : Std.HashMap String Nat := ∅
  inverse : ∀ (id : String) (position : Nat),
    positions[id]? = some position ↔ ids[position]? = some id := by simp

namespace StatIndex

def empty : StatIndex := {}

instance : Inhabited StatIndex := ⟨empty⟩

def size (ix : StatIndex) : Nat := ix.ids.size

def position? (ix : StatIndex) (id : String) : Option Nat := ix.positions[id]?

def id? (ix : StatIndex) (position : Nat) : Option String := ix.ids[position]?

theorem inverse_push (ix : StatIndex) {newId : String} (h : ix.position? newId = none)
    (id : String) (position : Nat) :
    (ix.positions.insert newId ix.size)[id]? = some position ↔
      (ix.ids.push newId)[position]? = some id := by
  rw [Std.HashMap.getElem?_insert, Array.getElem?_push]
  -- a new id has no position yet, and the position behind the last one has no id yet
  by_cases hid : newId = id
  · subst hid
    by_cases hp : position = ix.size
    · simp [hp, size]
    · have hne : ix.ids[position]? ≠ some newId := fun hget => by
        have := (ix.inverse newId position).mpr hget
        simp [position?] at h
        simp [h] at this
      simpa [size, hne] using eq_comm
  · by_cases hp : position = ix.size
    · have hnone : ix.positions[id]? ≠ some position := fun hget => by
        have := (ix.inverse id position).mp hget
        simp [hp, size] at this
      simp [hid, hp, size]
      simpa [hp, size] using hnone
    · simpa [hid, show ¬position = ix.ids.size from hp] using ix.inverse id position

def insert (ix : StatIndex) (id : String) : StatIndex :=
  match h : ix.position? id with
  | some _ => ix
  | none => ⟨ix.ids.push id, ix.positions.insert id ix.size, ix.inverse_push h⟩

def insertPosition (ix : StatIndex) (id : String) : Nat := (ix.position? id).getD ix.size

def insertAll (ix : StatIndex) (ids : List String) : StatIndex := ids.foldl insert ix

def ofIds (ids : List String) : StatIndex := empty.insertAll ids

def ofTable (t : Table) : StatIndex := ofIds (t.entries.flatMap (·.ids))

def ofModifiers (ms : List Modifier) : StatIndex := ofIds (ms.flatMap (·.stats.map (·.id)))

def insertAscending (position : Nat) : List Nat → List Nat
  | [] => [position]
  | p :: ps =>
    if position < p then position :: p :: ps
    else if p < position then p :: insertAscending position ps
    else p :: ps

/-- The positions of the indexed stats of a modifier, ascending and each once. Modifiers
with the same indexed stats have the same signature. -/
def signature (ix : StatIndex) (m : Modifier) : List Nat :=
  (m.stats.filterMap (fun s => ix.position? s.id)).foldr insertAscending []

end StatIndex

end StatProse
