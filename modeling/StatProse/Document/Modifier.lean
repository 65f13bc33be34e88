import Std.Data.HashMap
import StatProse.Document.Fields
import StatProse.Json.Reader
import StatProse.Modifier

/-!
# Modifier documents

A modifier document is an object of modifiers by id.
-/

namespace StatProse

open Json Document

def Stat.read? (v : Value) : Option Stat := do
  let field ← fields? ["id", "min", "max"] v
  let id ← required Value.text? (field "id")
  let min ← required Value.double? (field "min")
  let max ← required Value.double? (field "max")
  return { id, min, max }

namespace Document

/-- A name out of a list of names: a string, or an object with the name as its only key and
`null` for its value. -/
def name? : Value → Option String
  | .text s => some s
  | .object [(key, .null)] => some key
  | _ => none

def level? : Value → Option Nat
  -- at most 32 bits
  | .number l => (natural? l).filter (· < 2 ^ (32 : Nat))
  | _ => none

end Document

def Modifier.read? (v : Value) : Option Modifier := do
  let field ← fields? ["id", "type", "domain", "generation_type", "name", "required_level",
    "groups", "is_essence_only", "stats"] v
  let id ← defaulted Value.text? "" (field "id")
  let type ← required Value.text? (field "type")
  let domain ← defaulted (fun v => (name? v).map Domain.ofName) .item (field "domain")
  let generation ←
    defaulted (fun v => (name? v).map Generation.ofName) .front (field "generation_type")
  let name ← defaulted Value.text? "" (field "name")
  let requiredLevel ← defaulted level? 0 (field "required_level")
  let groups ← defaulted (Value.list? Value.text?) [] (field "groups")
  let isEssenceOnly ← defaulted Value.bool? false (field "is_essence_only")
  let stats ← defaulted (Value.list? Stat.read?) [] (field "stats")
  return { id, type, domain, generation, name, requiredLevel, groups, isEssenceOnly, stats }

abbrev Modifiers := Std.HashMap String Modifier

namespace Modifiers

/-- The modifiers of a document as they are written. A later member of the same key counts,
and all have to be well formed. -/
def read? : Value → Option (List (String × Modifier))
  | .object members => members.mapM (fun (key, v) => (Modifier.read? v).map (key, ·))
  | _ => none

def ofMembers (members : List (String × Modifier)) : Modifiers :=
  members.foldl (fun ms (key, m) => ms.insert key { m with id := key }) ∅

end Modifiers

end StatProse
