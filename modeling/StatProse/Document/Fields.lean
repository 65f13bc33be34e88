import StatProse.Json.Number

/-!
# Fields of records

A record is written as an object, or as an array of its fields in their order. In an object
unknown keys are ignored and may repeat, and a known key may not. In an array trailing
fields may be left out, and there may be no more items than fields. A field that is left
out is an error unless it has a default.
-/

namespace StatProse.Document

open Json

def fields? (names : List String) : Value → Option (String → Option Value)
  | .object members =>
    if names.all (fun name => members.countP (·.1 == name) ≤ 1) then
      some (fun name => members.lookup name)
    else none
  | .array items =>
    if items.length ≤ names.length then some (fun name => (names.zip items).lookup name)
    else none
  | _ => none

def required {α : Type} (read? : Value → Option α) (field : Option Value) : Option α :=
  field.bind read?

def defaulted {α : Type} (read? : Value → Option α) (default : α) : Option Value → Option α
  | some v => read? v
  | none => some default

def nullable? {α : Type} (read? : Value → Option α) : Value → Option (Option α)
  | .null => some none
  | v => (read? v).map some

end StatProse.Document
