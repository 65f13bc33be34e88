import StatProse.Document.Fields
import StatProse.Json.Reader
import StatProse.Rule

/-!
# Rules in documents
-/

namespace StatProse

open Json Document

def Condition.read? (v : Value) : Option Condition := do
  let field ← fields? ["min", "max"] v
  let min ← defaulted (nullable? Value.double?) none (field "min")
  let max ← defaulted (nullable? Value.double?) none (field "max")
  return { min, max }

namespace Transform

def read? (v : Value) : Option Transform := v.text?.map ofName

def readList? (v : Value) : Option (List Transform) := v.list? read?

end Transform

def Rule.read? (v : Value) : Option Rule := do
  let field ← fields? ["condition", "index_handlers", "format", "string"] v
  let conditions ← required (Value.list? Condition.read?) (field "condition")
  let handlers ← defaulted (Value.list? Transform.readList?) [] (field "index_handlers")
  let formats ← required (Value.list? Value.text?) (field "format")
  let template ← required Value.text? (field "string")
  return { conditions, handlers, formats, template }

end StatProse
