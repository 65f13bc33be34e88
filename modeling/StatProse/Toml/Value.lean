import StatProse.Toml.Moment

/-!
# TOML values
-/

namespace StatProse.Toml

inductive Value where
  | text (s : String)
  | integer (n : Int)
  | float (x : Double)
  | bool (b : Bool)
  | moment (t : Moment)
  | array (items : List Value)
  | table (members : List (String × Value))

/-- A reader of whole documents, which gives the members of the table that a document is. -/
abbrev DocumentReader := String → Option (List (String × Value))

namespace Value

instance : Inhabited Value := ⟨table []⟩

def text? : Value → Option String
  | text s => some s
  | _ => none

def list? {α : Type} (item? : Value → Option α) : Value → Option (List α)
  | array items => items.mapM item?
  | _ => none

end Value

end StatProse.Toml
