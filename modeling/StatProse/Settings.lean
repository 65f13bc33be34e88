import StatProse.Describer
import StatProse.Toml.Value

/-!
# Settings

Settings say where the content is and how it is shown. They are written in TOML; keys that
are not known are ignored.
-/

namespace StatProse

structure Settings where
  language : String := defaultLanguage
  placeholder : Option String := none
  /-- The table document, or a directory of table documents. -/
  tablePath : String
  modifierPath : Option String := none
  overrides : List Override := []
deriving DecidableEq

open Toml

namespace Override

/-- An override: a table, or an array that starts with the type and the lines. -/
def ofToml? : Value → Option Override
  | .table members => do
    let type ← (← members.lookup "type").text?
    let lines ← (← members.lookup "lines").list? Value.text?
    return { type, lines }
  | .array (type :: lines :: _) => do
    return { type := ← type.text?, lines := ← lines.list? Value.text? }
  | _ => none

end Override

namespace Settings

def optional? {α : Type} (read? : Value → Option α) : Option Value → Option (Option α)
  | none => some none
  | some v => (read? v).map some

def ofMembers? (members : List (String × Value)) : Option Settings := do
  let language ← optional? Value.text? (members.lookup "language")
  let placeholder ← optional? Value.text? (members.lookup "placeholder")
  let tablePath ← (← members.lookup "translations").text?
  let modifierPath ← optional? Value.text? (members.lookup "mods")
  let overrides ← optional? (Value.list? Override.ofToml?) (members.lookup "overrides")
  return {
    language := language.getD defaultLanguage
    placeholder, tablePath, modifierPath
    overrides := overrides.getD [] }

def read? (toml : DocumentReader) (document : String) : Option Settings :=
  toml document >>= ofMembers?

end Settings

end StatProse
