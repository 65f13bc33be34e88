import StatProse.Document.Rule
import StatProse.Table
import StatProse.Text.Uppercase

/-!
# Table documents

A table document is an array of entries. An entry is an object with its stat ids under
`ids` and the rules of a language under every key that begins with an uppercase character.
Other keys are ignored. Of several members of one key the last counts, in the whole of an
entry, but `ids` may not repeat.

Entries are read one after another, so what is wrong with an entry is found before what is
wrong with the text after it.
-/

namespace StatProse

open Json Document

inductive DocumentFault where
  | malformed
  /-- The rules of a language are not well formed. -/
  | language (name : String)
deriving DecidableEq

namespace Entry

def idsKey : String := "ids"

def isLanguageKey (key : String) : Bool := key.toList.head?.any isUppercase

/-- The languages of an entry in ascending order, each with the value that counts. -/
def languageMembers (members : List (String × Value)) : List (String × Value) :=
  (members.filter (fun m => isLanguageKey m.1)).foldl
    (fun pages m => Phrasebook.insertPage m.1 m.2 pages) []

def readRules? (v : Value) : Option (List Rule) := v.lastWins.list? Rule.read?

def readPages : List (String × Value) → Except DocumentFault Phrasebook
  | [] => .ok .empty
  | (language, v) :: members =>
    match readRules? v with
    | none => .error (.language language)
    | some rules => (readPages members).map (·.insert language rules)

def ofMembers (members : List (String × Value)) : Except DocumentFault Entry :=
  match members.filter (fun m => m.1 == idsKey) with
  | [(_, v)] =>
    match v.list? Value.text? with
    | some ids => (readPages (languageMembers members)).map (fun phrases => { ids, phrases })
    | none => .error .malformed
  | _ => .error .malformed

def ofValue : Value → Except DocumentFault Entry
  | .object members => ofMembers members
  | _ => .error .malformed

end Entry

namespace Table

def ofListing (l : Listing) : Except DocumentFault Table := do
  let entries ← l.items.mapM Entry.ofValue
  if l.complete then .ok (ofEntries entries) else .error .malformed

def read (document : String) : Except DocumentFault Table := ofListing (readListing document)

end Table

end StatProse
