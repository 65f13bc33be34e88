import StatProse.Number.Literal

/-!
# JSON values

Objects keep their members in the order of the text, repeated keys included, and numbers
keep their literal. Which of several members counts is decided by whoever reads the object.

Some texts are of the right form and still have no value: a string with half of a surrogate
pair, a number beyond the doubles, an object with a key of that kind, and what is nested too
deep. They are kept as `unread`, so whoever ignores a member need not know what it holds.
-/

namespace StatProse.Json

inductive Value where
  | null
  | bool (b : Bool)
  | number (literal : Literal)
  | text (s : String)
  | array (items : List Value)
  | object (members : List (String × Value))
  /-- A text that has the form of a value but no value. -/
  | unread

namespace Value

instance : Inhabited Value := ⟨null⟩

mutual
/-- The value with the last of several members of one key in every object. -/
def lastWins : Value → Value
  | array items => array (lastWinsItems items)
  | object members => object (lastWinsMembers members)
  | v => v
def lastWinsItems : List Value → List Value
  | [] => []
  | v :: vs => v.lastWins :: lastWinsItems vs
def lastWinsMembers : List (String × Value) → List (String × Value)
  | [] => []
  | (key, v) :: members =>
    if members.any (fun m => m.1 == key) then lastWinsMembers members
    else (key, v.lastWins) :: lastWinsMembers members
end

mutual
def isRead : Value → Bool
  | unread => false
  | array items => areItemsRead items
  | object members => areMembersRead members
  | _ => true
def areItemsRead : List Value → Bool
  | [] => true
  | v :: vs => v.isRead && areItemsRead vs
def areMembersRead : List (String × Value) → Bool
  | [] => true
  | (_, v) :: members => v.isRead && areMembersRead members
end

def bool? : Value → Option Bool
  | bool b => some b
  | _ => none

def text? : Value → Option String
  | text s => some s
  | _ => none

def list? {α : Type} (item? : Value → Option α) : Value → Option (List α)
  | array items => items.mapM item?
  | _ => none

end Value

end StatProse.Json
