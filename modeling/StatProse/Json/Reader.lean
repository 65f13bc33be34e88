import StatProse.Json.Skim

/-!
# Reading JSON

Documents are read strictly: no comments, no trailing commas, nothing but blanks after the
value. What lies inside more than 127 arrays and objects is passed over.
-/

namespace StatProse.Json

/-- One or more items divided by commas, up to the closing mark. The items read so far are
held in reverse. The steps bound the number of items. -/
def readItems {α : Type} (item : Reader α) (close : Char) (held : List α) :
    Nat → Reader (List α)
  | 0, _ => none
  | steps + 1, cs =>
    match item (skipBlanks cs) with
    | none => none
    | some (x, cs) =>
      match skipBlanks cs with
      | c :: cs =>
        if c = close then some ((x :: held).reverse, cs)
        else if c = ',' then readItems item close (x :: held) steps cs
        else none
      | [] => none

def readBracketed {α : Type} (item : Reader α) (close : Char) (steps : Nat) :
    Reader (List α) := fun cs =>
  match skipBlanks cs with
  | c :: rest => if c = close then some ([], rest) else readItems item close [] steps cs
  | [] => none

def readMember (value : Reader Value) : Reader (Option String × Value) := fun cs =>
  match readKey cs with
  | none => none
  | some (key, cs) => (value (skipBlanks cs)).map (fun (v, cs) => ((key, v), cs))

def ofMembers (members : List (Option String × Value)) : Value :=
  match members.mapM (fun member => member.1.map (·, member.2)) with
  | some members => .object members
  | none => .unread

/-- A value. Arrays and objects at most `depth` deep are read, and any that are deeper are
passed over. None of them can have more items than the document has characters, which is
the number of `steps`. -/
def readValue (steps : Nat) : Nat → Reader Value
  | 0, cs =>
    match cs with
    | '[' :: _ | '{' :: _ => (skim? steps cs).map (.unread, ·)
    | cs => readScalar cs
  | depth + 1, cs =>
    match cs with
    | '[' :: cs =>
      (readBracketed (fun cs => readValue steps depth cs) ']' steps cs).map
        (fun (items, cs) => (.array items, cs))
    | '{' :: cs =>
      (readBracketed (readMember (fun cs => readValue steps depth cs)) '}' steps cs).map
        (fun (members, cs) => (ofMembers members, cs))
    | cs => readScalar cs

def maxDepth : Nat := 127

def read? (document : String) : Option Value :=
  let cs := document.toList
  match readValue cs.length maxDepth (skipBlanks cs) with
  | some (v, rest) => if (skipBlanks rest).isEmpty then some v else none
  | none => none

structure Listing where
  items : List Value
  complete : Bool

def listItems (length : Nat) (held : List Value) : Nat → List Char → Listing
  | 0, _ => ⟨held.reverse, false⟩
  | steps + 1, cs =>
    match readValue length (maxDepth - 1) (skipBlanks cs) with
    | none => ⟨held.reverse, false⟩
    | some (v, cs) =>
      if !v.isRead then ⟨held.reverse, false⟩
      else match skipBlanks cs with
      | ',' :: cs => listItems length (v :: held) steps cs
      | ']' :: cs => ⟨(v :: held).reverse, (skipBlanks cs).isEmpty⟩
      | _ => ⟨(v :: held).reverse, false⟩

/-- Reads a document that holds an array of items without unread parts. Where it cannot be
read any further, the items before that place are kept. -/
def readListing (document : String) : Listing :=
  let length := document.toList.length
  match skipBlanks document.toList with
  | '[' :: cs =>
    match skipBlanks cs with
    | ']' :: cs => ⟨[], (skipBlanks cs).isEmpty⟩
    | cs => listItems length [] length cs
  | _ => ⟨[], false⟩

end StatProse.Json
