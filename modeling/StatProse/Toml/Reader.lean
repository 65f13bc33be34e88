import StatProse.Toml.Scalar
import StatProse.Toml.Tree

/-!
# Reading TOML

A document is a row of lines, each a pair of key and value or a header. The values are
scalars, arrays and inline tables. A key that is given twice, or whose table is not open any
more, spoils the document.
-/

namespace StatProse.Toml

/-- Skips blanks, line breaks and comments. Inside a comment, its rest is skipped first. -/
def skipSpace (comment : Bool) : List Char → Option (List Char)
  | [] => some []
  | '\n' :: cs => skipSpace false cs
  | '\r' :: '\n' :: cs => skipSpace false cs
  | c :: cs =>
    if comment then (if isPlain c then skipSpace true cs else none)
    else if c = '#' then skipSpace true cs
    else if isBlank c then skipSpace false cs
    else some (c :: cs)

def readLineEnd (comment : Bool) : List Char → Option (List Char)
  | [] => some []
  | '\n' :: cs => some cs
  | '\r' :: '\n' :: cs => some cs
  | c :: cs =>
    if comment then (if isPlain c then readLineEnd true cs else none)
    else if c = '#' then readLineEnd true cs
    else if isBlank c then readLineEnd false cs
    else none

/-! ## Keys -/

def isBare (c : Char) : Bool := c.isAlphanum || c = '_' || c = '-'

def readKeyPart : Reader String
  | '"' :: cs => (readBasic false false cs).map (fun (s, cs) => (String.ofList s, cs))
  | '\'' :: cs => (readLiteral false cs).map (fun (s, cs) => (String.ofList s, cs))
  | cs =>
    match cs.takeWhile isBare with
    | [] => none
    | part => some (String.ofList part, cs.dropWhile isBare)

/-- The greatest number of arrays and inline tables inside one another, and of the parts
of a key. -/
def maxDepth : Nat := 79

def readKeyParts : Nat → Reader (List String)
  | 0, _ => none
  | steps + 1, cs => do
    let (part, cs) ← readKeyPart (skipBlanks cs)
    match skipBlanks cs with
    | '.' :: cs => (readKeyParts steps cs).map (fun (parts, cs) => (part :: parts, cs))
    | cs => some ([part], cs)

def readKey : Reader (List String) := readKeyParts maxDepth

/-! ## Values -/

/-- The items of an array whose opening bracket has been read. Line breaks and comments may
stand between them, and a comma may follow the last. -/
def readItems (value : Reader Value) : Nat → Reader (List Value)
  | 0, _ => none
  | steps + 1, cs => do
    match ← skipSpace false cs with
    | ']' :: cs => some ([], cs)
    | cs =>
      let (v, cs) ← value cs
      match ← skipSpace false cs with
      | ',' :: cs => (readItems value steps cs).map (fun (vs, cs) => (v :: vs, cs))
      | ']' :: cs => some ([v], cs)
      | _ => none

structure Pair where
  path : List String
  key : String
  value : Value

def readPair (value : Reader Value) : Reader Pair := fun cs => do
  let (parts, cs) ← readKey cs
  let key ← parts.getLast?
  match cs with
  | '=' :: cs =>
    let (v, cs) ← value (skipBlanks cs)
    return (⟨parts.dropLast, key, v⟩, cs)
  | _ => none

/-- The pairs of an inline table, which stands on one line and has no trailing comma. -/
def readPairs (value : Reader Value) : Nat → Reader (List Pair)
  | 0, _ => none
  | steps + 1, cs => do
    let (pair, cs) ← readPair value (skipBlanks cs)
    match skipBlanks cs with
    | ',' :: cs => (readPairs value steps cs).map (fun (pairs, cs) => (pair :: pairs, cs))
    -- no comma may follow the last pair
    | '\x7d' :: cs => some ([pair], cs)
    | _ => none

def inlineTable? (pairs : List Pair) : Option Value := do
  let members ← pairs.foldlM (fun (ms : Members) p => Members.add p.key p.value p.path ms) []
  return .table (Node.closeMembers members)

def readInline (value : Reader Value) : Reader Value := fun cs =>
  match skipBlanks cs with
  | '\x7d' :: cs => some (.table [], cs)
  | cs => do
    let (pairs, cs) ← readPairs value cs.length cs
    return (← inlineTable? pairs, cs)

def readValue : Nat → Reader Value
  | 0, cs => readScalar cs
  | depth + 1, cs =>
    match cs with
    | '[' :: cs =>
      (readItems (fun cs => readValue depth cs) (cs.length + 1) cs).map
        (fun (items, cs) => (.array items, cs))
    | '\x7b' :: cs => readInline (fun cs => readValue depth cs) cs
    | cs => readScalar cs

/-! ## Documents -/

inductive Statement where
  | pair (p : Pair)
  | header (path : List String)
  | itemHeader (path : List String)

def readStatement : Reader Statement
  | '[' :: '[' :: cs => do
    match ← readKey cs with
    | (path, ']' :: ']' :: cs) => some (.itemHeader path, cs)
    | _ => none
  | '[' :: cs => do
    match ← readKey cs with
    | (path, ']' :: cs) => some (.header path, cs)
    | _ => none
  | cs => (readPair (readValue maxDepth) cs).map (fun (p, cs) => (.pair p, cs))

def readStatements : Nat → List Char → Option (List Statement)
  | 0, _ => none
  | steps + 1, cs => do
    match ← skipSpace false cs with
    | [] => some []
    | cs =>
      let (statement, cs) ← readStatement cs
      let cs ← readLineEnd false cs
      (readStatements steps cs).map (statement :: ·)

/-- A document that has been read up to some line: its members, and the path of the table
that is open, which is empty before the first header. -/
structure Draft where
  root : Members := []
  openPath : List String := []

namespace Draft

def step (d : Draft) : Statement → Option Draft
  | .pair p =>
    let root? :=
      -- no header has been read yet
      if d.openPath.isEmpty then Members.add p.key p.value p.path d.root
      else Members.alter (Node.addTo p.path p.key p.value) d.openPath d.root
    root?.map (⟨·, d.openPath⟩)
  | .header path => (Members.alter Node.head path d.root).map (⟨·, path⟩)
  | .itemHeader path => (Members.alter Node.extend path d.root).map (⟨·, path⟩)

end Draft

def dropMark : List Char → List Char
  -- a byte order mark may stand before the first line
  | '\ufeff' :: cs => cs
  | cs => cs

def read? (document : String) : Option (List (String × Value)) := do
  let cs := dropMark document.toList
  let statements ← readStatements (cs.length + 1) cs
  let draft ← statements.foldlM Draft.step {}
  return Node.closeMembers draft.root

end StatProse.Toml
