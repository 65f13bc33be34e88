import StatProse.Toml.Value

/-!
# Reading TOML scalars

Strings stand between single quotation marks on one line, or between triple ones over several
lines. Numbers may have underscores between their digits.
-/

namespace StatProse.Toml

def isBlank (c : Char) : Bool := c = ' ' || c = '\t'

def skipBlanks (cs : List Char) : List Char := cs.dropWhile isBlank

def isPlain (c : Char) : Bool := c = '\t' || (0x20 ≤ c.toNat && c.toNat != 0x7F)

/-! ## Strings -/

def escaped? : Char → Option Char
  | '"' => some '"'
  | '\\' => some '\\'
  | 'b' => some '\x08'
  | 'f' => some '\x0c'
  | 'n' => some '\n'
  | 'r' => some '\r'
  | 't' => some '\t'
  | _ => none

def hexChar? (digits : List Char) : Option Char := do
  let code ← hexValue? digits
  if code.isValidChar then some (Char.ofNat code) else none

def dropBreak : List Char → List Char
  | '\n' :: cs => cs
  | '\r' :: '\n' :: cs => cs
  | cs => cs

def startsBreak : List Char → Bool
  | '\n' :: _ | '\r' :: '\n' :: _ => true
  | _ => false

/-- The end of a string. Up to two quotation marks before a triple one still belong to the
string. -/
def readClosing (long : Bool) (mark : Char) : Reader (List Char) := fun cs =>
  let count := (cs.takeWhile (· = mark)).length
  if long then
    if 3 ≤ count then some (List.replicate (min count 5 - 3) mark, cs.drop (min count 5)) else none
  else if 1 ≤ count then some ([], cs.drop 1)
  else none

/-- The characters of a string with escapes. After a backslash at the end of a line the string
goes on with the next character that is not blank. -/
def readBasic (long folding : Bool) : Reader (List Char)
  | [] => none
  | '\r' :: '\n' :: cs =>
    if folding then readBasic long true cs
    else if long then (readBasic long false cs).map (fun (s, cs) => ('\n' :: s, cs))
    else none
  | '\\' :: 'u' :: a :: b :: c :: d :: cs =>
    match hexChar? [a, b, c, d] with
    | none => none
    | some x => (readBasic long false cs).map (fun (s, cs) => (x :: s, cs))
  | '\\' :: 'U' :: a :: b :: c :: d :: e :: f :: g :: h :: cs =>
    match hexChar? [a, b, c, d, e, f, g, h] with
    | none => none
    | some x => (readBasic long false cs).map (fun (s, cs) => (x :: s, cs))
  | '\\' :: c :: cs =>
    if long && startsBreak (skipBlanks (c :: cs)) then readBasic long true (c :: cs)
    else
      match escaped? c with
      | none => none
      | some x => (readBasic long false cs).map (fun (s, cs) => (x :: s, cs))
  | c :: cs =>
    if folding && (c = '\n' || isBlank c) then readBasic long true cs
    else
      match readClosing long '"' (c :: cs) with
      | some closing => some closing
      | none =>
        if (long && c = '\n') || (c != '\\' && isPlain c) then
          (readBasic long false cs).map (fun (s, cs) => (c :: s, cs))
        else none

def readLiteral (long : Bool) : Reader (List Char)
  | [] => none
  | '\r' :: '\n' :: cs =>
    if long then (readLiteral long cs).map (fun (s, cs) => ('\n' :: s, cs)) else none
  | c :: cs =>
    match readClosing long '\'' (c :: cs) with
    | some closing => some closing
    | none =>
      if (long && c = '\n') || isPlain c then
        (readLiteral long cs).map (fun (s, cs) => (c :: s, cs))
      else none

/-- A string whose first quotation mark has been read. A line break right after a triple mark
is dropped. -/
def readString (mark : Char) (body : Bool → Reader (List Char)) : Reader String := fun cs =>
  let long := cs.take 2 == [mark, mark]
  (body long (if long then dropBreak (cs.drop 2) else cs)).map
    (fun (s, cs) => (String.ofList s, cs))

/-! ## Numbers -/

/-- Digits in which single underscores may stand between two digits. -/
def takeGrouped (isDigit : Char → Bool) : List Char → List Char × List Char
  | [] => ([], [])
  | [c] => if isDigit c then ([c], []) else ([], [c])
  | c :: d :: cs =>
    if isDigit c then
      let (digits, rest) := takeGrouped isDigit (d :: cs)
      (c :: digits, rest)
    else if c = '_' && isDigit d then takeGrouped isDigit (d :: cs)
    else ([], c :: d :: cs)

def readGrouped (isDigit : Char → Bool) : Reader (List Char)
  | [] => none
  | c :: cs => if isDigit c then some (takeGrouped isDigit (c :: cs)) else none

def readSign : List Char → Bool × List Char
  | '-' :: cs => (true, cs)
  | '+' :: cs => (false, cs)
  | cs => (false, cs)

def readWhole : Reader (List Char)
  -- a zero stands alone
  | '0' :: cs => some (['0'], cs)
  | cs => readGrouped Char.isDigit cs

def readFraction : Reader (List Char)
  | '.' :: cs => readGrouped Char.isDigit cs
  | cs => some ([], cs)

def readExponent : Reader (Option Int)
  | [] => some (none, [])
  | c :: cs =>
    if c = 'e' ∨ c = 'E' then
      let (negative, cs) := readSign cs
      (readGrouped Char.isDigit cs).map
        (fun (digits, cs) => (some ((if negative then -1 else 1) * digitsValue digits), cs))
    else some (none, c :: cs)

def readFloat : Reader Double := fun cs =>
  let (negative, cs) := readSign cs
  match cs with
  | 'i' :: 'n' :: 'f' :: cs => some (.infinite negative, cs)
  | 'n' :: 'a' :: 'n' :: cs => some (.nan, cs)
  | cs => do
    let (whole, cs) ← readWhole cs
    let (fraction, cs) ← readFraction cs
    let (exponent, cs) ← readExponent cs
    if fraction.isEmpty && exponent.isNone then none
    else
      let x := Literal.toDouble ⟨negative, whole, fraction, exponent⟩
      -- a number above all doubles is refused, one below all of them is not
      if x = .infinite false then none else some (x, cs)

def leastInteger : Int := -(2 ^ (63 : Nat))

def greatestInteger : Int := 2 ^ (63 : Nat) - 1

def integerIn? (n : Int) (rest : List Char) : Option (Int × List Char) :=
  if leastInteger ≤ n ∧ n ≤ greatestInteger then some (n, rest) else none

def valueIn (base : Nat) (digits : List Char) : Nat :=
  digits.foldl (fun n c => n * base + (hexDigit? c).getD 0) 0

def readBased (base : Nat) (isDigit : Char → Bool) : Reader Int := fun cs => do
  let (digits, cs) ← readGrouped isDigit cs
  integerIn? (valueIn base digits) cs

def readInteger : Reader Int
  | '0' :: 'x' :: cs => readBased 16 (fun c => (hexDigit? c).isSome) cs
  | '0' :: 'o' :: cs => readBased 8 (fun c => '0' ≤ c && c ≤ '7') cs
  | '0' :: 'b' :: cs => readBased 2 (fun c => c = '0' || c = '1') cs
  | cs => do
    let (negative, cs) := readSign cs
    let (digits, cs) ← readWhole cs
    integerIn? ((if negative then -1 else 1) * digitsValue digits) cs

/-! ## Scalars -/

def readScalar : Reader Value
  | '"' :: cs => (readString '"' (readBasic · false) cs).map (fun (s, cs) => (.text s, cs))
  | '\'' :: cs => (readString '\'' readLiteral cs).map (fun (s, cs) => (.text s, cs))
  | 't' :: 'r' :: 'u' :: 'e' :: cs => some (.bool true, cs)
  | 'f' :: 'a' :: 'l' :: 's' :: 'e' :: cs => some (.bool false, cs)
  | cs =>
    -- a date begins like an integer, and so does a float
    ((Moment.read cs).map fun (t, cs) => (.moment t, cs)) <|>
      ((readFloat cs).map fun (x, cs) => (.float x, cs)) <|>
      (readInteger cs).map fun (n, cs) => (.integer n, cs)

end StatProse.Toml
