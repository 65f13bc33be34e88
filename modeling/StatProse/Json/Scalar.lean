import StatProse.Json.Number
import StatProse.Text.Reader

/-!
# JSON scalars

Strings, numbers and the three words, read strictly: no bare control characters in strings,
no unknown escapes, no leading zeros. A string with half of a surrogate pair and a number
that is too large for a double have the right form, but no value.
-/

namespace StatProse.Json

def isBlank (c : Char) : Bool := c = ' ' || c = '\n' || c = '\t' || c = '\r'

def skipBlanks (cs : List Char) : List Char := cs.dropWhile isBlank

def escaped? : Char → Option Char
  | '"' => some '"'
  | '\\' => some '\\'
  | '/' => some '/'
  | 'b' => some '\x08'
  | 'f' => some '\x0c'
  | 'n' => some '\n'
  | 'r' => some '\r'
  | 't' => some '\t'
  | _ => none

def isHighSurrogate (code : Nat) : Bool := 0xD800 ≤ code && code < 0xDC00

def isLowSurrogate (code : Nat) : Bool := 0xDC00 ≤ code && code < 0xE000

def joinSurrogates (high low : Nat) : Char :=
  Char.ofNat (0x10000 + (high - 0xD800) * 0x400 + (low - 0xDC00))

structure StringDraft where
  /-- The characters in reverse; none if half of a surrogate pair was among them. -/
  chars : Option (List Char) := some []
  /-- The first half of a pair whose second half has to come next. -/
  high : Option Nat := none

namespace StringDraft

def giveUp : StringDraft := ⟨none, none⟩

def push (d : StringDraft) (c : Char) : StringDraft :=
  -- a first half that is not followed by its second half spoils the text
  if d.high.isSome then giveUp else ⟨d.chars.map (c :: ·), none⟩

def pushUnit (d : StringDraft) (code : Nat) : StringDraft :=
  if isHighSurrogate code then
    if d.high.isSome then giveUp else { d with high := some code }
  else if isLowSurrogate code then
    match d.high with
    | some high => ⟨d.chars.map (joinSurrogates high code :: ·), none⟩
    | none => giveUp
  else d.push (Char.ofNat code)

def text? (d : StringDraft) : Option String :=
  if d.high.isSome then none else d.chars.map (fun cs => String.ofList cs.reverse)

end StringDraft

/-- The rest of a string whose opening quote has been read. A string without a text is read
to its end all the same. -/
def readChars (draft : StringDraft) : Reader (Option String)
  | [] => none
  | '"' :: cs => some (draft.text?, cs)
  | '\\' :: 'u' :: a :: b :: c :: d :: cs =>
    match hexValue? [a, b, c, d] with
    | none => none
    | some code => readChars (draft.pushUnit code) cs
  | '\\' :: c :: cs =>
    match escaped? c with
    | none => none
    | some e => readChars (draft.push e) cs
  | c :: cs => if c = '\\' || c.toNat < 0x20 then none else readChars (draft.push c) cs

def readString : Reader (Option String) := readChars {}

def readKey : Reader (Option String)
  | '"' :: cs =>
    match readString cs with
    | none => none
    | some (key, cs) =>
      match skipBlanks cs with
      | ':' :: cs => some (key, cs)
      | _ => none
  | _ => none

def readScalar : Reader Value
  | '"' :: cs => (readString cs).map (fun (s, cs) => (s.elim .unread .text, cs))
  | 't' :: 'r' :: 'u' :: 'e' :: cs => some (.bool true, cs)
  | 'f' :: 'a' :: 'l' :: 's' :: 'e' :: cs => some (.bool false, cs)
  | 'n' :: 'u' :: 'l' :: 'l' :: cs => some (.null, cs)
  | cs => (Literal.read cs).map
    (fun (l, cs) => (if (number? l).isSome then .number l else .unread, cs))

end StatProse.Json
