import StatProse.Number.Literal

/-!
# Templates

A template is a sentence with markers such as `{0}`: an opening brace, one or more decimal
digits and a closing brace. All markers are replaced at once by the texts of their slots.
A marker without a slot, and every brace that belongs to no marker, stands for itself, and
inserted texts are not searched for markers.
-/

namespace StatProse.Template

inductive Piece where
  | char (c : Char)
  | marker (digits : List Char)
deriving DecidableEq

namespace Piece

def written : Piece → List Char
  | char c => [c]
  | marker digits => '{' :: digits ++ ['}']

def fill (slots : List (List Char)) : Piece → List Char
  | char c => [c]
  | marker digits => slots[digitsValue digits]?.getD (marker digits).written

end Piece

def loose (digits : List Char) : List Piece := .char '{' :: digits.map .char

/-- Cuts a text into markers and single characters. After an opening brace the digits read
since then are held back until it is clear whether they make a marker. -/
def scan : Option (List Char) → List Char → List Piece
  | none, [] => []
  | some digits, [] => loose digits
  | none, c :: cs => if c = '{' then scan (some []) cs else .char c :: scan none cs
  | some digits, c :: cs =>
    if c.isDigit then scan (some (digits ++ [c])) cs
    -- braces without digits between them are no marker
    else if c = '}' ∧ digits ≠ [] then .marker digits :: scan none cs
    -- a second brace lets go of the first, and may itself begin a marker
    else if c = '{' then loose digits ++ scan (some []) cs
    else loose digits ++ .char c :: scan none cs

def pieces (template : List Char) : List Piece := scan none template

theorem flatMap_written_loose (digits : List Char) :
    (loose digits).flatMap Piece.written = '{' :: digits := by
  simp [loose, Piece.written, List.flatMap_map]

theorem flatMap_written_scan (cs : List Char) :
    (scan none cs).flatMap Piece.written = cs ∧
      ∀ digits, (scan (some digits) cs).flatMap Piece.written = '{' :: digits ++ cs := by
  induction cs with
  | nil => simp [scan, flatMap_written_loose]
  | cons c cs ih =>
    obtain ⟨hnone, hsome⟩ := ih
    constructor
    · unfold scan
      split
      · simp [*]
      · simp [Piece.written, hnone]
    · intro digits
      unfold scan
      split
      · simp [hsome]
      · split
        · simp_all [Piece.written]
        · split
          · simp [flatMap_written_loose, *]
          · simp [flatMap_written_loose, Piece.written, hnone]

theorem flatMap_written_pieces (template : List Char) :
    (pieces template).flatMap Piece.written = template :=
  (flatMap_written_scan template).1

def fill (slots : List (List Char)) (template : List Char) : List Char :=
  (pieces template).flatMap (Piece.fill slots)

def fillFrame (token : List Char) : List Char → List Char
  | [] => []
  | c :: cs => if c = '#' then token ++ cs else c :: fillFrame token cs

end StatProse.Template
