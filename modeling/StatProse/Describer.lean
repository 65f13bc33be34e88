import StatProse.Overrides
import StatProse.Rendering

/-!
# Describers

A describer turns modifiers into texts. It holds a table, overrides and a language, and
describes one modifier, or the span from the lowest to the highest tier of a modifier.
-/

namespace StatProse

def defaultLanguage : String := "English"

structure Describer where
  table : Table
  overrides : Overrides
  language : String := defaultLanguage

structure RangeMismatch where
  low : String
  high : String
  position : Nat
deriving DecidableEq

namespace RangeMismatch

def message (m : RangeMismatch) : String :=
  s!"tier '{m.low}' and tier '{m.high}' do not line up at line {m.position}"

end RangeMismatch

/-- The lines of the low tier with the maxima of the lines of the high tier at the same
positions. A line without a partner keeps its own maxima. -/
def spanLines : List Line → List Line → List Line
  | [], _ => []
  -- lines without a partner keep their own maxima
  | lows, [] => lows
  | l :: lows, h :: highs => { l with maxs := h.maxs } :: spanLines lows highs

/-- The first position at which two lists of lines have different entries, or at which
only one of them has a line. -/
def mismatch? : List Line → List Line → Option Nat
  | [], [] => none
  | [], _ :: _ => some 0
  | _ :: _, [] => some 0
  | l :: lows, h :: highs =>
    if l.position = h.position then (mismatch? lows highs).map (· + 1) else some 0

namespace Describer

def describe (t : Describer) (m : Modifier) (values : Option (List Double))
    (placeholder : Option String) : List String :=
  match t.overrides.get? m.type with
  | some lines => lines
  | none => renderLines (t.table.lines m.stats values) t.language placeholder

def override? (t : Describer) (low high : Modifier) : Option (List String) :=
  (t.overrides.get? low.type).or (t.overrides.get? high.type)

def spanTexts (t : Describer) (low high : List Line) : List String :=
  renderLines (spanLines low high) t.language none

/-- The texts of the span from the low to the high tier. Tiers that do not line up are
paired all the same. -/
def describeRange (t : Describer) (low high : Modifier) : List String :=
  match t.override? low high with
  | some lines => lines
  | none => t.spanTexts (t.table.lines low.stats none) (t.table.lines high.stats none)

def describeRange? (t : Describer) (low high : Modifier) :
    Except RangeMismatch (List String) :=
  match t.override? low high with
  | some lines => .ok lines
  | none =>
    let lowLines := t.table.lines low.stats none
    let highLines := t.table.lines high.stats none
    match mismatch? lowLines highLines with
    | some position => .error ⟨low.id, high.id, position⟩
    | none => .ok (t.spanTexts lowLines highLines)

end Describer

end StatProse
