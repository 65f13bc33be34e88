import StatProse.Transform

/-!
# Rules

A rule is one phrasing of an entry. It says when it applies, how the numbers
of each slot are transformed and framed, and which sentence holds the framed texts.
-/

namespace StatProse

structure Condition where
  min : Option Double := none
  max : Option Double := none
deriving DecidableEq

namespace Condition

/-- A number is refused only if it is below the lower or above the upper bound, so `nan`
is never refused. -/
def admits (c : Condition) (v : Double) : Bool :=
  c.min.all (fun low => !decide (v < low)) && c.max.all (fun high => !decide (high < v))

end Condition

/-- One phrasing. Slot `i` has the condition, transforms and format at position `i`. -/
structure Rule where
  conditions : List Condition
  handlers : List (List Transform) := []
  formats : List String
  template : String
deriving DecidableEq

namespace Rule

def hiddenFormat : String := "ignore"

def handlersAt (r : Rule) (slot : Nat) : List Transform := r.handlers[slot]?.getD []

/-- The frame of a slot; beyond the listed ones it is the bare number. -/
def formatAt (r : Rule) (slot : Nat) : String := r.formats[slot]?.getD "#"

end Rule

end StatProse
