import StatProse.Line
import StatProse.Template
import StatProse.Text.Split

/-!
# Rendering

A line is written with the first rule, in the order of its entry, whose conditions admit
its minima. Each slot's numbers make a token, the slot's frame takes in the token, and the
rule's sentence takes in the frames.
-/

namespace StatProse

namespace Line

def admitted (l : Line) (r : Rule) : Bool :=
  r.conditions.zipIdx.all (fun (c, slot) => c.admits (l.min slot))

def rule? (l : Line) (language : String) : Option Rule :=
  (l.entry.rulesFor language).find? l.admitted

/-- The position of that rule among the entry's rules for the language. -/
def rulePosition? (l : Line) (language : String) : Option Nat :=
  (l.entry.rulesFor language).findIdx? l.admitted

end Line

/-- A text shown in place of numbers. An empty text is no placeholder. -/
def effectivePlaceholder (placeholder : Option String) : Option (List Char) :=
  (placeholder.map String.toList).filter (fun p => !p.isEmpty)

def rangeToken (value : Option (List Char)) (min max : List Char) : List Char :=
  value.getD [] ++ '(' :: min ++ '-' :: max ++ [')']

namespace Rule

/-- What stands for a slot's numbers. Ends with equal texts make one number, others a
range. A placeholder takes the place of every number, also of a live value that is absent
when shown as a number. -/
def token (r : Rule) (l : Line) (slot : Nat) (placeholder : Option (List Char)) : List Char :=
  let handlers := r.handlersAt slot
  let min := (Transform.applyAll handlers (l.min slot)).text
  let max := (Transform.applyAll handlers (l.max slot)).text
  if min = max then placeholder.getD min
  else
    match placeholder with
    | some p => rangeToken ((l.value? slot).map (fun _ => p)) p p
    | none =>
      let live := ((l.value? slot).map (Transform.applyAll handlers)).filter (·.isPresent)
      rangeToken (live.map (·.text)) min max

def slotText (r : Rule) (l : Line) (placeholder : Option (List Char)) (slot : Nat) : List Char :=
  let format := r.formatAt slot
  if format = hiddenFormat then []
  else Template.fillFrame (r.token l slot placeholder) format.toList

def sentence (r : Rule) (l : Line) (placeholder : Option (List Char)) : List Char :=
  Template.fill ((List.range l.entry.slotCount).map (r.slotText l placeholder)) r.template.toList

def render (r : Rule) (l : Line) (placeholder : Option String) : List String :=
  (splitAt '\n' (r.sentence l (effectivePlaceholder placeholder))).map String.ofList

end Rule

namespace Line

def render (l : Line) (language : String) (placeholder : Option String) : List String :=
  match l.rule? language with
  | some r => r.render l placeholder
  | none => []

end Line

def renderLines (lines : List Line) (language : String) (placeholder : Option String) :
    List String :=
  lines.flatMap (·.render language placeholder)

end StatProse
