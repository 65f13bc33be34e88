import StatProse.Json.Scalar

/-!
# Passing over values

A value whose content does not matter is passed over: its form is checked to any depth and
nothing of it is kept but the marks that close what is open.
-/

namespace StatProse.Json

structure Passage where
  /-- Whether a value has just ended; otherwise one has to begin. -/
  ended : Bool
  /-- The marks that close what is open, from the inside out. -/
  closers : List Char
  rest : List Char

namespace Passage

def item? (close : Char) (closers : List Char) (cs : List Char) : Option Passage :=
  if close = ']' then some ⟨false, close :: closers, cs⟩
  else (readKey (skipBlanks cs)).map (fun (_, cs) => ⟨false, close :: closers, cs⟩)

def enter? (close : Char) (closers : List Char) (cs : List Char) : Option Passage :=
  match skipBlanks cs with
  | c :: rest => if c = close then some ⟨true, closers, rest⟩ else item? close closers (c :: rest)
  | [] => none

def advance? (close : Char) (closers : List Char) (cs : List Char) : Option Passage :=
  match skipBlanks cs with
  | c :: rest =>
    if c = close then some ⟨true, closers, rest⟩
    else if c = ',' then item? close closers rest
    else none
  | [] => none

def begin? (closers : List Char) (cs : List Char) : Option Passage :=
  match skipBlanks cs with
  | '[' :: cs => enter? ']' closers cs
  | '{' :: cs => enter? '}' closers cs
  | cs => (readScalar cs).map (fun (_, cs) => ⟨true, closers, cs⟩)

/-- Goes on until a value has ended and nothing is open. Each step takes a character, so no
more steps are needed than there are characters. -/
def finish? : Nat → Passage → Option (List Char)
  | _, ⟨true, [], cs⟩ => some cs
  | 0, _ => none
  | steps + 1, ⟨true, close :: closers, cs⟩ => advance? close closers cs >>= finish? steps
  | steps + 1, ⟨false, closers, cs⟩ => begin? closers cs >>= finish? steps

end Passage

def skim? (steps : Nat) (cs : List Char) : Option (List Char) :=
  Passage.finish? steps ⟨false, [], cs⟩

end StatProse.Json
