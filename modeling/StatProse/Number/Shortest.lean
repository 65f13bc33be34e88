import StatProse.Number.Double
import StatProse.Number.Decimal

/-!
# The shortest text of a double

A double is written with the fewest decimal digits that read back as the same double.
Of several such numbers the nearest is written, and of two equally near ones the larger.

The numbers that read back as a magnitude fill an interval around it. For one digit,
two digits and so on, only the two neighbours of the magnitude on that decimal grid
can lie in the interval, so the first grid with a neighbour inside decides.
-/

namespace StatProse

/-- An interval around `value / scale` in which every number rounds to it; it holds its
two ends if it is `closed`. -/
structure RoundingInterval where
  lower : Nat
  value : Nat
  upper : Nat
  scale : Nat
  closed : Bool

namespace RoundingInterval

def contains (i : RoundingInterval) (n : Nat) (exponent : Int) : Bool :=
  let point := n * 10 ^ exponent.toNat * i.scale
  let stretch := 10 ^ (-exponent).toNat
  if i.closed then i.lower * stretch ≤ point && point ≤ i.upper * stretch
  else i.lower * stretch < point && point < i.upper * stretch

def below (i : RoundingInterval) (exponent : Int) : Nat :=
  i.value * 10 ^ (-exponent).toNat / (i.scale * 10 ^ exponent.toNat)

def nearerBelow (i : RoundingInterval) (n : Nat) (exponent : Int) : Bool :=
  2 * i.value * 10 ^ (-exponent).toNat < (2 * n + 1) * (i.scale * 10 ^ exponent.toNat)

def wholeDigits (i : RoundingInterval) : Int :=
  ((Nat.toDigits 10 (i.value * 10 ^ (324 : Nat) / i.scale)).length : Int) - 324

/-- The neighbour that lies in the interval, or the nearer one if both do. -/
def pick? (i : RoundingInterval) (exponent : Int) : Option Nat :=
  let n := i.below exponent
  match i.contains n exponent, i.contains (n + 1) exponent with
  | true, true => some (if i.nearerBelow n exponent then n else n + 1)
  | true, false => some n
  | false, true => some (n + 1)
  | false, false => none

/-- Tries grids of more and more digits. Seventeen digits tell any two doubles apart, so
one of the first seventeen grids has a neighbour inside. -/
def search (i : RoundingInterval) (digits : Nat) : Nat → Nat × Int
  | 0 => (i.below (i.wholeDigits - digits), i.wholeDigits - digits)
  | more + 1 =>
    let exponent := i.wholeDigits - digits
    match i.pick? exponent with
    | some n => if n = 10 ^ digits then (1, exponent + digits) else (n, exponent)
    | none => i.search (digits + 1) more

def shortest (i : RoundingInterval) : Nat × Int := i.search 1 17

end RoundingInterval

namespace Magnitude

/-- Below a power of two the doubles lie twice as close. -/
def spacingBelow (m : Magnitude) : Nat := if m.units = 0 then 1 else spacing (m.units - 1)

/-- The numbers nearer to a magnitude than to its neighbours. The two ends belong to it
if its significand is even. The scale counts quarters of a unit. -/
def roundingInterval (m : Magnitude) : RoundingInterval where
  lower := 4 * m.units - 2 * m.spacingBelow
  value := 4 * m.units
  upper := 4 * m.units + 2 * spacing m.units
  scale := 4 * one
  closed := m.units / spacing m.units % 2 = 0

def text (m : Magnitude) : List Char :=
  if m.units = 0 then ['0']
  else
    let (n, exponent) := m.roundingInterval.shortest
    Decimal.positional n exponent

end Magnitude

namespace Double

def text : Double → List Char
  | .nan => "NaN".toList
  | .infinite negative => if negative then "-inf".toList else "inf".toList
  | .finite negative m => if negative then '-' :: m.text else m.text

instance : ToString Double := ⟨fun v => String.ofList v.text⟩

end Double

end StatProse
