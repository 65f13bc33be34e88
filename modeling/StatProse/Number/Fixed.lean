import StatProse.Number.Shortest

/-!
# Text with a fixed number of decimals

Numbers are rounded on their exact value. A tie, which would go to the even digit, is
pushed upwards by a quarter of a unit in the last place before it is rounded, and is
recognised by the next thirty digits.
-/

namespace StatProse

namespace Magnitude

/-- The magnitude in units of `10 ^ -places`, with ties to the even count. -/
def atPlaces (m : Magnitude) (places : Nat) : Nat :=
  roundQuotient (m.units * 10 ^ places) one

def isTie (m : Magnitude) (places : Nat) : Bool :=
  m.atPlaces (places + 30) % 10 ^ (30 : Nat) == 5 * 10 ^ (29 : Nat)

def quarterUnit (places : Nat) : Double := 0.25 * (1 / Double.pow 10 places)

def pushed (m : Magnitude) (places : Nat) : Magnitude :=
  -- a tie is known by the thirty digits after it, a five and zeros
  if m.isTie places then
    match Double.finite false m + quarterUnit places with
    | .finite _ sum => sum
    | _ => m
  else m

def fixedUnits (m : Magnitude) (places : Nat) : Nat := (m.pushed places).atPlaces places

end Magnitude

namespace Double

/-- The text with exactly `places` decimals. A minus sign is written only before a number
that still differs from zero. -/
def fixedText (v : Double) (places : Nat) : List Char :=
  match v with
  | .finite negative m =>
    let n := m.fixedUnits places
    if negative && n != 0 then '-' :: Decimal.fixedPoint n places
    else Decimal.fixedPoint n places
  | v => v.text

end Double

end StatProse
