import StatProse.Json.Value

/-!
# The numbers of documents

A literal is valued in two steps. Its digits, whole and fractional, make a significand as
long as they fit 64 bits; later whole digits only raise the exponent and later fractional
digits are dropped. The significand is then rounded to a double and multiplied or divided
by a power of ten, itself a double. So a value can differ from the nearest double in its
last bits.
-/

namespace StatProse.Json

def significandLimit : Nat := 2 ^ (64 : Nat)

/-- Appends digits to a significand as long as it stays below the limit, and gives the
digits that were not taken. -/
def takeSignificant (significand : Nat) : List Char → Nat × List Char
  | [] => (significand, [])
  | c :: cs =>
    let next := significand * 10 + digitsValue [c]
    if next < significandLimit then takeSignificant next cs else (significand, c :: cs)

def greatestPower : Nat := 308

def powerOfTen (exponent : Nat) : Double := .ofDecimal false 1 exponent

/-- Divides by a power of ten, by the greatest one first as long as the exponent is
greater. The steps run out no sooner than the exponent. -/
def scaleDown : Nat → Double → Nat → Double
  | 0, v, _ => v
  | steps + 1, v, exponent =>
    if exponent ≤ greatestPower then v / powerOfTen exponent
    else if v.isZero then v
    else scaleDown steps (v / powerOfTen greatestPower) (exponent - greatestPower)

def scale? (v : Double) (exponent : Int) : Option Double :=
  if exponent < 0 then some (scaleDown (-exponent).toNat v (-exponent).toNat)
  else if v.isZero then some v
  else if exponent ≤ greatestPower then
    let product := v * powerOfTen exponent.toNat
    if product.isFinite then some product else none
  else none

def number? (l : Literal) : Option Double := do
  let (whole, restOfWhole) := takeSignificant 0 l.whole
  let (significand, restOfFraction) := takeSignificant whole l.fraction
  let taken := l.fraction.length - restOfFraction.length
  let exponent : Int := l.exponent.getD 0 + restOfWhole.length - taken
  let v ← scale? (.ofNat significand) exponent
  return if l.negative then -v else v

/-- The value of a number that is written as a natural number below the limit, without a
fraction or an exponent. -/
def natural? (l : Literal) : Option Nat :=
  if l.negative || !l.fraction.isEmpty || l.exponent.isSome then none
  else
    let n := digitsValue l.whole
    if n < significandLimit then some n else none

namespace Value

def double? : Value → Option Double
  | number l => number? l
  | _ => none

end Value

end StatProse.Json
