import StatProse.Number.Quotient

/-!
# Double precision numbers

A finite number is a sign and a magnitude, and a magnitude counts the units of
`2 ^ -1074`, the least positive double. Only counts with at most 53 significant
bits below `2 ^ 2098` are magnitudes. Every operation is computed exactly and then
rounded once, to the nearest magnitude, with ties to the even significand.
-/

namespace StatProse

/-- The distance between neighbouring magnitudes around a count of units. -/
def spacing (units : Nat) : Nat := 2 ^ (units.log2 - 52)

def overflowUnits : Nat := 2 ^ (2098 : Nat)

structure Magnitude where
  units : Nat
  bounded : units < overflowUnits
  aligned : spacing units ∣ units
deriving DecidableEq

namespace Magnitude

def zero : Magnitude := ⟨0, by decide +kernel, by decide⟩

def one : Nat := 2 ^ (1074 : Nat)

theorem spacing_dvd_of_lt {k e : Nat} (h : k < 2 ^ (53 : Nat)) :
    spacing (k * 2 ^ e) ∣ k * 2 ^ e := by
  by_cases hk : k = 0
  · simp [hk]
  · have hpos : k * 2 ^ e ≠ 0 := Nat.mul_ne_zero hk (Nat.ne_of_gt (Nat.two_pow_pos e))
    have hlog : (k * 2 ^ e).log2 < 53 + e := by
      rw [Nat.log2_lt hpos, Nat.pow_add]
      exact Nat.mul_lt_mul_of_pos_right h (Nat.two_pow_pos e)
    exact Nat.dvd_trans (Nat.pow_dvd_pow 2 (by omega)) (Nat.dvd_mul_left _ _)

theorem spacing_dvd_of_le {k e : Nat} (h : k ≤ 2 ^ (53 : Nat)) :
    spacing (k * 2 ^ e) ∣ k * 2 ^ e := by
  rcases Nat.lt_or_eq_of_le h with h | rfl
  · exact spacing_dvd_of_lt h
  · rw [← Nat.pow_add, spacing, Nat.log2_two_pow]
    exact Nat.pow_dvd_pow 2 (by omega)

/-- The count nearest to `num / den` on the grid that its binade has. -/
def nearest (num den : Nat) : Nat :=
  roundQuotient num (den * spacing (num / den)) * spacing (num / den)

theorem significand_le (num den : Nat) :
    roundQuotient num (den * spacing (num / den)) ≤ 2 ^ (53 : Nat) := by
  refine Nat.le_trans (roundQuotient_le _ _) (Nat.succ_le_of_lt ?_)
  rw [← Nat.div_div_eq_div_mul]
  generalize num / den = q
  rw [spacing, Nat.div_lt_iff_lt_mul (Nat.two_pow_pos _), ← Nat.pow_add]
  exact Nat.lt_of_lt_of_le Nat.lt_log2_self (Nat.pow_le_pow_right (by decide) (by omega))

theorem spacing_dvd_nearest (num den : Nat) : spacing (nearest num den) ∣ nearest num den :=
  spacing_dvd_of_le (significand_le num den)

def ofRatio? (num den : Nat) : Option Magnitude :=
  if h : nearest num den < overflowUnits then some ⟨nearest num den, h, spacing_dvd_nearest num den⟩
  else none

end Magnitude

inductive Double where
  | nan
  | infinite (negative : Bool)
  | finite (negative : Bool) (magnitude : Magnitude)
deriving DecidableEq

namespace Double

def zero (negative : Bool) : Double := .finite negative .zero

instance : Inhabited Double := ⟨zero false⟩

def ofRatio (negative : Bool) (num den : Nat) : Double :=
  match Magnitude.ofRatio? num den with
  | some m => .finite negative m
  | none => .infinite negative

def ofNat (n : Nat) : Double := ofRatio false (n * Magnitude.one) 1

instance (n : Nat) : OfNat Double n := ⟨ofNat n⟩

/-- The double nearest to `digits * 10 ^ exponent`. Exponents so large or so small that
the digits cannot matter are settled without computing the power. -/
def ofDecimal (negative : Bool) (digits : Nat) (exponent : Int) : Double :=
  if digits = 0 then zero negative
  else if 310 < exponent then .infinite negative
  else if exponent + (digits.log2 + 1) < -1100 then zero negative
  else if 0 ≤ exponent then ofRatio negative (digits * 10 ^ exponent.toNat * Magnitude.one) 1
  else ofRatio negative (digits * Magnitude.one) (10 ^ (-exponent).toNat)

instance : OfScientific Double where
  ofScientific digits negative exponent :=
    ofDecimal false digits (if negative then -(exponent : Int) else exponent)

def signed (negative : Bool) (units : Nat) : Int := if negative then -(units : Int) else units

def neg : Double → Double
  | .nan => .nan
  | .infinite s => .infinite (!s)
  | .finite s m => .finite (!s) m

def abs : Double → Double
  | .nan => .nan
  | .infinite _ => .infinite false
  | .finite _ m => .finite false m

def add : Double → Double → Double
  | .nan, _ => .nan
  | _, .nan => .nan
  -- opposite infinities have no sum
  | .infinite s, .infinite t => if s = t then .infinite s else .nan
  | .infinite s, .finite .. => .infinite s
  | .finite .., .infinite t => .infinite t
  | .finite s a, .finite t b =>
    let sum := signed s a.units + signed t b.units
    -- an exact zero is negative only between two negative zeros
    if sum = 0 then zero (s && t) else ofRatio (sum < 0) sum.natAbs 1

def mul : Double → Double → Double
  | .nan, _ => .nan
  | _, .nan => .nan
  | .infinite s, .infinite t => .infinite (s != t)
  | .infinite s, .finite t b => if b.units = 0 then .nan else .infinite (s != t)
  | .finite s a, .infinite t => if a.units = 0 then .nan else .infinite (s != t)
  | .finite s a, .finite t b => ofRatio (s != t) (a.units * b.units) Magnitude.one

def div : Double → Double → Double
  | .nan, _ => .nan
  | _, .nan => .nan
  | .infinite _, .infinite _ => .nan
  | .infinite s, .finite t _ => .infinite (s != t)
  | .finite s _, .infinite t => zero (s != t)
  | .finite s a, .finite t b =>
    if b.units = 0 then (if a.units = 0 then .nan else .infinite (s != t))
    else ofRatio (s != t) (a.units * Magnitude.one) b.units

instance : Neg Double := ⟨neg⟩
instance : Add Double := ⟨add⟩
instance : Mul Double := ⟨mul⟩
instance : Div Double := ⟨div⟩

/-- The greatest whole number that is not above; the sign of a zero is kept. -/
def floor : Double → Double
  | .nan => .nan
  | .infinite s => .infinite s
  | .finite s m =>
    let whole := m.units / Magnitude.one
    let below := if s && m.units % Magnitude.one != 0 then whole + 1 else whole
    ofRatio s (below * Magnitude.one) 1

/-- Natural powers by repeated squaring, from the lowest binary digit up; every product
is rounded. An exponent has fewer binary digits than its value, which bounds the steps. -/
def pow (base : Double) (exponent : Nat) : Double :=
  go exponent base exponent 1
where
  go : Nat → Double → Nat → Double → Double
    | 0, _, _, product => product
    | steps + 1, square, exponent, product =>
      if exponent = 0 then product
      else go steps (square * square) (exponent / 2)
        (if exponent % 2 = 1 then product * square else product)

def isFinite : Double → Bool
  | .finite .. => true
  | _ => false

def isNan : Double → Bool
  | .nan => true
  | _ => false

def isZero : Double → Bool
  | .finite _ m => m.units == 0
  | _ => false

/-- Numeric order; no comparison with `nan` holds, and the two zeros are equal. -/
def lt : Double → Double → Bool
  | .nan, _ => false
  | _, .nan => false
  | .infinite s, .infinite t => s && !t
  | .infinite s, .finite .. => s
  | .finite .., .infinite t => !t
  | .finite s a, .finite t b => signed s a.units < signed t b.units

instance : LT Double := ⟨fun a b => lt a b = true⟩

instance (a b : Double) : Decidable (a < b) := inferInstanceAs (Decidable (lt a b = true))

end Double

end StatProse
