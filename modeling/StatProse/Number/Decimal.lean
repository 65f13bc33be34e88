import StatProse.Number.Quotient

/-!
# Positional decimal text

Numbers are always written positionally: whole digits, and a point with decimals when
there are any. Exponents are never written.
-/

namespace StatProse.Decimal

/-- The last `width` decimal digits of a number, leading zeros included, before digits that
follow them. -/
def digitsBefore (tail : List Char) : Nat → Nat → List Char
  | 0, _ => tail
  | width + 1, n => digitsBefore (Nat.digitChar (n % 10) :: tail) width (n / 10)

def digits (width n : Nat) : List Char := digitsBefore [] width n

theorem digitsBefore_eq (tail : List Char) (width n : Nat) :
    digitsBefore tail width n = digits width n ++ tail := by
  induction width generalizing tail n with
  | zero => rfl
  | succ width ih =>
    rw [digits, digitsBefore, digitsBefore, ih, ih [_]]
    simp

theorem digits_succ (width n : Nat) :
    digits (width + 1) n = digits width (n / 10) ++ [Nat.digitChar (n % 10)] :=
  digitsBefore_eq _ width (n / 10)

theorem length_digits (width n : Nat) : (digits width n).length = width := by
  induction width generalizing n with
  | zero => rfl
  | succ width ih => simp [digits_succ, ih]

/-- The text of `n / 10 ^ places` with exactly `places` decimals. -/
def fixedPoint (n places : Nat) : List Char :=
  Nat.toDigits 10 (n / 10 ^ places) ++ if places = 0 then [] else '.' :: digits places n

/-- The text of `n * 10 ^ exponent`, with as many decimals as the exponent asks for. -/
def positional (n : Nat) (exponent : Int) : List Char :=
  if exponent < 0 then fixedPoint n (-exponent).toNat
  else Nat.toDigits 10 (n * 10 ^ exponent.toNat)

end StatProse.Decimal
