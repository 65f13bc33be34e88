import Mathlib.Data.Rat.Defs
import Mathlib.Algebra.Order.Field.Rat
import Mathlib.Data.Rat.Cast.Order
import StatProse.Number.Literal
import StatProse.Proofs.NumberText

/-!
# Reading fixed decimals

The text of a number with fixed decimals is a literal: a sign if there is one, whole digits
without leading zeros, and as many decimals as are asked for. The reader of literals takes
all of it, and the literal denotes the number that was written.
-/

namespace StatProse

variable {n places width : Nat} {negative : Bool} {c : Char} {cs ds rest : List Char}

/-! ## The value of digits -/

theorem digitsValue_eq (ds : List Char) : digitsValue ds = Nat.ofDigitChars 10 ds 0 := by
  simp [digitsValue, Nat.ofDigitChars_eq_foldl, Nat.mul_comm]

theorem digitsValue_append (ds cs : List Char) :
    digitsValue (ds ++ cs) = 10 ^ cs.length * digitsValue ds + digitsValue cs := by
  simp only [digitsValue_eq]
  rw [Nat.ofDigitChars_append, Nat.ofDigitChars_eq_ofDigitChars_zero]

theorem digitsValue_singleton (c : Char) : digitsValue [c] = c.toNat - '0'.toNat := by
  simp [digitsValue]

theorem digitsValue_digits (width n : Nat) :
    digitsValue (Decimal.digits width n) = n % 10 ^ width := by
  induction width generalizing n with
  | zero => simp [Decimal.digits, Decimal.digitsBefore, digitsValue, Nat.mod_one]
  | succ width ih =>
    have hlast : digitsValue [Nat.digitChar (n % 10)] = n % 10 := by
      have hlt : n % 10 < 10 := Nat.mod_lt n (by decide)
      rw [digitsValue_eq, Nat.ofDigitChars_cons_digitChar_of_lt_ten hlt]
      simp
    rw [Decimal.digits_succ, digitsValue_append, ih, hlast, List.length_singleton, Nat.pow_one,
      Nat.pow_succ, Nat.mul_comm (10 ^ width) 10, Nat.mod_mul]
    omega

theorem toNat_sub_eq_zero_iff (hc : c.isDigit = true) : c.toNat - '0'.toNat = 0 ↔ c = '0' := by
  have hbound : '0'.toNat ≤ c.toNat := by
    simp only [Char.isDigit, Bool.and_eq_true, decide_eq_true_eq] at hc
    exact hc.1
  rw [← Char.toNat_inj]
  omega

theorem digitsValue_eq_zero_iff (hds : ∀ d ∈ ds, d.isDigit = true) :
    digitsValue ds = 0 ↔ ∀ d ∈ ds, d = '0' := by
  induction ds with
  | nil => simp [digitsValue]
  | cons d ds ih =>
    have hd : d.isDigit = true := hds d (by simp)
    have hrest := ih fun d hd => hds d (by simp [hd])
    rw [← List.singleton_append, digitsValue_append, digitsValue_singleton, Nat.add_eq_zero_iff,
      Nat.mul_eq_zero, toNat_sub_eq_zero_iff hd, hrest]
    simp

/-! ## The literal of a number with fixed decimals -/

namespace Literal

/-- `n / 10 ^ places` with exactly `places` decimals. -/
def fixed (negative : Bool) (n places : Nat) : Literal where
  negative := negative
  whole := Nat.toDigits 10 (n / 10 ^ places)
  fraction := Decimal.digits places n
  exponent := none

def value (l : Literal) : ℚ :=
  (if l.negative then -1 else 1) * digitsValue (l.whole ++ l.fraction) *
    10 ^ (l.exponent.getD 0 - l.fraction.length)

theorem digitsValue_fixed (negative : Bool) (n places : Nat) :
    digitsValue ((fixed negative n places).whole ++ (fixed negative n places).fraction) = n := by
  rw [digitsValue_append, fixed, digitsValue_digits, Decimal.length_digits, digitsValue_eq,
    Nat.ofDigitChars_ten_toDigits, Nat.div_add_mod]

theorem value_fixed (negative : Bool) (n places : Nat) :
    (fixed negative n places).value = (if negative then -1 else 1) * (n / 10 ^ places) := by
  have hexponent : (10 : ℚ) ^ ((fixed negative n places).exponent.getD 0 -
      (fixed negative n places).fraction.length) = (10 ^ places)⁻¹ := by
    simp [fixed, Decimal.length_digits]
  rw [value, digitsValue_fixed, hexponent, mul_assoc, div_eq_mul_inv]
  rfl

theorem isDigit_of_mem_fixed (h : c ∈ (fixed negative n places).whole ++
    (fixed negative n places).fraction) : c.isDigit = true := by
  rcases List.mem_append.mp h with h | h
  · exact Nat.isDigit_of_mem_toDigits (by decide) (by decide) h
  · exact Decimal.isDigit_of_mem_digits h

theorem exists_ne_zero_iff (negative : Bool) (n places : Nat) :
    (∃ c ∈ (fixed negative n places).whole ++ (fixed negative n places).fraction, c ≠ '0') ↔
      n ≠ 0 := by
  have hdigits : ∀ c ∈ (fixed negative n places).whole ++ (fixed negative n places).fraction,
      c.isDigit = true := fun c hc => isDigit_of_mem_fixed hc
  have hzero := digitsValue_eq_zero_iff hdigits
  rw [digitsValue_fixed] at hzero
  simp [Ne, hzero]

/-! ## Reading it back -/

theorem takeDigits_append (hds : ∀ d ∈ ds, d.isDigit = true)
    (hrest : ∀ c, rest.head? = some c → c.isDigit = false) :
    takeDigits (ds ++ rest) = (ds, rest) := by
  rw [takeDigits, List.takeWhile_append_of_pos hds, List.dropWhile_append_of_pos hds]
  cases rest with
  | nil => simp
  | cons c rest => simp [hrest c rfl]

theorem head?_toDigits_ne (hn : n ≠ 0) : (Nat.toDigits 10 n).head? ≠ some '0' := by
  induction n using Nat.strongRecOn with
  | ind n ih =>
    rw [Nat.toDigits_eq_if (by decide)]
    split
    · rename_i hlt
      have hdigit : ∀ n < 10, n ≠ 0 → [Nat.digitChar n].head? ≠ some '0' := by decide
      exact hdigit n hlt hn
    · have hpos : n / 10 ≠ 0 := by omega
      rw [List.head?_append, Option.or_of_isSome]
      · exact ih (n / 10) (by omega) hpos
      · exact List.isSome_head?.mpr Nat.toDigits_ne_nil

theorem readWhole_toDigits (hrest : ∀ c, rest.head? = some c → c.isDigit = false) :
    readWhole (Nat.toDigits 10 n ++ rest) = some (Nat.toDigits 10 n, rest) := by
  have hdigits : ∀ d ∈ Nat.toDigits 10 n, d.isDigit = true := fun d hd =>
    Nat.isDigit_of_mem_toDigits (by decide) (by decide) hd
  have htake := takeDigits_append hdigits hrest
  rw [readWhole, htake]
  -- digits with a zero before other digits are refused, and there are none here
  split
  · rename_i hnil
    exact absurd (Prod.mk.inj hnil).1 Nat.toDigits_ne_nil
  · rename_i d ds rest' hzero
    have hcons : Nat.toDigits 10 n = '0' :: d :: ds := (Prod.mk.inj hzero).1
    have hn : n = 0 := by
      by_contra hn
      exact head?_toDigits_ne hn (by simp [hcons])
    simp [hn] at hcons
  · rename_i heq
    exact congrArg some heq.symm

theorem readFraction_digits (places n : Nat) :
    readFraction (if places = 0 then [] else '.' :: Decimal.digits places n) =
      some (Decimal.digits places n, []) := by
  by_cases hplaces : places = 0
  · subst hplaces
    rfl
  · have hdigits : ∀ d ∈ Decimal.digits places n, d.isDigit = true := fun d hd =>
      Decimal.isDigit_of_mem_digits hd
    have hend : ∀ c, ([] : List Char).head? = some c → c.isDigit = false := by simp
    have htake := takeDigits_append hdigits hend
    rw [List.append_nil] at htake
    rw [if_neg hplaces, readFraction, htake]
    split
    · rename_i hnil
      have hlength := Decimal.length_digits places n
      rw [(Prod.mk.inj hnil).1] at hlength
      exact absurd hlength.symm hplaces
    · rename_i heq
      exact congrArg some heq.symm

theorem readUnsigned_fixedPoint (negative : Bool) (n places : Nat) :
    readUnsigned negative (Decimal.fixedPoint n places) = some (fixed negative n places, []) := by
  -- the whole digits end at the point or at the end of the text
  have hpoint : ∀ c, (if places = 0 then [] else '.' :: Decimal.digits places n).head? = some c →
      c.isDigit = false := by
    intro c hc
    split at hc
    · cases hc
    · obtain rfl := Option.some.inj hc
      decide
  rw [readUnsigned, Decimal.fixedPoint, readWhole_toDigits hpoint]
  simp [readFraction_digits, readExponent, fixed]

theorem read_fixedPoint (negative : Bool) (n places : Nat) :
    read ((if negative then ['-'] else []) ++ Decimal.fixedPoint n places) =
      some (fixed negative n places, []) := by
  cases negative with
  | true => exact readUnsigned_fixedPoint true n places
  | false =>
    have hsign : ∀ cs, Decimal.fixedPoint n places ≠ '-' :: cs := by
      intro cs heq
      obtain ⟨d, ds, hcons⟩ := List.exists_cons_of_ne_nil
        (Nat.toDigits_ne_nil (b := 10) (n := n / 10 ^ places))
      have hd : d.isDigit = true :=
        Nat.isDigit_of_mem_toDigits (by decide) (by decide) (hcons ▸ List.mem_cons_self)
      rw [Decimal.fixedPoint, hcons] at heq
      obtain rfl : d = '-' := (List.cons.inj heq).1
      exact absurd hd (by decide)
    rw [← readUnsigned_fixedPoint]
    simp only [Bool.false_eq_true, if_false, List.nil_append]
    unfold read
    split
    · rename_i cs heq
      exact absurd heq (hsign cs)
    · rfl

end Literal

/-- A text is a literal with so many decimals: a sign if there is one, whole digits, and a
point before the decimals unless there are none. -/
structure WrittenAs (text : List Char) (l : Literal) (places : Nat) : Prop where
  read : Literal.read text = some (l, [])
  text_eq : text = (if l.negative then ['-'] else []) ++ l.whole ++
    (if places = 0 then [] else '.' :: l.fraction)
  decimals : l.fraction.length = places

theorem WrittenAs.unique {text : List Char} {l l' : Literal} (h : WrittenAs text l places)
    (h' : WrittenAs text l' places) : l = l' :=
  (Prod.mk.inj (Option.some.inj (h.read.symm.trans h'.read))).1

namespace Double

theorem fixedText_finite (negative : Bool) (m : Magnitude) (places : Nat) :
    (finite negative m).fixedText places =
      (if negative && m.fixedUnits places != 0 then ['-'] else []) ++
        Decimal.fixedPoint (m.fixedUnits places) places := by
  simp only [fixedText]
  split <;> rfl

theorem writtenAs_fixedText (negative : Bool) (m : Magnitude) (places : Nat) :
    WrittenAs ((finite negative m).fixedText places)
      (.fixed (negative && m.fixedUnits places != 0) (m.fixedUnits places) places) places where
  read := by rw [fixedText_finite, Literal.read_fixedPoint]
  text_eq := by rw [fixedText_finite, Decimal.fixedPoint, List.append_assoc]; rfl
  decimals := Decimal.length_digits _ _

end Double

end StatProse
