import Mathlib.Algebra.Order.Field.Basic
import Mathlib.Tactic.Linarith
import Mathlib.Tactic.FieldSimp
import Mathlib.Tactic.Ring
import StatProse.Proofs.FixedDigits

/-!
# Rounding to fixed decimals

A number with fixed decimals is the nearest one to what it stands for. The thirty digits
that are looked at to recognise a tie are enough: a magnitude has so few significant bits
that it cannot come so close to a tie without being one.
-/

namespace StatProse

/-- Halfway between two neighbours among the multiples of `10 ^ -places`. -/
def Halfway (x : ℚ) (places : Nat) : Prop := ∃ k : ℤ, x * 10 ^ places = k + 1 / 2

theorem halfway_neg_iff {x : ℚ} {places : Nat} : Halfway (-x) places ↔ Halfway x places := by
  have hforward : ∀ x : ℚ, Halfway x places → Halfway (-x) places := by
    rintro x ⟨k, hk⟩
    refine ⟨-k - 1, ?_⟩
    rw [neg_mul, hk]
    push_cast
    ring
  exact ⟨fun h => neg_neg x ▸ hforward (-x) h, hforward x⟩

/-- A multiple of `10 ^ -places` to which the number is nearer than to any other. -/
structure NearestMultiple (x y : ℚ) (places : Nat) : Prop where
  multiple : ∃ n : ℤ, y = n / 10 ^ places
  nearest : ∀ n : ℤ, (n : ℚ) / 10 ^ places ≠ y → |x - y| < |x - n / 10 ^ places|

theorem nearestMultiple_of_near {x : ℚ} {n : ℤ} {places : Nat}
    (h : |x * 10 ^ places - n| < 1 / 2) : NearestMultiple x (n / 10 ^ places) places where
  multiple := ⟨n, rfl⟩
  nearest := by
    intro other hne
    have hscale : (0 : ℚ) < 10 ^ places := by positivity
    have hdistance : ∀ k : ℤ, |x - k / 10 ^ places| = |x * 10 ^ places - k| / 10 ^ places := by
      intro k
      rw [← abs_of_pos hscale, ← abs_div, abs_of_pos hscale, sub_div,
        mul_div_cancel_right₀ _ hscale.ne']
    have hother : other ≠ n := by
      rintro rfl
      exact hne rfl
    -- the two multiples are at least one step apart
    have hstep : (1 : ℚ) ≤ |(other : ℚ) - n| := by
      exact_mod_cast Int.one_le_abs (sub_ne_zero.mpr hother)
    have htriangle := abs_sub_le (other : ℚ) (x * 10 ^ places) n
    rw [abs_sub_comm (other : ℚ) (x * 10 ^ places)] at htriangle
    rw [hdistance, hdistance]
    exact div_lt_div_of_pos_right (by linarith) hscale

theorem NearestMultiple.neg {x y : ℚ} {places : Nat} (h : NearestMultiple x y places) :
    NearestMultiple (-x) (-y) places where
  multiple := by
    obtain ⟨n, hn⟩ := h.multiple
    exact ⟨-n, by rw [hn]; push_cast; ring⟩
  nearest := by
    intro n hne
    have hmirror : ((-n : ℤ) : ℚ) / 10 ^ places = -(n / 10 ^ places) := by
      push_cast
      ring
    have hlt := h.nearest (-n) fun heq => hne (by rw [← heq, hmirror, neg_neg])
    rw [hmirror, sub_neg_eq_add] at hlt
    rwa [neg_sub_neg, abs_sub_comm, ← neg_add', abs_neg]

namespace Magnitude

-- the unit count of one is never computed
attribute [local irreducible] one

variable {m : Magnitude} {places e k : Nat}

def value (m : Magnitude) : ℚ := m.units / one

theorem one_eq (low high : Nat) (h : low + high = 1074) : one = 2 ^ low * 2 ^ high := by
  rw [one, ← h, Nat.pow_add]

theorem one_pos : 0 < one := by
  rw [one]
  exact Nat.two_pow_pos 1074

theorem value_mul_pow (m : Magnitude) (places : Nat) :
    m.value * 10 ^ places = (m.units * 10 ^ places : Nat) / (one : Nat) := by
  rw [value, div_mul_eq_mul_div, Nat.cast_mul, Nat.cast_pow, Nat.cast_ofNat]

theorem half_iff {a k : Nat} : (a : ℚ) / (one : Nat) = k + 1 / 2 ↔ 2 * a = (2 * k + 1) * one := by
  have hone : ((one : Nat) : ℚ) ≠ 0 := Nat.cast_ne_zero.mpr (Nat.ne_of_gt one_pos)
  rw [div_eq_iff hone, ← Nat.cast_inj (R := ℚ)]
  push_cast
  constructor <;> intro h <;> linarith

theorem halfway_iff :
    Halfway m.value places ↔ ∃ k, 2 * (m.units * 10 ^ places) = (2 * k + 1) * one := by
  simp only [Halfway, value_mul_pow, ← half_iff]
  constructor
  · rintro ⟨k, hk⟩
    -- a magnitude is not negative, so the multiple below it is not either
    have hnonneg : (0 : ℚ) ≤ (m.units * 10 ^ places : Nat) / (one : Nat) :=
      div_nonneg (Nat.cast_nonneg _) (Nat.cast_nonneg _)
    have hk' : -1 < k := by
      have : (-1 : ℚ) < k := by linarith
      exact_mod_cast this
    obtain ⟨n, rfl⟩ := Int.eq_ofNat_of_zero_le (show 0 ≤ k by omega)
    exact ⟨n, hk⟩
  · rintro ⟨k, hk⟩
    exact ⟨k, hk⟩

/-! ## Recognising ties -/

theorem pow_dvd_units (h : 2 ^ (e + 52) ≤ m.units) : 2 ^ e ∣ m.units := by
  have hne : m.units ≠ 0 := Nat.ne_of_gt (Nat.lt_of_lt_of_le (Nat.two_pow_pos _) h)
  have hlog := (Nat.le_log2 hne).mpr h
  exact Nat.dvd_trans (Nat.pow_dvd_pow 2 (by omega)) m.aligned

theorem add_le_of_dvd_of_lt {a b step : Nat} (ha : step ∣ a) (hb : step ∣ b) (hlt : a < b) :
    a + step ≤ b := by
  obtain ⟨x, rfl⟩ := ha
  obtain ⟨y, rfl⟩ := hb
  rw [← Nat.mul_succ]
  exact Nat.mul_le_mul_left step (Nat.lt_of_mul_lt_mul_left hlt)

theorem eq_of_dvd_of_near {a b step gap : Nat} (ha : step ∣ a) (hb : step ∣ b)
    (hgap : gap < step) (hle : a ≤ b + gap) (hge : b ≤ a + gap) : a = b := by
  rcases Nat.lt_trichotomy a b with hlt | heq | hlt
  · have hstep := add_le_of_dvd_of_lt ha hb hlt
    omega
  · exact heq
  · have hstep := add_le_of_dvd_of_lt hb ha hlt
    omega

theorem le_units_of_near (hplaces : places ≤ 2)
    (hnear : 10 ^ (30 : Nat) * ((2 * k + 1) * one) ≤
      10 ^ (30 : Nat) * (2 * (m.units * 10 ^ places)) + one) :
    2 ^ (1013 + 52 : Nat) ≤ m.units := by
  have hone := one_eq 9 (1013 + 52) rfl
  have hpow : 10 ^ places ≤ 10 ^ (2 : Nat) := Nat.pow_le_pow_right (by decide) hplaces
  have hscaled := Nat.mul_le_mul_left m.units hpow
  have hmultiple := Nat.le_mul_of_pos_left one (Nat.succ_pos (2 * k))
  -- the tie is at least half a unit, and the scale at most a hundred
  generalize 2 ^ (1013 + 52 : Nat) = unit at *
  generalize (2 * k + 1) * one = multiple at *
  omega

/-- What looks like a tie in its next thirty digits is one: with at most two places, a
magnitude near a tie is a multiple of `2 ^ -61`, and so is its distance to the tie. -/
theorem half_of_isTie (hplaces : places ≤ 2) (h : m.isTie places = true) :
    ∃ k, 2 * (m.units * 10 ^ places) = (2 * k + 1) * one := by
  rw [isTie, beq_iff_eq, atPlaces] at h
  obtain ⟨hlow, hhigh⟩ := roundQuotient_error (m.units * 10 ^ (places + 30)) one_pos
  generalize roundQuotient (m.units * 10 ^ (places + 30)) one = n at h hlow hhigh
  obtain ⟨k, rfl⟩ : ∃ k, n = 10 ^ (30 : Nat) * k + 5 * 10 ^ (29 : Nat) :=
    ⟨n / 10 ^ (30 : Nat), by omega⟩
  have htie : 2 * ((10 ^ (30 : Nat) * k + 5 * 10 ^ (29 : Nat)) * one) =
      10 ^ (30 : Nat) * ((2 * k + 1) * one) := by
    ring
  have hvalue : 2 * (m.units * 10 ^ (places + 30)) =
      10 ^ (30 : Nat) * (2 * (m.units * 10 ^ places)) := by
    ring
  rw [htie, hvalue] at hlow hhigh
  have hunits := pow_dvd_units (le_units_of_near hplaces hlow)
  have hone := one_eq 61 1013 rfl
  have hpos := Nat.two_pow_pos 1013
  generalize 2 ^ (1013 : Nat) = step at hunits hone hpos
  -- two multiples of the step that differ by less than a step are equal
  have hgap : one < 10 ^ (30 : Nat) * step := by
    rw [hone]
    exact Nat.mul_lt_mul_of_pos_right (by decide) hpos
  have hdvd : step ∣ one := Dvd.intro_left _ hone.symm
  have heq := eq_of_dvd_of_near
    (Nat.mul_dvd_mul_left _ (Dvd.dvd.mul_left (Dvd.dvd.mul_right hunits _) 2))
    (Nat.mul_dvd_mul_left _ (Dvd.dvd.mul_left hdvd (2 * k + 1))) hgap hhigh hlow
  exact ⟨k, Nat.eq_of_mul_eq_mul_left (by decide) heq⟩

theorem isTie_of_half (h : 2 * (m.units * 10 ^ places) = (2 * k + 1) * one) :
    m.isTie places = true := by
  have hnum : m.units * 10 ^ (places + 30) =
      (10 ^ (30 : Nat) * k + 5 * 10 ^ (29 : Nat)) * one := by
    calc m.units * 10 ^ (places + 30)
        = 5 * 10 ^ (29 : Nat) * (2 * (m.units * 10 ^ places)) := by ring
      _ = 5 * 10 ^ (29 : Nat) * ((2 * k + 1) * one) := by rw [h]
      _ = (10 ^ (30 : Nat) * k + 5 * 10 ^ (29 : Nat)) * one := by ring
  rw [isTie, atPlaces, hnum, roundQuotient_mul _ one_pos, beq_iff_eq]
  omega

theorem isTie_iff (hplaces : places ≤ 2) : m.isTie places = true ↔ Halfway m.value places := by
  rw [halfway_iff]
  exact ⟨half_of_isTie hplaces, fun ⟨_, h⟩ => isTie_of_half h⟩

/-! ## The nearest number -/

theorem abs_sub_roundQuotient_lt {a : Nat} (ha : ∀ k : Nat, 2 * a ≠ (2 * k + 1) * one) :
    |(a : ℚ) / (one : Nat) - roundQuotient a one| < 1 / 2 := by
  obtain ⟨hle, hge⟩ := roundQuotient_error a one_pos
  have hone : (0 : ℚ) < (one : Nat) := Nat.cast_pos.mpr one_pos
  -- an error of exactly half the divisor is a tie
  have hup : 2 * a ≠ 2 * (roundQuotient a one * one) + one := by
    intro heq
    exact ha (roundQuotient a one) (by rw [heq]; ring)
  have hdown : 2 * (roundQuotient a one * one) ≠ 2 * a + one := by
    intro heq
    cases hn : roundQuotient a one with
    | zero =>
      rw [hn, Nat.zero_mul] at heq
      exact absurd heq (Nat.ne_of_lt (Nat.add_pos_right _ one_pos))
    | succ n =>
      rw [hn, Nat.add_mul n 1, Nat.one_mul] at heq
      exact ha n (by rw [Nat.add_mul (2 * n) 1, Nat.one_mul, Nat.mul_assoc]; omega)
  have hlow : 2 * (a : ℚ) < 2 * (roundQuotient a one * (one : Nat)) + (one : Nat) := by
    exact_mod_cast Nat.lt_of_le_of_ne hge hup
  have hhigh : 2 * ((roundQuotient a one : ℚ) * (one : Nat)) < 2 * a + (one : Nat) := by
    exact_mod_cast Nat.lt_of_le_of_ne hle hdown
  rw [abs_sub_lt_iff, sub_lt_iff_lt_add, sub_lt_comm, div_lt_iff₀ hone, lt_div_iff₀ hone]
  constructor <;> linarith

theorem fixedUnits_of_not_halfway (hplaces : places ≤ 2) (h : ¬Halfway m.value places) :
    m.fixedUnits places = roundQuotient (m.units * 10 ^ places) one := by
  rw [fixedUnits, pushed, if_neg ((isTie_iff hplaces).not.mpr h), atPlaces]

theorem fixedUnits_of_units_eq_zero (hplaces : places ≤ 2) (h : m.units = 0) :
    m.fixedUnits places = 0 := by
  have htie : ¬Halfway m.value places := by
    rw [halfway_iff]
    rintro ⟨k, hk⟩
    rw [h, Nat.zero_mul] at hk
    exact absurd hk.symm (Nat.mul_ne_zero (Nat.succ_ne_zero _) (Nat.ne_of_gt one_pos))
  have hround := roundQuotient_mul 0 one_pos
  rw [fixedUnits_of_not_halfway hplaces htie, h, Nat.zero_mul]
  rwa [Nat.zero_mul] at hround

theorem nearestMultiple_fixedUnits (hplaces : places ≤ 2) (h : ¬Halfway m.value places) :
    NearestMultiple m.value (m.fixedUnits places / 10 ^ places) places := by
  have hnot : ∀ k : Nat, 2 * (m.units * 10 ^ places) ≠ (2 * k + 1) * one := fun k hk =>
    h (halfway_iff.mpr ⟨k, hk⟩)
  have hnear := abs_sub_roundQuotient_lt hnot
  rw [← value_mul_pow, ← fixedUnits_of_not_halfway hplaces h] at hnear
  exact nearestMultiple_of_near (n := m.fixedUnits places) hnear

theorem value_nonneg (m : Magnitude) : 0 ≤ m.value :=
  div_nonneg (Nat.cast_nonneg _) (Nat.cast_nonneg _)

theorem value_eq_zero_iff : m.value = 0 ↔ m.units = 0 := by
  rw [value, div_eq_zero_iff, Nat.cast_eq_zero, Nat.cast_eq_zero]
  exact or_iff_left (Nat.ne_of_gt one_pos)

end Magnitude

namespace Double

def rational? : Double → Option ℚ
  | finite negative m => some (if negative then -m.value else m.value)
  | _ => none

variable {negative : Bool} {m : Magnitude} {places : Nat}

theorem isNegative_iff (hplaces : places ≤ 2) :
    (negative && m.fixedUnits places != 0) = true ↔
      (if negative then -m.value else m.value) < 0 ∧ m.fixedUnits places ≠ 0 := by
  cases negative with
  | false => simp [m.value_nonneg]
  | true =>
    rw [if_pos rfl, neg_lt_zero, Bool.true_and, bne_iff_ne, Ne, iff_and_self]
    intro hround
    refine lt_of_le_of_ne m.value_nonneg (Ne.symm ?_)
    rw [Ne, Magnitude.value_eq_zero_iff]
    exact fun h => hround (Magnitude.fixedUnits_of_units_eq_zero hplaces h)

theorem value_fixed_signed (negative : Bool) (n places : Nat) :
    (Literal.fixed (negative && n != 0) n places).value =
      if negative then -((n : ℚ) / 10 ^ places) else n / 10 ^ places := by
  rw [Literal.value_fixed]
  cases negative with
  | false => simp
  | true =>
    by_cases hn : n = 0
    · simp [hn]
    · simp [hn]

/-- The text with at most two decimals is a literal with just so many, and its sign is a
minus exactly if the number is negative and not all digits are zeros. Numbers that differ in
their sign only have the same digits. Unless the number lies halfway between two multiples,
the literal denotes the nearest one, and the test for a tie holds for no other numbers. -/
theorem fixedText_nearest {v : Double} {x : ℚ} {places : Nat} (hv : v.rational? = some x)
    (hplaces : places ≤ 2) :
    ∃ l : Literal, WrittenAs (v.fixedText places) l places ∧
      (l.negative = true ↔ x < 0 ∧ ∃ c ∈ l.whole ++ l.fraction, c ≠ '0') ∧
      (∃ l' : Literal, WrittenAs ((-v).fixedText places) l' places ∧
        l'.whole = l.whole ∧ l'.fraction = l.fraction) ∧
      (¬Halfway x places → NearestMultiple x l.value places) ∧
      ∀ m, v.abs = finite false m → (m.isTie places = true ↔ Halfway x places) := by
  cases v with
  | nan => cases hv
  | infinite negative => cases hv
  | finite negative m =>
    obtain rfl := Option.some.inj hv
    refine ⟨_, writtenAs_fixedText negative m places, ?_,
      ⟨_, writtenAs_fixedText (!negative) m places, rfl, rfl⟩, ?_, ?_⟩
    · rw [Literal.exists_ne_zero_iff]
      exact isNegative_iff hplaces
    · intro htie
      rw [value_fixed_signed]
      cases negative with
      | false => exact m.nearestMultiple_fixedUnits hplaces htie
      | true =>
        exact (m.nearestMultiple_fixedUnits hplaces (halfway_neg_iff.not.mp htie)).neg
    · -- a double and its negation are halfway together
      intro m' hm'
      obtain rfl : m = m' := (finite.inj hm').2
      cases negative with
      | false => exact Magnitude.isTie_iff hplaces
      | true => exact (Magnitude.isTie_iff hplaces).trans halfway_neg_iff.symm

/-- The double nearest to -1.005 lies above the tie, and is written as the nearest multiple. -/
theorem fixedText_of_near_tie :
    let m : Magnitude := ⟨4526117625507348 * 2 ^ (1022 : Nat), by decide +kernel, by decide +kernel⟩
    let v := finite true m
    v.rational? = some (-m.value) ∧ 2 ≤ 2 ∧ v.fixedText 2 = "-1.00".toList ∧
    ¬Halfway (-m.value) 2 ∧
    ∃ l : Literal, WrittenAs (v.fixedText 2) l 2 ∧ l.negative = true ∧
      NearestMultiple (-m.value) l.value 2 := by
  intro m v
  have hv : v.rational? = some (-m.value) := rfl
  have htext : v.fixedText 2 = "-1.00".toList := by decide +kernel
  obtain ⟨l, hwritten, -, -, hnearest, htest⟩ := fixedText_nearest hv (Nat.le_refl 2)
  have hnot : ¬Halfway (-m.value) 2 := by
    rw [← htest m rfl]
    decide +kernel
  have hsign : l.negative = true := by
    rw [hwritten.unique (writtenAs_fixedText true m 2)]
    decide +kernel
  exact ⟨hv, Nat.le_refl 2, htext, hnot, l, hwritten, hsign, hnearest hnot⟩

end Double

end StatProse
