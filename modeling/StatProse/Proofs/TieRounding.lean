import StatProse.Proofs.FixedRounding

/-!
# Rounding ties

A tie is pushed upwards by a quarter of a unit in the last place and rounded once more. The
push is a double addition: it has an effect as long as the doubles around the number are
close enough together. From there on the tie is rounded to the even digit after all.
-/

namespace StatProse

theorem Double.add_finite {a b : Magnitude} (hpos : 0 < b.units) :
    finite false a + finite false b = ofRatio false (a.units + b.units) 1 := by
  have hsum : signed false a.units + signed false b.units = ((a.units + b.units : Nat) : Int) := by
    simp [signed]
  have hne : ((a.units + b.units : Nat) : Int) ≠ 0 := by omega
  have hneg : decide (((a.units + b.units : Nat) : Int) < 0) = false :=
    decide_eq_false (by omega)
  change (if signed false a.units + signed false b.units = 0 then _ else _) = _
  rw [hsum, if_neg hne, hneg, Int.natAbs_natCast]

/-- Ties below this power of two lie among doubles so close together that a quarter of a
unit leads away from them. -/
def pushReach : Nat → Nat
  | 0 => 52
  | 1 => 48
  | _ => 45

theorem pushReach_add_le {places : Nat} (h : places ≤ 2) : pushReach places + places ≤ 52 := by
  match places, h with
  | 0, _ => decide
  | 1, _ => decide
  | 2, _ => decide

namespace Magnitude

theorem pow_le_overflowUnits {n : Nat} (h : n ≤ 2098) : 2 ^ n ≤ overflowUnits := by
  obtain ⟨rest, hrest⟩ := Nat.exists_eq_add_of_le h
  rw [overflowUnits, hrest]
  exact Nat.pow_le_pow_right (by decide) (Nat.le_add_right n rest)

theorem one_mul_pow (n : Nat) : one * 2 ^ n = 2 ^ (1074 + n) := by
  rw [one, Nat.pow_add]

-- these counts of units are never computed
attribute [local irreducible] one overflowUnits

variable {m q : Magnitude} {places e k n : Nat}

/-! ## The distance between neighbours -/

theorem spacing_pos (n : Nat) : 0 < spacing n := Nat.two_pow_pos _

theorem spacing_le_of_lt (h : n < 2 ^ (e + 53)) : spacing n ≤ 2 ^ e := by
  refine Nat.pow_le_pow_right (by decide) ?_
  by_cases hn : n = 0
  · simp [hn]
  · have hlog := (Nat.log2_lt hn).mpr h
    omega

theorem le_spacing_of_le (h : 2 ^ (e + 52) ≤ n) : 2 ^ e ≤ spacing n := by
  have hn : n ≠ 0 := Nat.ne_of_gt (Nat.lt_of_lt_of_le (Nat.two_pow_pos _) h)
  have hlog := (Nat.le_log2 hn).mpr h
  exact Nat.pow_le_pow_right (by decide) (by omega)

theorem spacing_add {a : Nat} (hm : m.units ≠ 0) (ha : a < spacing m.units) :
    spacing (m.units + a) = spacing m.units := by
  have hlt : m.units < 2 ^ (m.units.log2 + 1) := Nat.lt_log2_self
  have hdvd : spacing m.units ∣ 2 ^ (m.units.log2 + 1) := Nat.pow_dvd_pow 2 (by omega)
  -- the spacing divides the next power of two, so a whole step does not lead past it
  have hnext : m.units + spacing m.units ≤ 2 ^ (m.units.log2 + 1) :=
    add_le_of_dvd_of_lt m.aligned hdvd hlt
  have hlog : (m.units + a).log2 = m.units.log2 := by
    refine (Nat.log2_eq_iff (by omega)).mpr ⟨?_, by omega⟩
    exact Nat.le_trans (Nat.log2_self_le hm) (Nat.le_add_right _ _)
  rw [spacing, spacing, hlog]

theorem nearest_one (n : Nat) : nearest n 1 = roundQuotient n (spacing n) * spacing n := by
  rw [nearest, Nat.div_one, Nat.one_mul]

theorem nearest_one_error (n : Nat) :
    2 * nearest n 1 ≤ 2 * n + spacing n ∧ 2 * n ≤ 2 * nearest n 1 + spacing n := by
  rw [nearest_one]
  exact roundQuotient_error n (spacing_pos n)

theorem nearest_add_half {a : Nat} (ha : 0 < a) (hodd : n = (2 * k + 1) * (2 * a))
    (hspacing : spacing (n + a) = 2 * a) : nearest (n + a) 1 = n + 2 * a := by
  have hhalf : 2 * (n + a) = (2 * (2 * k + 1) + 1) * (2 * a) := by
    rw [hodd]
    ring
  have heven : 2 * k + 1 + (2 * k + 1) % 2 = 2 * k + 2 := by omega
  rw [nearest_one, hspacing, roundQuotient_of_half (by omega) hhalf, heven, hodd]
  ring

theorem nearest_add_eq_self {a : Nat} (hm : m.units ≠ 0) (ha : 2 * a < spacing m.units) :
    nearest (m.units + a) 1 = m.units := by
  rw [nearest_one, spacing_add hm (by omega)]
  obtain ⟨significand, hunits⟩ := m.aligned
  rw [Nat.mul_comm] at hunits
  -- less than half a step was added, so the significand rounds back to itself
  have hround : roundQuotient (m.units + a) (spacing m.units) = significand := by
    apply roundQuotient_eq_of_near
    · rw [Nat.mul_assoc, ← hunits]
      have hpos := spacing_pos m.units
      omega
    · rw [Nat.add_mul (2 * significand) 1, Nat.one_mul, Nat.mul_assoc, ← hunits]
      omega
  rw [hround, ← hunits]

/-! ## The push -/

def quarter : Nat → Magnitude
  | 0 => ⟨2 ^ (1072 : Nat), by decide +kernel, by decide +kernel⟩
  | 1 => ⟨7205759403792794 * 2 ^ (1016 : Nat), by decide +kernel, by decide +kernel⟩
  | _ => ⟨5764607523034235 * 2 ^ (1013 : Nat), by decide +kernel, by decide +kernel⟩

theorem quarterUnit_eq (hplaces : places ≤ 2) :
    quarterUnit places = .finite false (quarter places) := by
  match places, hplaces with
  | 0, _ => decide +kernel
  | 1, _ => decide +kernel
  | 2, _ => decide +kernel

/-- A push by a quarter of a unit, against the distance between neighbours just below and
just above the reach. -/
structure Push (places : Nat) : Prop where
  le : 2 ^ (1021 + pushReach places) ≤ 2 * (quarter places).units
  lt : 2 * (quarter places).units < 2 ^ (1022 + pushReach places)
  small : 2 * ((quarter places).units * 10 ^ places) < one
  -- only a whole number can be pushed just halfway to the next double
  whole : 2 ^ (1021 + pushReach places) = 2 * (quarter places).units →
    places = 0 ∧ 4 * (quarter places).units = one

theorem push_of_le_two (hplaces : places ≤ 2) : Push places := by
  match places, hplaces with
  | 0, _ =>
    exact ⟨by decide +kernel, by decide +kernel, by decide +kernel, by decide +kernel⟩
  | 1, _ =>
    exact ⟨by decide +kernel, by decide +kernel, by decide +kernel, by decide +kernel⟩
  | 2, _ =>
    exact ⟨by decide +kernel, by decide +kernel, by decide +kernel, by decide +kernel⟩

-- from here on only these bounds are used
attribute [local irreducible] quarter

theorem Push.pos (hpush : Push places) : 0 < (quarter places).units := by
  have hle := hpush.le
  have hpow := Nat.two_pow_pos (1021 + pushReach places)
  omega

theorem ofRatio?_eq_some {num den : Nat} (h : nearest num den < overflowUnits) :
    ofRatio? num den = some ⟨nearest num den, h, spacing_dvd_nearest num den⟩ := by
  unfold ofRatio?
  rw [dif_pos h]

theorem ofRatio_eq_finite (negative : Bool) {num den : Nat} (h : nearest num den < overflowUnits) :
    Double.ofRatio negative num den =
      .finite negative ⟨nearest num den, h, spacing_dvd_nearest num den⟩ := by
  unfold Double.ofRatio
  rw [ofRatio?_eq_some h]

theorem pushed_units (hplaces : places ≤ 2) (htie : m.isTie places = true)
    (hover : nearest (m.units + (quarter places).units) 1 < overflowUnits) :
    (m.pushed places).units = nearest (m.units + (quarter places).units) 1 := by
  rw [pushed, if_pos htie, quarterUnit_eq hplaces,
    Double.add_finite (push_of_le_two hplaces).pos, ofRatio_eq_finite false hover]

theorem pow_dvd_of_half (hplaces : places ≤ 2)
    (h : 2 * (m.units * 10 ^ places) = (2 * k + 1) * one) : 2 ^ (1073 - places) ∣ m.units := by
  have hone := one_eq (places + 1) (1073 - places) (by omega)
  have hcoprime : (2 ^ (1073 - places)).Coprime (5 ^ places) :=
    Nat.Coprime.pow _ _ (by decide)
  have hdvd : 2 ^ (places + 1) * (m.units * 5 ^ places) =
      2 ^ (places + 1) * ((2 * k + 1) * 2 ^ (1073 - places)) := by
    calc 2 ^ (places + 1) * (m.units * 5 ^ places)
        = 2 * (m.units * (2 * 5) ^ places) := by rw [Nat.mul_pow]; ring
      _ = (2 * k + 1) * (2 ^ (places + 1) * 2 ^ (1073 - places)) := by rw [← hone, ← h]
      _ = 2 ^ (places + 1) * ((2 * k + 1) * 2 ^ (1073 - places)) := by ring
  refine hcoprime.dvd_of_dvd_mul_right ?_
  exact Dvd.intro_left _ (Nat.eq_of_mul_eq_mul_left (Nat.two_pow_pos _) hdvd).symm

theorem spacing_push_le (hplaces : places ≤ 2)
    (h : 2 * (m.units * 10 ^ places) = (2 * k + 1) * one)
    (hbelow : m.units < 2 ^ (1074 + pushReach places)) :
    spacing (m.units + (quarter places).units) ≤ 2 ^ (1021 + pushReach places) := by
  have hlt := (push_of_le_two hplaces).lt
  have hreach := pushReach_add_le hplaces
  have hstep : 2 ^ (1022 + pushReach places) = 2 * 2 ^ (1021 + pushReach places) := by
    rw [← Nat.pow_succ', show 1022 + pushReach places = 1021 + pushReach places + 1 by omega]
  -- the tie and the reach are multiples of a number that exceeds the push
  have hsum : m.units + 2 ^ (1021 + pushReach places) ≤ 2 ^ (1074 + pushReach places) :=
    add_le_of_dvd_of_lt
      (Nat.dvd_trans (Nat.pow_dvd_pow 2 (by omega)) (pow_dvd_of_half hplaces h))
      (Nat.pow_dvd_pow 2 (by omega)) hbelow
  apply spacing_le_of_lt
  rw [show 1021 + pushReach places + 53 = 1074 + pushReach places by omega]
  omega

theorem nearest_push (hplaces : places ≤ 2)
    (h : 2 * (m.units * 10 ^ places) = (2 * k + 1) * one)
    (hbelow : m.units < 2 ^ (1074 + pushReach places)) :
    m.units < nearest (m.units + (quarter places).units) 1 ∧
      nearest (m.units + (quarter places).units) 1 ≤ m.units + 2 * (quarter places).units := by
  have hpush := push_of_le_two hplaces
  have hle := hpush.le
  have hspacing := spacing_push_le hplaces h hbelow
  obtain ⟨hhigh, hlow⟩ := nearest_one_error (m.units + (quarter places).units)
  refine ⟨?_, by omega⟩
  rcases Nat.lt_or_ge (spacing (m.units + (quarter places).units)) (2 * (quarter places).units)
    with hfine | hcoarse
  · omega
  · -- the push leads halfway to the next double, which is the even one of the two
    obtain ⟨rfl, hone⟩ := hpush.whole (by omega)
    have hodd : m.units = (2 * k + 1) * (2 * (quarter 0).units) := by
      rw [← hone, Nat.pow_zero, Nat.mul_one] at h
      linarith only [h]
    rw [nearest_add_half hpush.pos hodd (by omega)]
    exact Nat.lt_add_of_pos_right (Nat.mul_pos (by decide) hpush.pos)

theorem units_add_push_lt (hplaces : places ≤ 2)
    (hbelow : m.units < 2 ^ (1074 + pushReach places)) :
    m.units + 2 * (quarter places).units < overflowUnits := by
  have hlt := (push_of_le_two hplaces).lt
  have hreach := pushReach_add_le hplaces
  have hlow : 2 ^ (1022 + pushReach places) ≤ 2 ^ (1074 + pushReach places) :=
    Nat.pow_le_pow_right (by decide) (by omega)
  have hdouble : 2 ^ (1075 + pushReach places) = 2 * 2 ^ (1074 + pushReach places) := by
    rw [← Nat.pow_succ', show 1075 + pushReach places = 1074 + pushReach places + 1 by omega]
  have hlimit : 2 ^ (1075 + pushReach places) ≤ overflowUnits := pow_le_overflowUnits (by omega)
  omega

/-! ## Pushed and absorbed ties -/

theorem fixedUnits_of_lt_reach (hplaces : places ≤ 2)
    (h : 2 * (m.units * 10 ^ places) = (2 * k + 1) * one)
    (hbelow : m.units < 2 ^ (1074 + pushReach places)) : m.fixedUnits places = k + 1 := by
  obtain ⟨hup, hmost⟩ := nearest_push hplaces h hbelow
  have hpush := push_of_le_two hplaces
  have hover := Nat.lt_of_le_of_lt hmost (units_add_push_lt hplaces hbelow)
  rw [fixedUnits, atPlaces, pushed_units hplaces (isTie_of_half h) hover]
  -- from here on only that the sum is above the tie, and by less than a unit
  generalize nearest (m.units + (quarter places).units) 1 = sum at hup hmost
  have hscaled := Nat.mul_lt_mul_of_pos_right hup (Nat.pow_pos (n := places) (by decide : 0 < 10))
  have hscaledMost := Nat.mul_le_mul_right (10 ^ places) hmost
  rw [Nat.add_mul, Nat.mul_assoc] at hscaledMost
  have hsmall := hpush.small
  apply roundQuotient_eq_of_near
  · linarith only [h, hscaled]
  · linarith only [h, hscaledMost, hsmall]

theorem fixedUnits_of_reach_le (hplaces : places ≤ 2)
    (h : 2 * (m.units * 10 ^ places) = (2 * k + 1) * one)
    (habove : 2 ^ (1074 + pushReach places) ≤ m.units) : m.fixedUnits places = k + k % 2 := by
  have hne : m.units ≠ 0 := Nat.ne_of_gt (Nat.lt_of_lt_of_le (Nat.two_pow_pos _) habove)
  have hspacing : 2 ^ (1022 + pushReach places) ≤ spacing m.units := by
    apply le_spacing_of_le
    rwa [show 1022 + pushReach places + 52 = 1074 + pushReach places by omega]
  -- so far out the push is less than half a step
  have hlost : nearest (m.units + (quarter places).units) 1 = m.units :=
    nearest_add_eq_self hne (Nat.lt_of_lt_of_le (push_of_le_two hplaces).lt hspacing)
  have hover : nearest (m.units + (quarter places).units) 1 < overflowUnits := by
    rw [hlost]
    exact m.bounded
  rw [fixedUnits, atPlaces, pushed_units hplaces (isTie_of_half h) hover, hlost]
  exact roundQuotient_of_half one_pos h

theorem places_ne_zero_of_reach_le (h : 2 * (m.units * 10 ^ places) = (2 * k + 1) * one)
    (habove : 2 ^ (1074 + pushReach places) ≤ m.units) : places ≠ 0 := by
  rintro rfl
  -- so far out every double is a whole number
  have hdvd : ∀ e, e = 1074 → 2 ^ (e + pushReach 0) ≤ m.units → one ∣ m.units := by
    intro e he hle
    have hone := one_eq 0 e (by omega)
    rw [hone, Nat.pow_zero, Nat.one_mul]
    exact pow_dvd_units hle
  obtain ⟨n, hn⟩ := hdvd 1074 rfl habove
  rw [Nat.pow_zero, Nat.mul_one, hn, Nat.mul_comm one, ← Nat.mul_assoc] at h
  have heq := Nat.eq_of_mul_eq_mul_right one_pos h
  omega

theorem value_lt_pow_iff : m.value < 2 ^ n ↔ m.units < 2 ^ (1074 + n) := by
  rw [value, div_lt_iff₀ (Nat.cast_pos.mpr one_pos), ← one_mul_pow, Nat.mul_comm,
    ← Nat.cast_lt (α := ℚ), Nat.cast_mul, Nat.cast_pow, Nat.cast_ofNat]

end Magnitude

namespace Double

variable {v : Double} {x : ℚ} {places k : Nat}

theorem abs_signed {a : ℚ} (ha : 0 ≤ a) (negative : Bool) : |if negative then -a else a| = a := by
  cases negative with
  | false => exact abs_of_nonneg ha
  | true => exact (abs_neg a).trans (abs_of_nonneg ha)

theorem exists_of_rational? (h : v.rational? = some x) :
    ∃ negative m, v = finite negative m ∧ |x| = m.value := by
  cases v with
  | nan => cases h
  | infinite negative => cases h
  | finite negative m =>
    obtain rfl := Option.some.inj h
    exact ⟨negative, m, rfl, abs_signed m.value_nonneg negative⟩

theorem abs_value_fixed (negative : Bool) (n places : Nat) :
    |(Literal.fixed (negative && n != 0) n places).value| = n / 10 ^ places := by
  rw [value_fixed_signed]
  exact abs_signed (by positivity) negative

/-- Below the reach of the push, a number halfway between two multiples is written as the
larger one in magnitude. All ties between whole numbers lie there. From the reach on, a tie is
written as the one of the two whose last digit is even. -/
theorem fixedText_of_halfway (hv : v.rational? = some x) (hplaces : places ≤ 2)
    (htie : |x| * 10 ^ places = k + 1 / 2) :
    ∃ l : Literal, WrittenAs (v.fixedText places) l places ∧
      (|x| < 2 ^ pushReach places → |l.value| = (k + 1 : Nat) / 10 ^ places) ∧
      (2 ^ pushReach places ≤ |x| →
        places ≠ 0 ∧ |l.value| = (k + k % 2 : Nat) / 10 ^ places) := by
  obtain ⟨negative, m, rfl, hx⟩ := exists_of_rational? hv
  rw [hx, Magnitude.value_mul_pow, Magnitude.half_iff] at htie
  refine ⟨_, writtenAs_fixedText negative m places, ?_, ?_⟩
  · intro hbelow
    rw [hx, Magnitude.value_lt_pow_iff] at hbelow
    rw [abs_value_fixed, Magnitude.fixedUnits_of_lt_reach hplaces htie hbelow]
  · intro habove
    rw [hx, ← not_lt, Magnitude.value_lt_pow_iff, Nat.not_lt] at habove
    refine ⟨Magnitude.places_ne_zero_of_reach_le htie habove, ?_⟩
    rw [abs_value_fixed, Magnitude.fixedUnits_of_reach_le hplaces htie habove]

theorem fixedText_of_five_halves :
    let m : Magnitude := ⟨5 * 2 ^ (1073 : Nat), by decide +kernel, by decide +kernel⟩
    let v := finite true m
    v.rational? = some (-m.value) ∧ 0 ≤ 2 ∧ |-m.value| * 10 ^ 0 = (2 : Nat) + 1 / 2 ∧
    |-m.value| < 2 ^ pushReach 0 ∧ v.fixedText 0 = "-3".toList ∧
    ∃ l : Literal, WrittenAs (v.fixedText 0) l 0 ∧ |l.value| = (3 : Nat) / 10 ^ 0 := by
  intro m v
  have hv : v.rational? = some (-m.value) := rfl
  have hplaces : 0 ≤ 2 := by decide
  have habs : |-m.value| = m.value := (abs_neg _).trans (abs_of_nonneg m.value_nonneg)
  have htie : |-m.value| * 10 ^ 0 = (2 : Nat) + 1 / 2 := by
    rw [habs, Magnitude.value_mul_pow, Magnitude.half_iff]
    decide +kernel
  have hbelow : |-m.value| < 2 ^ pushReach 0 := by
    rw [habs, Magnitude.value_lt_pow_iff]
    decide +kernel
  obtain ⟨l, hwritten, hlarger, -⟩ := fixedText_of_halfway hv hplaces htie
  exact ⟨hv, hplaces, htie, hbelow, by decide +kernel, l, hwritten, hlarger hbelow⟩

/-- Not every tie is rounded away from zero: 281474976710656.25 lies at the reach, and is
written as 281474976710656.2. -/
theorem not_halfway_away_from_zero :
    ¬∀ (v : Double) (x : ℚ) (places k : Nat) (l : Literal), v.rational? = some x → places ≤ 2 →
      |x| * 10 ^ places = k + 1 / 2 → WrittenAs (v.fixedText places) l places →
      |l.value| = (k + 1 : Nat) / 10 ^ places := by
  intro h
  let m : Magnitude := ⟨(2 ^ 50 + 1) * 2 ^ (1072 : Nat), by decide +kernel, by decide +kernel⟩
  have htie : |m.value| * 10 ^ 1 = (2814749767106562 : Nat) + 1 / 2 := by
    rw [abs_of_nonneg m.value_nonneg, Magnitude.value_mul_pow, Magnitude.half_iff]
    decide +kernel
  have hunits : m.fixedUnits 1 = 2814749767106562 := by decide +kernel
  have hlarger := h (finite false m) m.value 1 _ _ rfl (by decide) htie
    (writtenAs_fixedText false m 1)
  rw [abs_value_fixed, hunits] at hlarger
  norm_num at hlarger

end Double

end StatProse
