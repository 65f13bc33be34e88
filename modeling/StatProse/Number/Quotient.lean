/-!
# Rounded quotients

Exact arithmetic ends in one rounding step: a quotient goes to the nearest natural
number, and a half goes to the even neighbour.
-/

namespace StatProse

-- powers are Lean's own in the whole development, also where a library adds others
attribute [scoped instance (high)] instPowNat

/-- The natural number nearest to `num / den`; of two equally near ones, the even one. -/
def roundQuotient (num den : Nat) : Nat :=
  if num % den * 2 < den then num / den
  else if den < num % den * 2 then num / den + 1
  else num / den + num / den % 2

theorem roundQuotient_le (num den : Nat) : roundQuotient num den ≤ num / den + 1 := by
  unfold roundQuotient
  split
  · omega
  · split <;> omega

theorem roundQuotient_mul (n : Nat) {den : Nat} (h : 0 < den) :
    roundQuotient (n * den) den = n := by
  simp [roundQuotient, h]

theorem roundQuotient_error (num : Nat) {den : Nat} (h : 0 < den) :
    2 * (roundQuotient num den * den) ≤ 2 * num + den ∧
      2 * num ≤ 2 * (roundQuotient num den * den) + den := by
  have hdiv := Nat.div_add_mod' num den
  have hmod := Nat.mod_lt num h
  unfold roundQuotient
  split
  · omega
  · split
    · rw [Nat.add_mul (num / den) 1, Nat.one_mul]
      omega
    · rcases Nat.mod_two_eq_zero_or_one (num / den) with heven | hodd
      · rw [heven, Nat.add_zero]
        omega
      · rw [hodd, Nat.add_mul (num / den) 1, Nat.one_mul]
        omega

theorem roundQuotient_eq_of_near {num den k : Nat} (hlow : 2 * k * den < 2 * num + den)
    (hhigh : 2 * num < (2 * k + 1) * den) : roundQuotient num den = k := by
  have hpos : 0 < den := Nat.pos_of_ne_zero fun h => by simp [h] at hhigh
  obtain ⟨hle, hge⟩ := roundQuotient_error num hpos
  rw [Nat.mul_assoc] at hlow
  rw [Nat.add_mul (2 * k) 1, Nat.one_mul, Nat.mul_assoc] at hhigh
  -- two multiples of the divisor less than one divisor apart are equal
  rcases Nat.lt_trichotomy (roundQuotient num den) k with hlt | heq | hlt
  · have hstep := Nat.mul_le_mul_right den hlt
    rw [Nat.succ_mul] at hstep
    omega
  · exact heq
  · have hstep := Nat.mul_le_mul_right den hlt
    rw [Nat.succ_mul] at hstep
    omega

theorem roundQuotient_of_half {num den k : Nat} (hden : 0 < den)
    (h : 2 * num = (2 * k + 1) * den) : roundQuotient num den = k + k % 2 := by
  have hnum : num = k * den + den / 2 ∧ den % 2 = 0 := by
    rw [Nat.add_mul (2 * k) 1, Nat.one_mul, Nat.mul_assoc] at h
    omega
  have hdiv : num / den = k := by
    refine Nat.div_eq_of_lt_le (by omega) ?_
    rw [Nat.add_mul k 1, Nat.one_mul]
    omega
  have hmod : num % den = den / 2 := by
    rw [hnum.1, Nat.mul_add_mod_of_lt (by omega)]
  unfold roundQuotient
  rw [hdiv, hmod, if_neg (by omega), if_neg (by omega)]

end StatProse
