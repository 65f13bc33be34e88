import StatProse.DisplayValue

/-!
# How numbers are written

Every number is written in one of a few forms: digits, perhaps with a point and more digits
behind it, or a name if it is not finite, and before these a minus if there is one. So a
minus is always the first character, and only a few other characters occur.
-/

namespace StatProse

def signText (negative : Bool) : List Char := if negative then ['-'] else []

def fractionText (fraction : List Char) : List Char :=
  if fraction = [] then [] else '.' :: fraction

theorem mem_fractionText {fraction : List Char} {c : Char} (h : c ∈ fractionText fraction) :
    c = '.' ∨ c ∈ fraction := by
  unfold fractionText at h
  split at h
  · cases h
  · exact List.mem_cons.mp h

/-- The texts of numbers: a minus if there is one, then digits and perhaps a point with more
digits, or else the name of a number that is not finite. -/
inductive NumberText : List Char → Prop
  | nan : NumberText ['N', 'a', 'N']
  | infinite (negative : Bool) : NumberText (signText negative ++ ['i', 'n', 'f'])
  | decimal (negative : Bool) {whole fraction : List Char} (nonempty : whole ≠ [])
    (isDigit : ∀ c ∈ whole ++ fraction, c.isDigit = true) :
    NumberText (signText negative ++ (whole ++ fractionText fraction))

def IsNumberChar (c : Char) : Prop := c.isDigit = true ∨ c ∈ ['-', '.', 'N', 'a', 'i', 'n', 'f']

instance (c : Char) : Decidable (IsNumberChar c) := inferInstanceAs (Decidable (_ ∨ _))

theorem IsNumberChar.ne_newline {c : Char} (h : IsNumberChar c) : c ≠ '\n' := by
  rintro rfl
  simp [IsNumberChar] at h

namespace NumberText

variable {text : List Char} {c : Char}

theorem exists_unsigned (h : NumberText text) :
    ∃ negative unsigned, text = signText negative ++ unsigned ∧ unsigned ≠ [] ∧ '-' ∉ unsigned := by
  cases h with
  | nan => exact ⟨false, _, rfl, by simp, by simp⟩
  | infinite negative => exact ⟨negative, _, rfl, by simp, by simp⟩
  | @decimal negative whole fraction hwhole hdigits =>
    refine ⟨negative, _, rfl, by simp [hwhole], fun hdash => ?_⟩
    rcases List.mem_append.mp hdash with hdash | hdash
    · cases hdigits _ (List.mem_append_left _ hdash)
    · rcases mem_fractionText hdash with hdot | hdash
      · exact absurd hdot (by decide)
      · cases hdigits _ (List.mem_append_right _ hdash)

theorem ne_nil (h : NumberText text) : text ≠ [] := by
  obtain ⟨negative, unsigned, rfl, hne, -⟩ := h.exists_unsigned
  simp [hne]

theorem isNumberChar (h : NumberText text) (hc : c ∈ text) : IsNumberChar c := by
  have hfixed {cs : List Char} (hall : cs.all (fun c => decide (IsNumberChar c)) = true)
      (hc : c ∈ cs) : IsNumberChar c := of_decide_eq_true (List.all_eq_true.mp hall c hc)
  have hsign {negative : Bool} : c ∈ signText negative → IsNumberChar c :=
    hfixed (by cases negative <;> decide)
  cases h with
  | nan => exact hfixed (by decide) hc
  | infinite negative =>
    rcases List.mem_append.mp hc with hc | hc
    · exact hsign hc
    · exact hfixed (by decide) hc
  | @decimal negative whole fraction _ hdigits =>
    rcases List.mem_append.mp hc with hc | hc
    · exact hsign hc
    · rcases List.mem_append.mp hc with hc | hc
      · exact .inl (hdigits c (List.mem_append_left _ hc))
      · rcases mem_fractionText hc with rfl | hc
        · simp [IsNumberChar]
        · exact .inl (hdigits c (List.mem_append_right _ hc))

theorem notMem_of_not_isNumberChar (h : NumberText text) (hc : ¬IsNumberChar c) : c ∉ text :=
  fun hmem => hc (h.isNumberChar hmem)

end NumberText

/-! ## The texts of numbers -/

namespace Decimal

theorem isDigit_of_mem_digits {c : Char} {width n : Nat} (h : c ∈ digits width n) :
    c.isDigit = true := by
  induction width generalizing n with
  | zero => simp [digits, digitsBefore] at h
  | succ width ih =>
    rw [digits_succ, List.mem_append, List.mem_singleton] at h
    rcases h with h | rfl
    · exact ih h
    · simpa [Nat.isDigit_digitChar] using Nat.mod_lt n (by decide)

theorem numberText_fixedPoint (negative : Bool) (n places : Nat) :
    NumberText (signText negative ++ fixedPoint n places) := by
  have hplaces : places = 0 ↔ digits places n = [] := by
    rw [← List.length_eq_zero_iff, length_digits]
  simp only [fixedPoint, hplaces]
  refine .decimal negative Nat.toDigits_ne_nil fun c hc => ?_
  rcases List.mem_append.mp hc with hc | hc
  · exact Nat.isDigit_of_mem_toDigits (by decide) (by decide) hc
  · exact isDigit_of_mem_digits hc

theorem numberText_positional (negative : Bool) (n : Nat) (exponent : Int) :
    NumberText (signText negative ++ positional n exponent) := by
  unfold positional
  split
  · exact numberText_fixedPoint negative n _
  · simpa [fixedPoint] using numberText_fixedPoint negative (n * 10 ^ exponent.toNat) 0

end Decimal

theorem Magnitude.numberText_text (negative : Bool) (m : Magnitude) :
    NumberText (signText negative ++ m.text) := by
  unfold text
  split
  · exact Decimal.numberText_fixedPoint negative 0 0
  · exact Decimal.numberText_positional negative _ _

theorem Double.numberText_text (v : Double) : NumberText v.text := by
  cases v with
  | nan => exact .nan
  | infinite negative =>
    have htext : (infinite negative).text = signText negative ++ ['i', 'n', 'f'] := by
      cases negative <;> rfl
    exact htext ▸ .infinite negative
  | finite negative m =>
    have htext : (finite negative m).text = signText negative ++ m.text := by
      cases negative <;> rfl
    exact htext ▸ m.numberText_text negative

theorem Double.numberText_fixedText (v : Double) (places : Nat) :
    NumberText (v.fixedText places) := by
  cases v with
  | nan => exact .nan
  | infinite negative => exact (infinite negative).numberText_text
  | finite negative m =>
    simp only [fixedText]
    split
    · exact Decimal.numberText_fixedPoint true _ _
    · exact Decimal.numberText_fixedPoint false _ _

theorem DisplayValue.numberText_text (v : DisplayValue) : NumberText v.text := by
  cases v with
  | plain v =>
    simp only [text]
    split
    · exact Decimal.numberText_fixedPoint false 0 0
    · exact v.numberText_text
  | fixed v places => exact v.numberText_fixedText places

theorem DisplayValue.isNumberChar_of_mem_text {v : DisplayValue} {c : Char} (h : c ∈ v.text) :
    IsNumberChar c :=
  v.numberText_text.isNumberChar h

end StatProse
