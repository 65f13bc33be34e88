import StatProse.Proofs.LiveValues
import StatProse.Proofs.NumberText

/-!
# Reading tokens back

A minus is the sign of a number and also stands between the two ends of a range, and a live
value stands before its range with nothing in between. All the same a token shows what it was
made of: numbers have no parentheses, and after the sign of the first end there is no minus
but the one that ends it.
-/

namespace StatProse

/-- What a token shows: one number, or the two ends of a range behind a value if there is
one. -/
inductive Token where
  | number (text : List Char)
  | range (value : Option (List Char)) (min max : List Char)
deriving DecidableEq

namespace Token

def written : Token → List Char
  | number text => text
  | range value min max => rangeToken value min max

def cut (mark : Char) (cs : List Char) : List Char × List Char :=
  (cs.takeWhile (· != mark), (cs.dropWhile (· != mark)).drop 1)

/-- Cuts the ends of a range apart. A minus at the beginning is the sign of the first end. -/
def cutEnds : List Char → List Char × List Char
  | '-' :: cs => ('-' :: (cut '-' cs).1, (cut '-' cs).2)
  | cs => cut '-' cs

def read (cs : List Char) : Token :=
  if '(' ∈ cs then
    let (value, ends) := cut '(' cs
    let (min, max) := cutEnds (cut ')' ends).1
    range (if value = [] then none else some value) min max
  else number cs

inductive OfNumbers : Token → Prop
  | number {text : List Char} : NumberText text → OfNumbers (number text)
  | range {value : Option (List Char)} {min max : List Char} :
    (∀ text, value = some text → NumberText text) → NumberText min → NumberText max →
      OfNumbers (range value min max)

variable {mark : Char} {front rest min max : List Char} {tok : Token}

theorem cut_append (h : mark ∉ front) : cut mark (front ++ mark :: rest) = (front, rest) := by
  have hpass : ∀ c ∈ front, (c != mark) = true := fun c hc =>
    bne_iff_ne.mpr fun heq => h (heq ▸ hc)
  rw [cut, List.takeWhile_append_of_pos hpass, List.dropWhile_append_of_pos hpass]
  simp

theorem cutEnds_append (h : NumberText min) : cutEnds (min ++ '-' :: max) = (min, max) := by
  obtain ⟨negative, unsigned, rfl, hne, hdash⟩ := h.exists_unsigned
  have hcut : cut '-' (unsigned ++ '-' :: max) = (unsigned, max) := cut_append hdash
  -- behind its sign the lower end has no minus, so the cut is at the one between the ends
  cases negative with
  | true => simp [signText, cutEnds, hcut]
  | false =>
    obtain ⟨c, cs, rfl⟩ := List.exists_cons_of_ne_nil hne
    have hc : c ≠ '-' := fun heq => hdash (by simp [heq])
    rw [signText, if_neg (by decide), List.nil_append]
    unfold cutEnds
    split
    · rename_i heq
      exact absurd (List.cons.inj heq).1 hc
    · exact hcut

theorem read_written (h : tok.OfNumbers) : read tok.written = tok := by
  cases h with
  | @number text htext =>
    have hopen : '(' ∉ text := htext.notMem_of_not_isNumberChar (by decide)
    rw [written, read, if_neg hopen]
  | @range value min max hvalue hmin hmax =>
    -- numbers hold no parenthesis, so each cut is at a mark of the token
    have hopen : '(' ∉ value.getD [] := by
      cases value with
      | none => simp
      | some text => exact (hvalue text rfl).notMem_of_not_isNumberChar (by decide)
    have hclose : ')' ∉ min ++ '-' :: max := by
      simp [hmin.notMem_of_not_isNumberChar (c := ')') (by decide),
        hmax.notMem_of_not_isNumberChar (c := ')') (by decide)]
    have htext : rangeToken value min max =
        value.getD [] ++ '(' :: ((min ++ '-' :: max) ++ [')']) := by
      simp [rangeToken]
    have hvalue : (if value.getD [] = [] then none else some (value.getD [])) = value := by
      cases value with
      | none => rfl
      | some text => simp [(hvalue text rfl).ne_nil]
    rw [written, htext, read, if_pos (by simp), cut_append hopen]
    simp only [cut_append hclose, cutEnds_append hmin, hvalue]

/-- Each minus in its part: two of them are signs, one stands between the ends. -/
example : read "(-8--13)".toList = range none "-8".toList "-13".toList := by decide

example : read "0.0(-inf-NaN)".toList = range (some "0.0".toList) "-inf".toList "NaN".toList := by
  decide

end Token

namespace Rule

def minText (r : Rule) (l : Line) (slot : Nat) : List Char :=
  (r.transformed slot (l.min slot)).text

def maxText (r : Rule) (l : Line) (slot : Nat) : List Char :=
  (r.transformed slot (l.max slot)).text

def valueText? (r : Rule) (l : Line) (slot : Nat) : Option (List Char) :=
  (r.shown? l slot).map (·.text)

def shownToken (r : Rule) (l : Line) (slot : Nat) : Token :=
  if r.minText l slot = r.maxText l slot then .number (r.minText l slot)
  else .range (r.valueText? l slot) (r.minText l slot) (r.maxText l slot)

variable (r r' : Rule) (l l' : Line) (slot slot' : Nat)

theorem written_shownToken : (r.shownToken l slot).written = r.token l slot none := by
  rw [token_eq, shownToken]
  by_cases h : r.minText l slot = r.maxText l slot
  · rw [if_pos h]
    exact (if_neg (not_not.mpr h)).symm
  · rw [if_neg h]
    exact (if_pos h).symm

theorem ofNumbers_shownToken : (r.shownToken l slot).OfNumbers := by
  unfold shownToken
  split
  · exact .number (DisplayValue.numberText_text _)
  · refine .range (fun text htext => ?_) (DisplayValue.numberText_text _)
      (DisplayValue.numberText_text _)
    obtain ⟨v, -, rfl⟩ := Option.map_eq_some_iff.mp htext
    exact v.numberText_text

theorem read_token : Token.read (r.token l slot none) = r.shownToken l slot := by
  rw [← written_shownToken, Token.read_written (r.ofNumbers_shownToken l slot)]

theorem token_eq_token_iff :
    r.token l slot none = r'.token l' slot' none ↔ r.shownToken l slot = r'.shownToken l' slot' := by
  constructor
  · intro h
    rw [← read_token, h, read_token]
  · intro h
    rw [← written_shownToken, h, written_shownToken]

theorem shownToken_eq_iff : r.shownToken l slot = r'.shownToken l' slot' ↔
    (r.minText l slot = r.maxText l slot ∧ r'.minText l' slot' = r'.maxText l' slot' ∧
      r.minText l slot = r'.minText l' slot') ∨
    (r.minText l slot ≠ r.maxText l slot ∧ r'.minText l' slot' ≠ r'.maxText l' slot' ∧
      r.minText l slot = r'.minText l' slot' ∧ r.maxText l slot = r'.maxText l' slot' ∧
      r.valueText? l slot = r'.valueText? l' slot') := by
  unfold shownToken
  -- each token is a number or a range, and a number is never a range
  by_cases h : r.minText l slot = r.maxText l slot
  · rw [if_pos h]
    by_cases h' : r'.minText l' slot' = r'.maxText l' slot'
    · rw [if_pos h', Token.number.injEq]
      constructor
      · exact fun hmin => .inl ⟨h, h', hmin⟩
      · rintro (⟨-, -, hmin⟩ | ⟨hne, -⟩)
        · exact hmin
        · exact absurd h hne
    · rw [if_neg h']
      refine iff_of_false nofun ?_
      rintro (⟨-, heq, -⟩ | ⟨hne, -⟩)
      · exact h' heq
      · exact hne h
  · rw [if_neg h]
    by_cases h' : r'.minText l' slot' = r'.maxText l' slot'
    · rw [if_pos h']
      refine iff_of_false nofun ?_
      rintro (⟨heq, -⟩ | ⟨-, hne, -⟩)
      · exact h heq
      · exact hne h'
    · rw [if_neg h', Token.range.injEq, and_rotate]
      constructor
      · exact fun hparts => .inr ⟨h, h', hparts⟩
      · rintro (⟨heq, -⟩ | ⟨-, -, hparts⟩)
        · exact absurd heq h
        · exact hparts

theorem shownToken_ne_range_self (value : Option (List Char)) (text : List Char) :
    r.shownToken l slot ≠ .range value text text := by
  unfold shownToken
  split
  · simp
  next h =>
    intro heq
    obtain ⟨-, hmin, hmax⟩ := Token.range.inj heq
    exact h (hmin.trans hmax.symm)

/-- Every number is printed in the same few forms, so a token can be read back: the reader
finds out whether it is one number or a range, the number or the ends, and the value before
the range. Tokens are equal exactly if all of this is equal, and no range has equal ends. -/
theorem tokens_read_back :
    (∀ v : DisplayValue, NumberText v.text) ∧
    ∀ (r : Rule) (l : Line) (slot : Nat),
      Token.read (r.token l slot none) =
        (if r.minText l slot = r.maxText l slot then .number (r.minText l slot)
          else .range (r.valueText? l slot) (r.minText l slot) (r.maxText l slot)) ∧
      (∀ value text, Token.read (r.token l slot none) ≠ .range value text text) ∧
      ∀ (r' : Rule) (l' : Line) (slot' : Nat), r.token l slot none = r'.token l' slot' none ↔
        (r.minText l slot = r.maxText l slot ∧ r'.minText l' slot' = r'.maxText l' slot' ∧
          r.minText l slot = r'.minText l' slot') ∨
        (r.minText l slot ≠ r.maxText l slot ∧ r'.minText l' slot' ≠ r'.maxText l' slot' ∧
          r.minText l slot = r'.minText l' slot' ∧ r.maxText l slot = r'.maxText l' slot' ∧
          r.valueText? l slot = r'.valueText? l' slot') := by
  refine ⟨DisplayValue.numberText_text, fun r l slot => ⟨r.read_token l slot, ?_, ?_⟩⟩
  · intro value text
    rw [read_token]
    exact r.shownToken_ne_range_self l slot value text
  · intro r' l' slot'
    rw [token_eq_token_iff, shownToken_eq_iff]

end Rule

end StatProse
