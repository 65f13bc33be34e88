import Mathlib.Tactic.SplitIfs

/-!
# The byte order of texts

Texts are compared character by character. UTF-8 keeps the order of characters, so the same
order results if the bytes of the texts are compared.
-/

namespace StatProse

open String (utf8EncodeChar)

def utf8Bytes (s : String) : List UInt8 := s.toUTF8.data.toList

theorem toNat_lt_of_char (c : Char) : c.val.toNat < 0x110000 := by
  have h : c.val.toNat < 0xD800 ∨ 0xDFFF < c.val.toNat ∧ c.val.toNat < 0x110000 := c.valid
  omega

theorem utf8EncodeChar_append_lt {c d : Char} (h : c < d) (xs ys : List UInt8) :
    utf8EncodeChar c ++ xs < utf8EncodeChar d ++ ys := by
  have hlt : c.val.toNat < d.val.toNat := h
  have hbound := toNat_lt_of_char d
  -- one case for the numbers of bytes of the two characters
  simp only [utf8EncodeChar]
  split_ifs <;>
    simp only [List.cons_append, List.nil_append, List.cons_lt_cons_iff, UInt8.lt_iff_toNat_lt,
      ← UInt8.toNat_inj, UInt8.toNat_ofNat'] <;>
    simp (disch := omega) only [Nat.mod_eq_of_lt] <;> omega

theorem flatMap_utf8EncodeChar_lt {cs ds : List Char} (h : cs < ds) :
    cs.flatMap utf8EncodeChar < ds.flatMap utf8EncodeChar := by
  induction h with
  | @nil d ds =>
    obtain ⟨b, bs, hb⟩ := List.exists_cons_of_ne_nil (String.utf8EncodeChar_ne_nil (c := d))
    simp [hb]
  | @cons c cs ds _ ih => simpa using List.append_left_lt ih
  | @rel c cs d ds hcd => simpa using utf8EncodeChar_append_lt hcd _ _

theorem utf8Bytes_eq (s : String) : utf8Bytes s = s.toList.flatMap utf8EncodeChar := by
  rw [utf8Bytes, String.toUTF8_eq_toByteArray, ← String.utf8Encode_toList, List.utf8Encode,
    List.toList_data_toByteArray]

theorem utf8Bytes_lt_of_lt {s t : String} (h : s < t) : utf8Bytes s < utf8Bytes t := by
  rw [utf8Bytes_eq, utf8Bytes_eq]
  exact flatMap_utf8EncodeChar_lt h

/-- The order of texts is the order of their UTF-8 bytes. -/
theorem utf8Bytes_lt_iff {s t : String} : utf8Bytes s < utf8Bytes t ↔ s < t := by
  refine ⟨fun h => ?_, utf8Bytes_lt_of_lt⟩
  rcases Decidable.em (s < t) with hst | hst
  · exact hst
  rcases Decidable.em (t < s) with hts | hts
  · exact absurd h (List.lt_asymm (utf8Bytes_lt_of_lt hts))
  · obtain rfl := String.le_antisymm (String.not_lt.mp hts) (String.not_lt.mp hst)
    exact absurd h (List.lt_irrefl _)

theorem utf8Bytes_le_iff {s t : String} : utf8Bytes s ≤ utf8Bytes t ↔ s ≤ t :=
  not_congr utf8Bytes_lt_iff
end StatProse
