/-!
# Cutting texts

A text is cut at every occurrence of a mark; the parts are one more than the marks.
-/

namespace StatProse

def splitAt (mark : Char) : List Char → List (List Char)
  | [] => [[]]
  | c :: cs =>
    if c = mark then [] :: splitAt mark cs
    else match splitAt mark cs with
      | [] => [[c]]
      | part :: parts => (c :: part) :: parts

theorem splitAt_ne_nil (mark : Char) (cs : List Char) : splitAt mark cs ≠ [] := by
  cases cs with
  | nil => simp [splitAt]
  | cons c cs =>
    unfold splitAt
    split
    · simp
    · split <;> simp

theorem length_splitAt (mark : Char) (cs : List Char) :
    (splitAt mark cs).length = cs.count mark + 1 := by
  induction cs with
  | nil => rfl
  | cons c cs ih =>
    unfold splitAt
    split
    · rename_i h
      simp [h, ih]
    · rename_i h
      have hne := splitAt_ne_nil mark cs
      cases hs : splitAt mark cs with
      | nil => exact absurd hs hne
      | cons part parts => simpa [hs, List.count_cons, h] using ih

end StatProse
