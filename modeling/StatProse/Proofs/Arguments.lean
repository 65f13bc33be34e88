import StatProse.CommandLine

/-!
# Reading a command line

Arguments are read one after another into a draft. An argument that is an id stands for
itself, so the ids of a request are arguments, in their order.
-/

namespace StatProse.CommandLine

/-! ## Tokens -/

theorem longToken_ne_id (text : List Char) (id : String) : longToken text ≠ .id id := by
  intro h
  unfold longToken at h
  dsimp only at h
  split at h <;> simp at h

theorem shortToken_ne_id (letter : Char) (text : List Char) (id : String) :
    shortToken letter text ≠ .id id := by
  intro h
  unfold shortToken at h
  split at h <;> cases h

theorem eq_of_token_eq_id {argument text : String} (h : token argument = .id text) :
    text = argument := by
  unfold token at h
  split at h
  · cases h
    rfl
  · cases h
  · exact absurd h (longToken_ne_id _ _)
  · exact absurd h (shortToken_ne_id _ _ _)
  · cases h
    rfl

theorem isValue_iff {argument : String} :
    isValue argument = true ↔ token argument = .id argument := by
  unfold isValue
  constructor
  · intro h
    cases htoken : token argument with
    | id text => rw [eq_of_token_eq_id htoken]
    | endOfOptions => simp [htoken] at h
    | flag f value => simp [htoken] at h
    | unknown => simp [htoken] at h
  · intro h
    rw [h]

/-! ## Drafts -/

namespace Draft

variable {d d' : Draft} {s : Setting} {value id : String} {r : Request}

theorem ids_of_set? (h : d.set? s value = some d') : d'.ids = d.ids := by
  unfold set? at h
  split at h
  · cases h
  · cases s with
    | config =>
      dsimp only at h
      split at h
      · cases h
      · cases h
        rfl
    | language =>
      cases h
      rfl
    | placeholder =>
      cases h
      rfl

theorem ids_of_addId? (h : d.addId? id = some d') : d'.ids = d.ids ++ [id] := by
  unfold addId? at h
  split at h
  · cases h
    rfl
  · cases h

theorem low_mem_ids (h : d.command? = some (.describe r)) : r.low ∈ d.ids := by
  unfold command? at h
  split at h
  · rename_i low rest hids
    cases h
    rw [hids]
    exact List.mem_cons_self
  · cases h

theorem addId?_command? (h : d.command? = some (.describe r)) (hhigh : r.high = none)
    (id : String) :
    d.addId? id >>= command? = some (.describe { r with high := some id }) := by
  unfold command? at h
  split at h
  · rename_i low rest hids
    cases h
    obtain rfl : rest = [] := List.head?_eq_none_iff.mp hhigh
    simp [addId?, command?, hids]
  · cases h

end Draft

/-! ## Ids -/

namespace Request

/-- The ids of a request, in the order of the arguments. -/
def ids (r : Request) : List String := r.low :: r.high.toList

end Request

section Ids

variable {d d' : Draft} {waiting : Option Setting} {arguments : List String} {r : Request}

theorem Draft.ids_of_command? (h : d.command? = some (.describe r)) : r.ids.Sublist d.ids := by
  unfold command? at h
  split at h
  · rename_i low rest hids
    cases h
    rw [hids, Request.ids]
    cases rest with
    | nil => simp
    | cons high rest => simp
  · cases h

theorem Draft.ids_of_foldlM (h : arguments.foldlM addId? d = some d') :
    d'.ids = d.ids ++ arguments := by
  induction arguments generalizing d with
  | nil =>
    cases h
    simp
  | cons argument arguments ih =>
    obtain ⟨d₁, hadd, hrest⟩ := Option.bind_eq_some_iff.mp h
    simp [ih hrest, ids_of_addId? hadd]

-- the induction is on the reading: the ids so far come before those that are still to be read
theorem readArguments_ids (h : readArguments d waiting arguments = some (.describe r)) :
    r.ids.Sublist (d.ids ++ arguments) := by
  fun_induction readArguments d waiting arguments with
  | case1 | case4 | case5 | case7 | case9 | case10 | case12 | case14 => cases h
  | case2 d waiting hwaiting => simpa using Draft.ids_of_command? h
  | case3 d argument arguments s hvalue d' hset ih =>
    have hread := ih h
    rw [Draft.ids_of_set? hset] at hread
    exact hread.trans (by simp)
  | case6 d argument arguments text htoken d' hadd ih =>
    obtain rfl := eq_of_token_eq_id htoken
    simpa [Draft.ids_of_addId? hadd] using ih h
  | case8 d argument arguments htoken =>
    obtain ⟨d', hd', hcommand⟩ := Option.bind_eq_some_iff.mp h
    have hread := Draft.ids_of_command? hcommand
    rw [Draft.ids_of_foldlM hd'] at hread
    exact hread.trans (by simp)
  | case11 d argument arguments s value htoken d' hset ih =>
    have hread := ih h
    rw [Draft.ids_of_set? hset] at hread
    exact hread.trans (by simp)
  | case13 d argument arguments s htoken ih => exact (ih h).trans (by simp)

theorem parse?_ids (h : parse? arguments = some (.describe r)) : r.ids.Sublist arguments := by
  simpa using readArguments_ids h

end Ids

end StatProse.CommandLine
