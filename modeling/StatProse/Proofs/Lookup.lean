import StatProse.Table

/-!
# Looking up entries

A lookup finds the first entry, in the order of the table, that mentions a stat. It
fails for exactly those stats that no entry mentions.
-/

namespace StatProse

theorem take_append_cons_drop {α : Type} {xs : List α} {n : Nat} {a : α} (h : xs[n]? = some a) :
    xs.take n ++ a :: xs.drop (n + 1) = xs := by
  obtain ⟨hlt, rfl⟩ := List.getElem?_eq_some_iff.mp h
  rw [← List.drop_eq_getElem_cons hlt, List.take_append_drop]

/-- An item may be erased from under a search if an item before it passes whenever it does. -/
theorem find?_eraseIdx {α : Type} {p : α → Bool} {xs : List α} {n : Nat} {a : α}
    (ha : xs[n]? = some a) (h : p a = true → ∃ b ∈ xs.take n, p b = true) :
    (xs.eraseIdx n).find? p = xs.find? p := by
  rw [List.eraseIdx_eq_take_drop_succ, List.find?_append]
  conv => rhs; rw [← take_append_cons_drop ha, List.find?_append, List.find?_cons]
  cases hbefore : (xs.take n).find? p with
  | some b => rw [Option.some_or, Option.some_or]
  | none =>
    have hmiss : p a = false := by
      rw [Bool.eq_false_iff]
      intro hpass
      obtain ⟨b, hb, hbpass⟩ := h hpass
      exact List.find?_eq_none.mp hbefore b hb hbpass
    rw [hmiss]

namespace Entry

@[simp] theorem mentions_iff {e : Entry} {x : String} : e.mentions x = true ↔ x ∈ e.ids := by
  simp [mentions]

@[simp] theorem mentions_eq_false_iff {e : Entry} {x : String} :
    e.mentions x = false ↔ x ∉ e.ids := by
  simp [mentions]

theorem slotOf?_eq_some_iff {e : Entry} {x : String} {slot : Nat} :
    e.slotOf? x = some slot ↔
      e.ids[slot]? = some x ∧ ∀ earlier < slot, e.ids[earlier]? ≠ some x := by
  simp only [slotOf?, List.idxOf?_eq_some_iff, List.getElem?_eq_some_iff]
  constructor
  · rintro ⟨h, hx, hfirst⟩
    refine ⟨⟨h, hx⟩, fun earlier hlt heq => ?_⟩
    obtain ⟨_, he⟩ := List.getElem?_eq_some_iff.mp heq
    exact hfirst earlier hlt he
  · rintro ⟨⟨h, hx⟩, hfirst⟩
    refine ⟨h, hx, fun earlier hlt he => hfirst earlier hlt ?_⟩
    exact List.getElem?_eq_some_iff.mpr ⟨Nat.lt_trans hlt h, he⟩

end Entry

namespace Table

def Knows (t : Table) (x : String) : Prop := ∃ e ∈ t.entries, x ∈ e.ids

/-- The entry at a position is the first one, in table order, that mentions the stat. -/
structure IsFirst (t : Table) (x : String) (position : Nat) (e : Entry) : Prop where
  found : t.entries[position]? = some e
  mentioned : x ∈ e.ids
  unmentioned : ∀ earlier < position, ∀ other, t.entries[earlier]? = some other → x ∉ other.ids

variable {t : Table} {x : String} {position : Nat} {e : Entry}

theorem entryFor?_eq_some_iff : t.entryFor? x = some (position, e) ↔ t.IsFirst x position e := by
  simp only [entryFor?_eq, Option.bind_eq_some_iff, Option.map_eq_some_iff,
    List.findIdx?_eq_some_iff_getElem, Entry.mentions_iff]
  constructor
  -- the index gives a bounded position, the description an optional entry
  · rintro ⟨_, ⟨hlt, hx, hfirst⟩, _, he, heq⟩
    cases heq
    obtain ⟨_, rfl⟩ := List.getElem?_eq_some_iff.mp he
    refine ⟨he, hx, fun earlier hearlier other hother => ?_⟩
    obtain ⟨_, rfl⟩ := List.getElem?_eq_some_iff.mp hother
    exact hfirst earlier hearlier
  · rintro ⟨he, hx, hfirst⟩
    obtain ⟨hlt, rfl⟩ := List.getElem?_eq_some_iff.mp he
    exact ⟨position, ⟨hlt, hx, fun earlier h =>
      hfirst earlier h _ (List.getElem?_eq_getElem (Nat.lt_trans h hlt))⟩, _, he, rfl⟩

theorem IsFirst.knows (h : t.IsFirst x position e) : t.Knows x :=
  ⟨e, List.mem_of_getElem? h.found, h.mentioned⟩

theorem entryFor?_eq_none_iff : t.entryFor? x = none ↔ ¬t.Knows x := by
  constructor
  · rintro h ⟨e, he, hx⟩
    rw [entryFor?_eq] at h
    cases hi : t.entries.findIdx? (·.mentions x) with
    | none =>
      have hmiss := List.findIdx?_eq_none_iff.mp hi e he
      exact absurd hx (Entry.mentions_eq_false_iff.mp hmiss)
    | some position =>
      obtain ⟨hlt, -⟩ := List.findIdx?_eq_some_iff_getElem.mp hi
      simp [hi, List.getElem?_eq_getElem hlt] at h
  · intro h
    cases hf : t.entryFor? x with
    | none => rfl
    | some found => exact absurd (entryFor?_eq_some_iff.mp hf).knows h

theorem Knows.entryFor? (h : t.Knows x) : ∃ position e, t.entryFor? x = some (position, e) := by
  cases hf : t.entryFor? x with
  | none => exact absurd h (entryFor?_eq_none_iff.mp hf)
  | some found => exact ⟨found.1, found.2, rfl⟩

theorem IsFirst.unique {other : Nat} {e' : Entry} (h : t.IsFirst x position e)
    (h' : t.IsFirst x other e') : position = other ∧ e = e' := by
  have heq := (entryFor?_eq_some_iff.mpr h).symm.trans (entryFor?_eq_some_iff.mpr h')
  cases heq
  exact ⟨rfl, rfl⟩

theorem find?_mentions (t : Table) (x : String) :
    t.entries.find? (·.mentions x) = (t.entryFor? x).map (·.2) := by
  cases hf : t.entryFor? x with
  | none =>
    refine List.find?_eq_none.mpr fun e he hx => ?_
    exact entryFor?_eq_none_iff.mp hf ⟨e, he, Entry.mentions_iff.mp hx⟩
  | some found =>
    obtain ⟨hfound, hx, hfirst⟩ := entryFor?_eq_some_iff.mp hf
    obtain ⟨hlt, heq⟩ := List.getElem?_eq_some_iff.mp hfound
    refine List.find?_eq_some_iff_getElem.mpr
      ⟨Entry.mentions_iff.mpr hx, found.1, hlt, heq, fun earlier hearlier => ?_⟩
    simpa using hfirst earlier hearlier _ (List.getElem?_eq_getElem (Nat.lt_trans hearlier hlt))

theorem IsFirst.le {other : Nat} {e' : Entry} (h : t.IsFirst x position e)
    (hother : t.entries[other]? = some e') (hx : x ∈ e'.ids) : position ≤ other :=
  Nat.le_of_not_lt fun hlt => h.unmentioned other hlt e' hother hx

variable {y : String} {other : Nat} {e' : Entry}

-- each of two entries with the same ids mentions the stat that the other is first for
theorem IsFirst.position_eq_iff_ids_eq (h : t.IsFirst x position e) (h' : t.IsFirst y other e') :
    position = other ↔ e.ids = e'.ids := by
  constructor
  · rintro rfl
    rw [Option.some.inj (h.found.symm.trans h'.found)]
  · intro hids
    exact Nat.le_antisymm (h.le h'.found (hids ▸ h.mentioned)) (h'.le h.found (hids ▸ h'.mentioned))

theorem IsFirst.position_eq_iff_eq (h : t.IsFirst x position e) (h' : t.IsFirst y other e') :
    position = other ↔ e = e' := by
  constructor
  · rintro rfl
    exact Option.some.inj (h.found.symm.trans h'.found)
  · rintro rfl
    exact (h.position_eq_iff_ids_eq h').mpr rfl

end Table

end StatProse
