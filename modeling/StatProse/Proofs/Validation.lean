import Mathlib.Data.List.Basic
import StatProse.Table

/-!
# Validated tables

Validation looks for the first entry with a fault. A table without one has only well-formed
entries: each has ids, and its rules have one condition, one format and one list of
transforms for every slot.
-/

namespace StatProse

structure Rule.Fits (r : Rule) (slots : Nat) : Prop where
  conditions : r.conditions.length = slots
  formats : r.formats.length = slots
  handlers : r.handlers.length = slots

theorem Rule.misfit?_eq_none_iff {r : Rule} {slots : Nat} :
    r.misfit? slots = none ↔ r.Fits slots := by
  simp only [misfit?, List.find?_eq_none, List.forall_mem_cons, List.not_mem_nil, bne_iff_ne,
    ne_eq, not_not, RuleList.length]
  constructor
  · rintro ⟨hconditions, hformats, hhandlers, -⟩
    exact ⟨hconditions, hformats, hhandlers⟩
  · rintro ⟨hconditions, hformats, hhandlers⟩
    exact ⟨hconditions, hformats, hhandlers, by simp⟩

/-- An entry with ids whose rules, in whatever language, fit its slots. -/
structure Entry.WellFormed (e : Entry) : Prop where
  ids : e.ids ≠ []
  fits : ∀ page ∈ e.phrases.pages, ∀ r ∈ page.2, r.Fits e.slotCount

namespace Phrasebook

theorem mem_pages_of_mem_rulesFor {b : Phrasebook} {language : String} {r : Rule}
    (hr : r ∈ b.rulesFor language) : ∃ rules, (language, rules) ∈ b.pages ∧ r ∈ rules := by
  unfold rulesFor at hr
  cases hpage : b.pages.lookup language with
  | none => simp [hpage] at hr
  | some rules =>
    obtain ⟨before, after, hpages, -⟩ := List.lookup_eq_some_iff.mp hpage
    exact ⟨rules, by simp [hpages], by simpa [hpage] using hr⟩

end Phrasebook

namespace Entry

variable {e : Entry} {language : String} {r : Rule} {rules : List Rule} {slots position : Nat}

theorem faultIn?_eq_none_iff :
    faultIn? slots language position rules = none ↔ ∀ r ∈ rules, r.Fits slots := by
  induction rules generalizing position with
  | nil => simp [faultIn?]
  | cons r rules ih =>
    cases hr : r.misfit? slots with
    | none => simp [faultIn?, hr, ih, Rule.misfit?_eq_none_iff.mp hr]
    | some list =>
      have hfits : ¬r.Fits slots := fun h => by simp [Rule.misfit?_eq_none_iff.mpr h] at hr
      simp [faultIn?, hr, hfits]

theorem fault?_eq_none_iff : e.fault? = none ↔ e.WellFormed := by
  unfold fault?
  split
  next hids => exact ⟨fun h => (nomatch h), fun h => absurd (by simpa using hids) h.ids⟩
  next hids =>
    rw [List.findSome?_eq_none_iff]
    simp only [faultIn?_eq_none_iff]
    exact ⟨fun h => ⟨by simpa using hids, h⟩, WellFormed.fits⟩

theorem WellFormed.fits_of_mem_rulesFor (h : e.WellFormed) (hr : r ∈ e.rulesFor language) :
    r.Fits e.slotCount := by
  obtain ⟨rules, hpage, hr⟩ := Phrasebook.mem_pages_of_mem_rulesFor hr
  exact h.fits _ hpage r hr

end Entry

namespace Table

variable {t : Table} {es : List Entry} {position : Nat} {i j : Invalid}

theorem firstInvalid?_eq_none_iff :
    firstInvalid? position es = none ↔ ∀ e ∈ es, e.WellFormed := by
  induction es generalizing position with
  | nil => simp [firstInvalid?]
  | cons e es ih =>
    cases he : e.fault? with
    | none => simp [firstInvalid?, he, ih, Entry.fault?_eq_none_iff.mp he]
    | some fault =>
      have hwell : ¬e.WellFormed := fun h => by simp [Entry.fault?_eq_none_iff.mpr h] at he
      simp [firstInvalid?, he, hwell]

theorem invalid?_eq_none_iff : t.invalid? = none ↔ ∀ e ∈ t.entries, e.WellFormed :=
  firstInvalid?_eq_none_iff

/-- The first entry that is not well formed, by its position, and what is wrong with it. -/
structure FirstFault (t : Table) (i : Invalid) : Prop where
  found : ∃ e, t.entries[i.position]? = some e ∧ e.fault? = some i.fault
  earlier : ∀ n < i.position, ∀ e, t.entries[n]? = some e → e.WellFormed

-- the search counts from a position, the entries from zero
theorem exists_of_firstInvalid? (h : firstInvalid? position es = some i) :
    ∃ n, i.position = position + n ∧ (∃ e, es[n]? = some e ∧ e.fault? = some i.fault) ∧
      ∀ m < n, ∀ e, es[m]? = some e → e.WellFormed := by
  induction es generalizing position with
  | nil => cases h
  | cons e es ih =>
    cases he : e.fault? with
    | some fault =>
      simp only [firstInvalid?, he, Option.some.injEq] at h
      subst h
      exact ⟨0, rfl, ⟨e, rfl, he⟩, fun m hm => absurd hm (Nat.not_lt_zero m)⟩
    | none =>
      simp only [firstInvalid?, he] at h
      obtain ⟨n, hposition, hfound, hearlier⟩ := ih h
      refine ⟨n + 1, by omega, by simpa using hfound, fun m hm e' he' => ?_⟩
      cases m with
      | zero =>
        obtain rfl : e = e' := by simpa using he'
        exact Entry.fault?_eq_none_iff.mp he
      | succ m => exact hearlier m (Nat.lt_of_succ_lt_succ hm) e' (by simpa using he')

theorem firstFault_of_invalid? (h : t.invalid? = some i) : t.FirstFault i := by
  obtain ⟨n, hposition, hfound, hearlier⟩ := exists_of_firstInvalid? h
  obtain rfl : i.position = n := by simpa using hposition
  exact ⟨hfound, hearlier⟩

namespace FirstFault

theorem not_wellFormed (h : t.FirstFault i) : ¬∀ e ∈ t.entries, e.WellFormed := by
  obtain ⟨⟨e, he, hfault⟩, -⟩ := h
  intro hall
  rw [Entry.fault?_eq_none_iff.mpr (hall e (List.mem_of_getElem? he))] at hfault
  cases hfault

theorem position_le (h : t.FirstFault i) (h' : t.FirstFault j) : i.position ≤ j.position := by
  obtain ⟨⟨e, he, hfault⟩, -⟩ := h'
  refine Nat.le_of_not_lt fun hlt => ?_
  rw [Entry.fault?_eq_none_iff.mpr (h.earlier j.position hlt e he)] at hfault
  cases hfault

theorem unique (h : t.FirstFault i) (h' : t.FirstFault j) : i = j := by
  have hposition : i.position = j.position := Nat.le_antisymm (h.position_le h') (h'.position_le h)
  obtain ⟨position, fault⟩ := i
  obtain ⟨position', fault'⟩ := j
  obtain rfl : position = position' := hposition
  obtain ⟨⟨e, he, hfault⟩, -⟩ := h
  obtain ⟨⟨e', he', hfault'⟩, -⟩ := h'
  obtain rfl := Option.some.inj (he.symm.trans he')
  obtain rfl := Option.some.inj (hfault.symm.trans hfault')
  rfl

end FirstFault

theorem invalid?_eq_some_iff : t.invalid? = some i ↔ t.FirstFault i := by
  constructor
  · exact firstFault_of_invalid?
  · intro h
    cases hinvalid : t.invalid? with
    | none => exact absurd (invalid?_eq_none_iff.mp hinvalid) h.not_wellFormed
    | some j => rw [h.unique (firstFault_of_invalid? hinvalid)]

end Table

end StatProse
