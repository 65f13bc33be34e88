import StatProse.Proofs.Assembly
import StatProse.Proofs.Numbering

/-!
# Numbers in the order of the table

The index of a table numbers the stats that the table knows, in the order of the entries that
a lookup finds and, within an entry, in the order of their slots. Ids that come again, in the
same entry or in a later one, do not count.
-/

namespace StatProse

namespace StatIndex

variable {ix : StatIndex} {run : List String} {x y : String} {p q : Nat}

theorem Grown.idxOf_lt_of_lt (h : Grown run ix) (hx : ix.position? x = some p)
    (hy : ix.position? y = some q) (hlt : p < q) : run.idxOf x < run.idxOf y := by
  rw [position?_eq_some_iff, id?, ← Array.getElem?_toList] at hx hy
  obtain ⟨hp, rfl⟩ := List.getElem?_eq_some_iff.mp hx
  obtain ⟨hq, rfl⟩ := List.getElem?_eq_some_iff.mp hy
  exact List.pairwise_iff_getElem.mp h.firstSeen.ascending p q hp hq hlt

theorem Grown.position?_lt_iff (h : Grown run ix) (hx : ix.position? x = some p)
    (hy : ix.position? y = some q) : p < q ↔ run.idxOf x < run.idxOf y := by
  refine ⟨h.idxOf_lt_of_lt hx hy, fun hlt => ?_⟩
  rcases Nat.lt_trichotomy p q with hpq | rfl | hqp
  · exact hpq
  · obtain rfl := position?_injective hx hy
    exact absurd hlt (Nat.lt_irrefl _)
  · exact absurd hlt (Nat.lt_asymm (h.idxOf_lt_of_lt hy hx hqp))

end StatIndex

theorem Entry.idxOf_eq_of_slotOf? {e : Entry} {x : String} {slot : Nat}
    (h : e.slotOf? x = some slot) : e.ids.idxOf x = slot := by
  rw [List.idxOf_eq_getD_idxOf?, show e.ids.idxOf? x = some slot from h, Option.getD_some]

theorem Entry.lt_slotCount_of_slotOf? {e : Entry} {x : String} {slot : Nat}
    (h : e.slotOf? x = some slot) : slot < e.slotCount :=
  (List.getElem?_eq_some_iff.mp (slotOf?_eq_some_iff.mp h).1).1

namespace Table

def allIds (t : Table) : List String := t.entries.flatMap (·.ids)

def offset (t : Table) (position : Nat) : Nat :=
  ((t.entries.take position).flatMap (·.ids)).length

variable {t : Table} {x y : String} {e e' : Entry} {position position' slot slot' : Nat}

theorem mem_allIds : x ∈ t.allIds ↔ t.Knows x := by
  simp [allIds, Knows, List.mem_flatMap]

theorem offset_succ (h : t.entries[position]? = some e) :
    t.offset (position + 1) = t.offset position + e.slotCount := by
  rw [offset, offset, List.take_add_one, h]
  simp [Entry.slotCount]

theorem offset_mono (h : position ≤ position') : t.offset position ≤ t.offset position' := by
  obtain ⟨between, hbetween⟩ := List.take_prefix_take_left (l := t.entries) h
  rw [offset, offset, ← hbetween, List.flatMap_append, List.length_append]
  exact Nat.le_add_right _ _

namespace IsFirst

theorem notMem_take (h : t.IsFirst x position e) :
    x ∉ (t.entries.take position).flatMap (·.ids) := by
  intro hmem
  obtain ⟨other, hother, hx⟩ := List.mem_flatMap.mp hmem
  obtain ⟨n, hn⟩ := List.mem_iff_getElem?.mp hother
  obtain ⟨hlt, hget⟩ : n < position ∧ t.entries[n]? = some other := by
    simpa [List.getElem?_take] using hn
  exact h.unmentioned n hlt other hget hx

theorem idxOf_allIds (h : t.IsFirst x position e) (hslot : e.slotOf? x = some slot) :
    t.allIds.idxOf x = t.offset position + slot := by
  rw [allIds, ← take_append_cons_drop h.found, List.flatMap_append, List.flatMap_cons,
    List.idxOf_append_of_notMem h.notMem_take, List.idxOf_append_of_mem h.mentioned,
    Entry.idxOf_eq_of_slotOf? hslot]
  rfl

theorem idxOf_lt_of_position_lt (h : t.IsFirst x position e) (h' : t.IsFirst y position' e')
    (hslot : e.slotOf? x = some slot) (hslot' : e'.slotOf? y = some slot')
    (hlt : position < position') : t.allIds.idxOf x < t.allIds.idxOf y := by
  rw [h.idxOf_allIds hslot, h'.idxOf_allIds hslot']
  have hroom := Entry.lt_slotCount_of_slotOf? hslot
  have hnext : t.offset position + e.slotCount ≤ t.offset position' :=
    offset_succ h.found ▸ offset_mono hlt
  omega

theorem idxOf_lt_iff (h : t.IsFirst x position e) (h' : t.IsFirst y position' e')
    (hslot : e.slotOf? x = some slot) (hslot' : e'.slotOf? y = some slot') :
    t.allIds.idxOf x < t.allIds.idxOf y ↔
      Prod.Lex (· < ·) (· < ·) (position, slot) (position', slot') := by
  rw [Prod.lex_def]
  rcases Nat.lt_trichotomy position position' with hlt | rfl | hgt
  · exact iff_of_true (idxOf_lt_of_position_lt h h' hslot hslot' hlt) (.inl hlt)
  · rw [h.idxOf_allIds hslot, h'.idxOf_allIds hslot']
    simp
  · have hback := idxOf_lt_of_position_lt h' h hslot' hslot hgt
    simp only
    omega

end IsFirst

end Table

namespace StatIndex

/-- The index of a table has a position for the stats that the table finds, and only for
these. One position is below another exactly if the stat stands before the other one in the
table: in an earlier entry, or in the same entry in an earlier slot. -/
theorem order_of_table (t : Table) :
    (∀ x, (∃ p, (ofTable t).position? x = some p) ↔ ∃ found, t.entryFor? x = some found) ∧
    ∀ x y position position' e e', t.entryFor? x = some (position, e) →
      t.entryFor? y = some (position', e') →
      ∃ p q slot slot', (ofTable t).position? x = some p ∧ (ofTable t).position? y = some q ∧
        e.slotOf? x = some slot ∧ e'.slotOf? y = some slot' ∧
        (p < q ↔ Prod.Lex (· < ·) (· < ·) (position, slot) (position', slot')) := by
  have hgrown : Grown t.allIds (ofTable t) := grown_ofIds _
  have hknows x : (∃ p, (ofTable t).position? x = some p) ↔ t.Knows x :=
    hgrown.exists_position?_iff_mem.trans Table.mem_allIds
  constructor
  · intro x
    rw [hknows, ← Option.ne_none_iff_exists', Ne, Table.entryFor?_eq_none_iff, not_not]
  · intro x y position position' e e' hx hy
    have hx := Table.entryFor?_eq_some_iff.mp hx
    have hy := Table.entryFor?_eq_some_iff.mp hy
    obtain ⟨p, hp⟩ := (hknows x).mpr hx.knows
    obtain ⟨q, hq⟩ := (hknows y).mpr hy.knows
    obtain ⟨slot, hslot⟩ := Option.isSome_iff_exists.mp hx.slotOf?_isSome
    obtain ⟨slot', hslot'⟩ := Option.isSome_iff_exists.mp hy.slotOf?_isSome
    refine ⟨p, q, slot, slot', hp, hq, hslot, hslot', ?_⟩
    rw [hgrown.position?_lt_iff hp hq, hx.idxOf_lt_iff hy hslot hslot']

/-- The first entry says a stat twice, and the second one begins with a stat of the first. -/
theorem order_of_repeated_ids :
    let both : Entry := { ids := ["fire", "cold", "fire"] }
    let more : Entry := { ids := ["cold", "life", "fire"] }
    let t := Table.ofEntries [both, more]
    t.entryFor? "cold" = some (0, both) ∧ t.entryFor? "life" = some (1, more) ∧
    (∃ p, (ofTable t).position? "cold" = some p) ∧
    ∃ p q slot slot', (ofTable t).position? "cold" = some p ∧
      (ofTable t).position? "life" = some q ∧ both.slotOf? "cold" = some slot ∧
      more.slotOf? "life" = some slot' ∧ slot = 1 ∧ slot' = 1 ∧ p < q := by
  intro both more t
  have hcold : t.entryFor? "cold" = some (0, both) := by
    rw [Table.entryFor?_eq]
    rfl
  have hlife : t.entryFor? "life" = some (1, more) := by
    rw [Table.entryFor?_eq]
    rfl
  obtain ⟨hknown, horder⟩ := order_of_table t
  obtain ⟨p, q, slot, slot', hp, hq, hslot, hslot', hlt⟩ := horder _ _ _ _ _ _ hcold hlife
  refine ⟨hcold, hlife, (hknown "cold").mpr ⟨_, hcold⟩, p, q, slot, slot', hp, hq, hslot, hslot',
    ?_, ?_, hlt.mpr (.left _ _ (by decide))⟩
  · exact Option.some.inj (hslot.symm.trans (by decide))
  · exact Option.some.inj (hslot'.symm.trans (by decide))

end StatIndex

end StatProse
