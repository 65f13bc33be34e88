import Mathlib.Data.List.Basic
import StatProse.Proofs.Loading
import StatProse.Proofs.Lookup

/-!
# Tables put together

A table comes from a list of entries, from a document or from two tables, one appended to
the other. However it was put together, a lookup agrees with a scan of all its entries in
order. Appended entries come into play only for stats that the table does not know yet.
-/

namespace StatProse

namespace Table

def Lists (document : String) (es : List Entry) : Prop :=
  ∃ items, Json.readListing document = ⟨items, true⟩ ∧ items.mapM Entry.ofValue = .ok es

/-- A table that was put together out of lists of entries, with all the entries in order. -/
inductive Built : List Entry → Table → Prop
  | ofEntries (es : List Entry) : Built es (.ofEntries es)
  | read {document : String} {es : List Entry} {t : Table} :
      Lists document es → Table.read document = .ok t → Built es t
  | append {es es' : List Entry} {t u : Table} :
      Built es t → Built es' u → Built (es ++ es') (t ++ u)

variable {es es' : List Entry} {t u : Table} {document x : String} {position : Nat} {e : Entry}

@[simp] theorem entries_ofEntries (es : List Entry) : (ofEntries es).entries = es := rfl

@[simp] theorem entries_empty : empty.entries = [] := rfl

@[simp] theorem entries_append (t u : Table) : (t ++ u).entries = t.entries ++ u.entries := rfl

theorem read_of_lists (h : Lists document es) : Table.read document = .ok (.ofEntries es) := by
  obtain ⟨items, hlisting, hes⟩ := h
  apply read_of_items
  · rw [hlisting]
    exact hes
  · rw [hlisting]

theorem exists_lists (h : Table.read document = .ok t) : ∃ es, Lists document es := by
  obtain ⟨items, es, hlisting, hes⟩ := items_of_read h
  exact ⟨es, items, hlisting, hes⟩

theorem Built.entries_eq (h : Built es t) : t.entries = es := by
  induction h with
  | ofEntries es => rfl
  | read hlists hread =>
    cases (read_of_lists hlists).symm.trans hread
    rfl
  | append _ _ iht ihu => simp [iht, ihu]

theorem knows_append : (t ++ u).Knows x ↔ t.Knows x ∨ u.Knows x := by
  simp [Knows, or_and_right, exists_or]

theorem IsFirst.slotOf?_isSome (h : t.IsFirst x position e) : (e.slotOf? x).isSome := by
  simpa [Entry.slotOf?, List.isSome_idxOf?] using h.mentioned

theorem IsFirst.position_lt_size (h : t.IsFirst x position e) : position < t.size :=
  (List.getElem?_eq_some_iff.mp h.found).1

theorem IsFirst.append (h : t.IsFirst x position e) (u : Table) :
    (t ++ u).IsFirst x position e := by
  have hlt := h.position_lt_size
  refine ⟨?_, h.mentioned, ?_⟩
  · rw [entries_append, List.getElem?_append_left hlt]
    exact h.found
  · intro earlier hearlier other hother
    rw [entries_append, List.getElem?_append_left (Nat.lt_trans hearlier hlt)] at hother
    exact h.unmentioned earlier hearlier other hother

theorem IsFirst.append_of_not_knows (h : u.IsFirst x position e) (hx : ¬t.Knows x) :
    (t ++ u).IsFirst x (t.size + position) e := by
  refine ⟨?_, h.mentioned, ?_⟩
  · rw [entries_append, size, List.getElem?_append_right (Nat.le_add_right _ _),
      Nat.add_sub_cancel_left]
    exact h.found
  · intro earlier hearlier other hother
    -- an earlier entry stands in the first table, which does not know the stat, or before
    -- the first one that mentions it in the second
    rcases Nat.lt_or_ge earlier t.size with hlt | hge
    · rw [entries_append, List.getElem?_append_left hlt] at hother
      exact fun hmentioned => hx ⟨other, List.mem_of_getElem? hother, hmentioned⟩
    · rw [entries_append, List.getElem?_append_right hge] at hother
      exact h.unmentioned (earlier - t.size) (by omega) other hother

theorem entryFor?_append (t u : Table) (x : String) :
    (t ++ u).entryFor? x =
      (t.entryFor? x).or ((u.entryFor? x).map (fun found => (t.size + found.1, found.2))) := by
  cases ht : t.entryFor? x with
  | some found => exact entryFor?_eq_some_iff.mpr ((entryFor?_eq_some_iff.mp ht).append u)
  | none =>
    have hx := entryFor?_eq_none_iff.mp ht
    cases hu : u.entryFor? x with
    | some found =>
      exact entryFor?_eq_some_iff.mpr ((entryFor?_eq_some_iff.mp hu).append_of_not_knows hx)
    | none =>
      apply entryFor?_eq_none_iff.mpr
      simp [knows_append, hx, entryFor?_eq_none_iff.mp hu]

theorem append_assoc (t u v : Table) : t ++ u ++ v = t ++ (u ++ v) := by
  apply ext
  simp

theorem empty_append (t : Table) : empty ++ t = t := by
  apply ext
  simp

theorem append_empty (t : Table) : t ++ empty = t := by
  apply ext
  simp

theorem position?_lt_size (h : t.position? x = some position) : position < t.size := by
  rw [position?_eq] at h
  exact (List.findIdx?_eq_some_iff_getElem.mp h).1

/-- Lookups agree with a scan of the entries in every table, however it was put together:
they find the first entry that mentions a stat, and a slot of the stat in it. Appending keeps
what is found already and finds everything else behind the entries of the table. -/
theorem lookup_of_built :
    (∀ document t, Table.read document = .ok t → ∃ es, Lists document es ∧ Built es t) ∧
    (∀ es t, Built es t →
      t.entries = es ∧
      (∀ x position e, t.entryFor? x = some (position, e) ↔ t.IsFirst x position e) ∧
      (∀ x position e, t.entryFor? x = some (position, e) → (e.slotOf? x).isSome) ∧
      (∀ x, t.entryFor? x = none ↔ ∀ e ∈ es, x ∉ e.ids) ∧
      ∀ x position, t.position? x = some position → position < t.size) ∧
    (∀ es es' t u, Built es t → Built es' u →
      (t ++ u).entries = es ++ es' ∧
      (∀ x position e, t.entryFor? x = some (position, e) →
        (t ++ u).entryFor? x = some (position, e)) ∧
      (∀ x position e, t.entryFor? x = none → u.entryFor? x = some (position, e) →
        (t ++ u).entryFor? x = some (t.size + position, e))) ∧
    (∀ t u v : Table, t ++ u ++ v = t ++ (u ++ v)) ∧
    ∀ t : Table, empty ++ t = t ∧ t ++ empty = t := by
  refine ⟨?_, ?_, ?_, append_assoc, fun t => ⟨empty_append t, append_empty t⟩⟩
  · intro document t hread
    obtain ⟨es, hlists⟩ := exists_lists hread
    exact ⟨es, hlists, .read hlists hread⟩
  · intro es t h
    refine ⟨h.entries_eq, fun x position e => entryFor?_eq_some_iff, ?_, ?_, ?_⟩
    · intro x position e he
      exact (entryFor?_eq_some_iff.mp he).slotOf?_isSome
    · intro x
      rw [entryFor?_eq_none_iff, Knows, h.entries_eq]
      simp
    · intro x position hposition
      exact position?_lt_size hposition
  · intro es es' t u ht hu
    refine ⟨(ht.append hu).entries_eq, ?_, ?_⟩
    · intro x position e he
      simp [entryFor?_append, he]
    · intro x position e hnone he
      simp [entryFor?_append, hnone, he]

/-- The second entry shares a stat with the first, which is read from a document, and says
one of its own twice. -/
theorem lookup_of_appended_entry :
    let document := "[\x7b\"ids\":[\"fire\",\"cold\"]\x7d]"
    let both : Entry := { ids := ["fire", "cold"] }
    let more : Entry := { ids := ["cold", "life", "life"] }
    let t := ofEntries [both]
    let u := ofEntries [more]
    Table.read document = .ok t ∧ (∃ es, Lists document es ∧ Built es t) ∧
    Built [both] t ∧ Built [more] u ∧ Built [both, more] (t ++ u) ∧
    t.entryFor? "cold" = some (0, both) ∧ (t ++ u).entryFor? "cold" = some (0, both) ∧
    t.entryFor? "life" = none ∧ u.entryFor? "life" = some (0, more) ∧
    (t ++ u).entryFor? "life" = some (1, more) ∧ (more.slotOf? "life").isSome ∧
    (t ++ u).position? "life" = some 1 ∧ 1 < (t ++ u).size := by
  intro document both more t u
  have hitems : (Json.readListing document).items.mapM Entry.ofValue = .ok [both] := by
    decide +kernel
  have hread : Table.read document = .ok t := read_of_items hitems (by decide +kernel)
  have ht : Built [both] t := .ofEntries [both]
  have hu : Built [more] u := .ofEntries [more]
  have hboth : Built [both, more] (t ++ u) := ht.append hu
  obtain ⟨hdocument, hbuilt, happend, -, -⟩ := lookup_of_built
  have hcold : t.entryFor? "cold" = some (0, both) :=
    ((hbuilt _ t ht).2.1 "cold" 0 both).mpr ⟨rfl, by simp [both], by simp⟩
  have hlife : u.entryFor? "life" = some (0, more) :=
    ((hbuilt _ u hu).2.1 "life" 0 more).mpr ⟨rfl, by simp [more], by simp⟩
  have hnone : t.entryFor? "life" = none :=
    ((hbuilt _ t ht).2.2.2.1 "life").mpr (by simp [both])
  obtain ⟨-, hkept, hshifted⟩ := happend _ _ t u ht hu
  have hfound := hshifted "life" 0 more hnone hlife
  have hposition : (t ++ u).position? "life" = some 1 := by
    rw [position?_eq]
    decide
  obtain ⟨-, -, hslot, -, hrange⟩ := hbuilt _ (t ++ u) hboth
  exact ⟨hread, hdocument document t hread, ht, hu, hboth, hcold, hkept "cold" 0 both hcold,
    hnone, hlife, hfound, hslot "life" 1 more hfound, hposition, hrange "life" 1 hposition⟩

end Table

end StatProse
