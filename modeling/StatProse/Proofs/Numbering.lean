import Mathlib.Data.List.Nodup
import StatProse.StatIndex

/-!
# Stable numbers

An index that grows by insertions holds the ids of the whole run, each once, in the order in
which they were first seen. Ids and positions stand for each other, and an id that has a
position keeps it.
-/

namespace StatProse

/-- The items of a run, each once, in the order of their first occurrences. -/
structure FirstSeen (run items : List String) : Prop where
  mem_iff : ∀ x, x ∈ items ↔ x ∈ run
  ascending : items.Pairwise (fun a b => run.idxOf a < run.idxOf b)

namespace FirstSeen

variable {run items : List String} {x : String}

theorem nil : FirstSeen [] [] := ⟨fun _ => .rfl, .nil⟩

theorem nodup (h : FirstSeen run items) : items.Nodup := by
  refine h.ascending.imp ?_
  rintro a b hlt rfl
  exact Nat.lt_irrefl _ hlt

theorem unique {items' : List String} (h : FirstSeen run items) (h' : FirstSeen run items') :
    items = items' := by
  have hperm : items.Perm items' :=
    (List.perm_ext_iff_of_nodup h.nodup h'.nodup).mpr fun x =>
      (h.mem_iff x).trans (h'.mem_iff x).symm
  exact hperm.eq_of_pairwise (fun a b _ _ hlt hgt => absurd hgt (Nat.lt_asymm hlt)) h.ascending
    h'.ascending

theorem ascending_append (h : FirstSeen run items) (x : String) :
    items.Pairwise (fun a b => (run ++ [x]).idxOf a < (run ++ [x]).idxOf b) := by
  refine h.ascending.imp_of_mem fun {a b} ha hb hlt => ?_
  have ha := (h.mem_iff a).mp ha
  have hb := (h.mem_iff b).mp hb
  simpa [List.idxOf_append_of_mem ha, List.idxOf_append_of_mem hb] using hlt

theorem append_old (h : FirstSeen run items) (hx : x ∈ items) : FirstSeen (run ++ [x]) items where
  mem_iff y := by
    have hold := (h.mem_iff x).mp hx
    rw [h.mem_iff, List.mem_append, List.mem_singleton]
    constructor
    · exact .inl
    · rintro (hy | rfl)
      · exact hy
      · exact hold
  ascending := h.ascending_append x

theorem append_new (h : FirstSeen run items) (hx : x ∉ items) :
    FirstSeen (run ++ [x]) (items ++ [x]) where
  mem_iff y := by simp [h.mem_iff]
  ascending := by
    refine List.pairwise_append.mpr ⟨h.ascending_append x, List.pairwise_singleton _ _, ?_⟩
    intro a ha b hb
    obtain rfl := List.mem_singleton.mp hb
    have ha := (h.mem_iff a).mp ha
    have hb := (h.mem_iff b).not.mp hx
    -- the new id first occurs at the end of the run, where no other id first occurs
    simpa [List.idxOf_append_of_mem ha, List.idxOf_append_of_notMem hb] using
      List.idxOf_lt_length_iff.mpr ha

end FirstSeen

namespace StatIndex

variable {ix : StatIndex} {x y : String} {p q : Nat} {run : List String}

/-! ## One insertion -/

theorem position?_eq_some_iff : ix.position? x = some p ↔ ix.id? p = some x := ix.inverse x p

theorem position?_injective (hx : ix.position? x = some p) (hy : ix.position? y = some p) :
    x = y := by
  rw [position?_eq_some_iff] at hx hy
  exact Option.some.inj (hx.symm.trans hy)

theorem exists_position?_iff : (∃ p, ix.position? x = some p) ↔ x ∈ ix.ids.toList := by
  simp only [position?_eq_some_iff, id?, Array.mem_toList_iff, Array.mem_iff_getElem?]

theorem position?_eq_none_iff : ix.position? x = none ↔ x ∉ ix.ids.toList := by
  rw [← exists_position?_iff]
  cases ix.position? x <;> simp

theorem exists_id?_iff : (∃ x, ix.id? p = some x) ↔ p < ix.size := by
  simp [id?, size, Array.getElem?_eq_some_iff]

theorem insert_of_position? (h : ix.position? x = some p) : ix.insert x = ix := by
  unfold insert
  split
  next => rfl
  next hnone => cases hnone.symm.trans h

theorem ids_insert_of_new (h : ix.position? x = none) : (ix.insert x).ids = ix.ids.push x := by
  unfold insert
  split
  next hsome => cases hsome.symm.trans h
  next => rfl

theorem id?_insert (h : ix.id? p = some y) : (ix.insert x).id? p = some y := by
  cases hx : ix.position? x with
  | some q => rwa [insert_of_position? hx]
  | none =>
    have hlt : p < ix.ids.size := exists_id?_iff.mp ⟨y, h⟩
    simpa [id?, ids_insert_of_new hx, Array.getElem?_push, Nat.ne_of_lt hlt] using h

theorem position?_insert (h : ix.position? y = some p) : (ix.insert x).position? y = some p :=
  position?_eq_some_iff.mpr (id?_insert (position?_eq_some_iff.mp h))

theorem position?_insert_self (ix : StatIndex) (x : String) :
    (ix.insert x).position? x = some (ix.insertPosition x) := by
  cases hx : ix.position? x with
  | some p => simp [insert_of_position? hx, insertPosition, hx]
  | none =>
    apply position?_eq_some_iff.mpr
    simp [id?, ids_insert_of_new hx, insertPosition, hx, size]

/-! ## Runs of insertions -/

/-- An index that came out of the empty one by inserting the ids of a run in order. -/
inductive Grown : List String → StatIndex → Prop
  | empty : Grown [] .empty
  | insert {run : List String} {ix : StatIndex} (x : String) :
      Grown run ix → Grown (run ++ [x]) (ix.insert x)

theorem Grown.insertAll (h : Grown run ix) (ids : List String) :
    Grown (run ++ ids) (ix.insertAll ids) := by
  induction ids generalizing run ix with
  | nil => simpa [StatIndex.insertAll] using h
  | cons x ids ih => simpa [StatIndex.insertAll] using ih (h.insert x)

theorem grown_ofIds (ids : List String) : Grown ids (ofIds ids) := Grown.empty.insertAll ids

-- the invariant of a run: every insertion is the case of an old id or of a new one
theorem Grown.firstSeen (h : Grown run ix) : FirstSeen run ix.ids.toList := by
  induction h with
  | empty => exact .nil
  | @insert run ix x _ ih =>
    cases hx : ix.position? x with
    | some p =>
      rw [insert_of_position? hx]
      exact ih.append_old (exists_position?_iff.mp ⟨p, hx⟩)
    | none =>
      rw [ids_insert_of_new hx, Array.toList_push]
      exact ih.append_new (position?_eq_none_iff.mp hx)

theorem Grown.exists_position?_iff_mem (h : Grown run ix) :
    (∃ p, ix.position? x = some p) ↔ x ∈ run :=
  exists_position?_iff.trans (h.firstSeen.mem_iff x)

theorem Grown.size_insert (h : Grown run ix) (x : String) :
    (ix.insert x).size = if x ∈ run then ix.size else ix.size + 1 := by
  by_cases hx : x ∈ run
  · obtain ⟨p, hp⟩ := h.exists_position?_iff_mem.mpr hx
    simp [insert_of_position? hp, hx]
  · have hnew := position?_eq_none_iff.mpr ((h.firstSeen.mem_iff x).not.mpr hx)
    simp [size, ids_insert_of_new hnew, hx]

/-- Whatever was inserted and in whatever order, ids and positions of an index stand for each
other, the positions are the numbers below the size, and the ids are those of the whole run in
the order in which they were first seen. Another insertion gives the position of the id, grows
the index by a new id only, and moves no id. -/
theorem numbering_of_grown :
    (∀ ids, Grown ids (ofIds ids)) ∧
    (∀ t : Table, Grown (t.entries.flatMap (·.ids)) (ofTable t)) ∧
    (∀ ms : List Modifier, Grown (ms.flatMap (·.stats.map (·.id))) (ofModifiers ms)) ∧
    ∀ run ix, Grown run ix →
      ix.ids.toList.Nodup ∧ FirstSeen run ix.ids.toList ∧
      (∀ x p, ix.position? x = some p ↔ ix.id? p = some x) ∧
      (∀ p, (∃ x, ix.position? x = some p) ↔ p < ix.size) ∧
      (∀ x, (∃ p, ix.position? x = some p) ↔ x ∈ run) ∧
      ∀ x, (ix.insert x).position? x = some (ix.insertPosition x) ∧
        (ix.insert x).size = (if x ∈ run then ix.size else ix.size + 1) ∧
        ∀ y p, ix.position? y = some p → (ix.insert x).position? y = some p := by
  refine ⟨grown_ofIds, fun t => grown_ofIds _, fun ms => grown_ofIds _, ?_⟩
  intro run ix h
  refine ⟨h.firstSeen.nodup, h.firstSeen, fun x p => position?_eq_some_iff, ?_,
    fun x => h.exists_position?_iff_mem, ?_⟩
  · intro p
    simp only [position?_eq_some_iff, exists_id?_iff]
  · intro x
    exact ⟨position?_insert_self ix x, h.size_insert x, fun y p => position?_insert⟩

/-- An id that comes again, and one more after the index was made. -/
theorem numbering_of_repeated_id :
    let run := ["life", "mana", "life", "fire"]
    let ix := ofIds run
    let more := ix.insert "cold"
    Grown run ix ∧ Grown (run ++ ["cold"]) more ∧
    ix.ids.toList = ["life", "mana", "fire"] ∧ ix.ids.toList.Nodup ∧
    ix.id? 2 = some "fire" ∧ ix.position? "fire" = some 2 ∧ more.position? "fire" = some 2 ∧
    more.position? "cold" = some (ix.insertPosition "cold") ∧ more.size = ix.size + 1 ∧
    (more.insert "mana").size = more.size := by
  intro run ix more
  obtain ⟨hofIds, -, -, hgrown⟩ := numbering_of_grown
  have h : Grown run ix := hofIds run
  have hmore : Grown (run ++ ["cold"]) more := h.insert "cold"
  obtain ⟨hnodup, hseen, hinverse, -, -, hinsert⟩ := hgrown run ix h
  obtain ⟨-, -, -, -, -, hinsertMore⟩ := hgrown (run ++ ["cold"]) more hmore
  obtain ⟨hcold, hsize, hkept⟩ := hinsert "cold"
  have hfirst : FirstSeen run ["life", "mana", "fire"] := by
    refine ⟨fun x => ?_, by decide⟩
    simp only [run, List.mem_cons, List.not_mem_nil, or_false]
    tauto
  have hids := hseen.unique hfirst
  have hid : ix.id? 2 = some "fire" := by
    rw [id?, ← Array.getElem?_toList, hids]
    rfl
  have hfire := (hinverse "fire" 2).mpr hid
  exact ⟨h, hmore, hids, hnodup, hid, hfire, hkept "fire" 2 hfire, hcold, hsize,
    (hinsertMore "mana").2.1⟩

end StatIndex

end StatProse
