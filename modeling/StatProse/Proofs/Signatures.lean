import Mathlib.Data.List.Sort
import StatProse.Proofs.Numbering

/-!
# Signatures

A signature lists the positions of the indexed stats that a modifier carries, ascending and
each once. So modifiers have equal signatures exactly if they carry the same indexed stats,
and as an index grows, signatures grow at their end, by the positions of the new ids.
-/

namespace StatProse

def Modifier.Carries (m : Modifier) (x : String) : Prop := ∃ s ∈ m.stats, s.id = x

instance (m : Modifier) (x : String) : Decidable (m.Carries x) :=
  inferInstanceAs (Decidable (∃ s ∈ m.stats, s.id = x))

namespace StatIndex

def Indexed (ix : StatIndex) (x : String) : Prop := ∃ p, ix.position? x = some p

def New (ix : StatIndex) (ids : List String) (x : String) : Prop :=
  x ∈ ids ∧ ix.position? x = none

variable {ix : StatIndex} {m n : Modifier} {x y : String} {ids : List String} {p q : Nat}
  {ps : List Nat}

/-! ## Ascending lists -/

@[simp] theorem mem_insertAscending : q ∈ insertAscending p ps ↔ q = p ∨ q ∈ ps := by
  induction ps with
  | nil => simp [insertAscending]
  | cons first ps ih =>
    unfold insertAscending
    split
    · simp
    · split
      · simp [ih, or_left_comm]
      · obtain rfl : p = first := by omega
        simp

theorem pairwise_insertAscending (h : ps.Pairwise (· < ·)) :
    (insertAscending p ps).Pairwise (· < ·) := by
  induction ps with
  | nil => simp [insertAscending]
  | cons first ps ih =>
    obtain ⟨hfirst, hps⟩ := List.pairwise_cons.mp h
    unfold insertAscending
    split
    next hlt =>
      refine List.pairwise_cons.mpr ⟨fun q hq => ?_, h⟩
      rcases List.mem_cons.mp hq with rfl | hq
      · exact hlt
      · exact Nat.lt_trans hlt (hfirst q hq)
    next hle =>
      split
      next hgt =>
        refine List.pairwise_cons.mpr ⟨fun q hq => ?_, ih hps⟩
        rcases mem_insertAscending.mp hq with rfl | hq
        · exact hgt
        · exact hfirst q hq
      next => exact h

/-! ## Signatures of an index -/

theorem ascending_signature (ix : StatIndex) (m : Modifier) :
    (ix.signature m).Pairwise (· < ·) := by
  unfold signature
  induction m.stats.filterMap (fun s => ix.position? s.id) with
  | nil => exact .nil
  | cons p ps ih => exact pairwise_insertAscending ih

theorem mem_signature :
    p ∈ ix.signature m ↔ ∃ x, m.Carries x ∧ ix.position? x = some p := by
  -- inserting in ascending order neither drops nor adds positions
  have hfold (ps : List Nat) : p ∈ ps.foldr insertAscending [] ↔ p ∈ ps := by
    induction ps with
    | nil => simp
    | cons first ps ih => simp [ih]
  rw [signature, hfold, List.mem_filterMap]
  constructor
  · rintro ⟨s, hs, hp⟩
    exact ⟨s.id, ⟨s, hs, rfl⟩, hp⟩
  · rintro ⟨x, ⟨s, hs, rfl⟩, hp⟩
    exact ⟨s, hs, hp⟩

theorem mem_signature_of_position? (hx : ix.position? x = some p) :
    p ∈ ix.signature m ↔ m.Carries x := by
  rw [mem_signature]
  constructor
  · rintro ⟨y, hcarries, hy⟩
    exact position?_injective hx hy ▸ hcarries
  · exact fun hcarries => ⟨x, hcarries, hx⟩

theorem signature_eq_iff : ix.signature m = ix.signature n ↔
    ∀ x, ix.Indexed x → (m.Carries x ↔ n.Carries x) := by
  constructor
  · rintro heq x ⟨p, hp⟩
    rw [← mem_signature_of_position? hp, heq, mem_signature_of_position? hp]
  · intro h
    refine (ix.ascending_signature m).eq_of_mem_iff (ix.ascending_signature n) fun p => ?_
    rw [mem_signature, mem_signature]
    exact exists_congr fun x => and_congr_left fun hp => h x ⟨p, hp⟩

/-! ## Growing indices -/

theorem indexed_insert : (ix.insert y).Indexed x ↔ x = y ∨ ix.Indexed x := by
  unfold Indexed
  rw [exists_position?_iff, exists_position?_iff]
  cases hy : ix.position? y with
  | some p =>
    have hold := exists_position?_iff.mp ⟨p, hy⟩
    rw [insert_of_position? hy]
    exact ⟨.inr, fun h => h.elim (· ▸ hold) id⟩
  | none => simp [ids_insert_of_new hy, or_comm]

-- a run of insertions keeps what one insertion keeps
theorem position?_insertAll (h : ix.position? x = some p) (ids : List String) :
    (ix.insertAll ids).position? x = some p := by
  induction ids generalizing ix with
  | nil => exact h
  | cons y ids ih => exact ih (position?_insert h)

theorem indexed_insertAll : (ix.insertAll ids).Indexed x ↔ x ∈ ids ∨ ix.Indexed x := by
  induction ids generalizing ix with
  | nil => simp [insertAll]
  | cons y ids ih =>
    have hstep : ix.insertAll (y :: ids) = (ix.insert y).insertAll ids := rfl
    rw [hstep, ih, indexed_insert, List.mem_cons, or_left_comm, or_assoc]

theorem lt_size_of_position? (h : ix.position? x = some p) : p < ix.size :=
  exists_id?_iff.mp ⟨x, position?_eq_some_iff.mp h⟩

theorem size_le_of_new (hnew : ix.position? x = none)
    (h : (ix.insertAll ids).position? x = some p) : ix.size ≤ p := by
  by_contra hlt
  obtain ⟨y, hy⟩ := exists_id?_iff.mpr (Nat.lt_of_not_le hlt)
  have hy := position?_eq_some_iff.mpr hy
  obtain rfl := position?_injective h (position?_insertAll hy ids)
  cases hnew.symm.trans hy

/-- What a run of insertions adds to the signature of a modifier. -/
def added (ix : StatIndex) (ids : List String) (m : Modifier) : List Nat :=
  ((ix.insertAll ids).signature m).filter (ix.size ≤ ·)

theorem mem_added : p ∈ ix.added ids m ↔
    ∃ x, m.Carries x ∧ ix.New ids x ∧ (ix.insertAll ids).position? x = some p := by
  simp only [added, List.mem_filter, mem_signature, decide_eq_true_eq]
  constructor
  · rintro ⟨⟨x, hcarries, hp⟩, hle⟩
    have hnew : ix.position? x = none := by
      cases hx : ix.position? x with
      | none => rfl
      | some q =>
        obtain rfl := Option.some.inj ((position?_insertAll hx ids).symm.trans hp)
        exact absurd (lt_size_of_position? hx) (Nat.not_lt.mpr hle)
    have hmem : x ∈ ids := (indexed_insertAll.mp ⟨p, hp⟩).resolve_right fun ⟨q, hq⟩ => by
      cases hnew.symm.trans hq
    exact ⟨x, hcarries, ⟨hmem, hnew⟩, hp⟩
  · rintro ⟨x, hcarries, ⟨-, hnew⟩, hp⟩
    exact ⟨⟨x, hcarries, hp⟩, size_le_of_new hnew hp⟩

theorem added_eq_nil_iff :
    ix.added ids m = [] ↔ ∀ x, ix.New ids x → ¬m.Carries x := by
  rw [List.eq_nil_iff_forall_not_mem]
  constructor
  · intro h x hnew hcarries
    obtain ⟨p, hp⟩ := indexed_insertAll.mpr (.inl hnew.1 : x ∈ ids ∨ ix.Indexed x)
    exact h p (mem_added.mpr ⟨x, hcarries, hnew, hp⟩)
  · intro h p hp
    obtain ⟨x, hcarries, hnew, -⟩ := mem_added.mp hp
    exact h x hnew hcarries

theorem signature_insertAll (ix : StatIndex) (ids : List String) (m : Modifier) :
    (ix.insertAll ids).signature m = ix.signature m ++ ix.added ids m := by
  have hold : ∀ p ∈ ix.signature m, p < ix.size := by
    intro p hp
    obtain ⟨x, -, hx⟩ := mem_signature.mp hp
    exact lt_size_of_position? hx
  have hascending : (ix.signature m ++ ix.added ids m).Pairwise (· < ·) := by
    refine List.pairwise_append.mpr ⟨ix.ascending_signature m,
      ((ix.insertAll ids).ascending_signature m).filter _, fun p hp q hq => ?_⟩
    have hle : ix.size ≤ q := by simpa using (List.mem_filter.mp hq).2
    exact Nat.lt_of_lt_of_le (hold p hp) hle
  -- both sides ascend, so it is enough that they have the same members
  refine ((ix.insertAll ids).ascending_signature m).eq_of_mem_iff hascending fun p => ?_
  rw [List.mem_append]
  constructor
  · intro hp
    rcases Nat.lt_or_ge p ix.size with hlt | hge
    · obtain ⟨y, hy⟩ := exists_id?_iff.mpr hlt
      have hy := position?_eq_some_iff.mpr hy
      rw [mem_signature_of_position? (position?_insertAll hy ids)] at hp
      exact .inl ((mem_signature_of_position? hy).mpr hp)
    · exact .inr (List.mem_filter.mpr ⟨hp, decide_eq_true hge⟩)
  · rintro (hp | hp)
    · obtain ⟨x, hcarries, hx⟩ := mem_signature.mp hp
      exact mem_signature.mpr ⟨x, hcarries, position?_insertAll hx ids⟩
    · exact (List.mem_filter.mp hp).1

/-- A signature ascends and holds the positions of the ids that the modifier carries, so two
modifiers share a signature exactly if they carry the same ids of the index. Insertions add
the positions of the new ids that the modifier carries, behind those that were there, and
leave the signature as it is exactly if it carries none of them. -/
theorem signatures_of_index (ix : StatIndex) :
    (∀ m, (ix.signature m).Pairwise (· < ·) ∧
      ∀ p, p ∈ ix.signature m ↔ ∃ x, m.Carries x ∧ ix.position? x = some p) ∧
    (∀ m n, ix.signature m = ix.signature n ↔
      ∀ x, ix.Indexed x → (m.Carries x ↔ n.Carries x)) ∧
    ∀ ids m, ∃ new,
      (ix.insertAll ids).signature m = ix.signature m ++ new ∧
      (∀ p, p ∈ new ↔ ∃ x, m.Carries x ∧ ix.New ids x ∧
        (ix.insertAll ids).position? x = some p) ∧
      (new = [] ↔ ∀ x, ix.New ids x → ¬m.Carries x) := by
  refine ⟨fun m => ⟨ix.ascending_signature m, fun p => mem_signature⟩,
    fun m n => signature_eq_iff, fun ids m => ?_⟩
  exact ⟨ix.added ids m, ix.signature_insertAll ids m, fun p => mem_added, added_eq_nil_iff⟩

/-- Two modifiers with the same indexed stats, in other orders and with other numbers, and an
index that learns a stat of one of them. -/
theorem signatures_of_fire_and_cold :
    let ix := ofIds ["life", "fire", "cold"]
    let m : Modifier := { type := "Both", stats := [⟨"cold", 6, 11⟩, ⟨"fire", 6, 11⟩] }
    let n : Modifier :=
      { type := "Many", stats := [⟨"fire", 1, 1⟩, ⟨"mana", 3, 4⟩, ⟨"cold", 2, 2⟩, ⟨"fire", 5, 5⟩] }
    (ix.signature m).Pairwise (· < ·) ∧ ix.signature m = ix.signature n ∧
    ix.New ["fire", "mana"] "mana" ∧ m.Carries "fire" ∧ n.Carries "mana" ∧
    (ix.insertAll ["fire", "mana"]).signature m = ix.signature m ∧
    ∃ new ≠ [], (ix.insertAll ["fire", "mana"]).signature n = ix.signature n ++ new := by
  intro ix m n
  obtain ⟨hascending, hsame, hgrown⟩ := signatures_of_index ix
  have hindexed x : ix.Indexed x ↔ x ∈ ["life", "fire", "cold"] :=
    (grown_ofIds _).exists_position?_iff_mem
  have hnew x : ix.New ["fire", "mana"] x ↔ x = "mana" := by
    rw [New, position?_eq_none_iff, (grown_ofIds _).firstSeen.mem_iff]
    simp only [List.mem_cons, List.not_mem_nil, or_false]
    constructor
    · rintro ⟨rfl | rfl, hnot⟩
      · simp at hnot
      · rfl
    · rintro rfl
      decide
  have hsignature : ix.signature m = ix.signature n := by
    refine (hsame m n).mpr fun x hx => ?_
    rw [hindexed] at hx
    simp only [List.mem_cons, List.not_mem_nil, or_false] at hx
    rcases hx with rfl | rfl | rfl <;> decide +kernel
  obtain ⟨new, hm, -, hnone⟩ := hgrown ["fire", "mana"] m
  obtain ⟨new', hn, -, hnone'⟩ := hgrown ["fire", "mana"] n
  have hmana : n.Carries "mana" := by decide +kernel
  have hempty : new = [] := hnone.mpr fun x hx => by
    obtain rfl := (hnew x).mp hx
    decide +kernel
  have hsome : new' ≠ [] := fun hnil => hnone'.mp hnil "mana" ((hnew _).mpr rfl) hmana
  refine ⟨(hascending m).1, hsignature, (hnew _).mpr rfl, by decide +kernel, hmana, ?_, new',
    hsome, hn⟩
  rw [hm, hempty, List.append_nil]

end StatIndex

end StatProse
