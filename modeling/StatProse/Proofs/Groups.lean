import Mathlib.Data.List.Basic
import StatProse.Proofs.Filling

/-!
# Groups of stats

The first stat that the table knows seeds a group with its first entry. The group takes
every later stat that the entry mentions, and the stats that are left are grouped in the
same way. `foldl_place_nil` says that placing stats one after another makes the lines of
these groups.

Items stand for stats here, so that they can carry more than a stat has, such as its
position among the stats of its modifier.
-/

namespace StatProse

/-- An entry with the items that it takes. The seed is the first of them. -/
structure Group (α : Type) where
  position : Nat
  entry : Entry
  seed : α
  joined : List α

namespace Group

variable {α : Type}

def members (g : Group α) : List α := g.seed :: g.joined

def line (roll : α → Roll) (live : Bool) (g : Group α) : Line :=
  (g.members.map roll).foldl Line.fill (Line.blank g.position g.entry live)

@[simp] theorem line_position (roll : α → Roll) (live : Bool) (g : Group α) :
    (g.line roll live).position = g.position := by
  simp [line, Line.blank]

@[simp] theorem line_entry (roll : α → Roll) (live : Bool) (g : Group α) :
    (g.line roll live).entry = g.entry := by
  simp [line, Line.blank]

theorem mem_members {g : Group α} {a : α} : a ∈ g.members ↔ a = g.seed ∨ a ∈ g.joined := by
  simp [members]

theorem seed_mem_members (g : Group α) : g.seed ∈ g.members := mem_members.mpr (.inl rfl)

end Group

namespace Entry

variable {α : Type}

def taken (e : Entry) (stat : α → String) (xs : List α) : List α :=
  xs.filter (fun a => e.mentions (stat a))

def untaken (e : Entry) (stat : α → String) (xs : List α) : List α :=
  xs.filter (fun a => !e.mentions (stat a))

variable {e : Entry} {stat : α → String} {xs : List α}

theorem mem_taken {a : α} : a ∈ e.taken stat xs ↔ a ∈ xs ∧ stat a ∈ e.ids := by
  simp [taken]

theorem mem_untaken {a : α} : a ∈ e.untaken stat xs ↔ a ∈ xs ∧ stat a ∉ e.ids := by
  simp [untaken]

theorem taken_sublist : (e.taken stat xs).Sublist xs := List.filter_sublist

theorem untaken_sublist : (e.untaken stat xs).Sublist xs := List.filter_sublist

theorem filter_taken {x : String} (hx : x ∈ e.ids) :
    (e.taken stat xs).filter (fun a => stat a == x) = xs.filter (fun a => stat a == x) := by
  rw [taken, List.filter_filter]
  refine List.filter_congr fun a _ => ?_
  by_cases ha : stat a = x
  · simp [ha, hx]
  · simp [ha]

theorem filter_untaken {x : String} (hx : x ∉ e.ids) :
    (e.untaken stat xs).filter (fun a => stat a == x) = xs.filter (fun a => stat a == x) := by
  rw [untaken, List.filter_filter]
  refine List.filter_congr fun a _ => ?_
  by_cases ha : stat a = x
  · simp [ha, hx]
  · simp [ha]

end Entry

namespace Table

variable {α : Type} {t : Table} {stat : α → String} {xs : List α} {g : Group α}

def groups (t : Table) (stat : α → String) : List α → List (Group α)
  | [] => []
  | a :: xs =>
    match t.entryFor? (stat a) with
    | none => groups t stat xs
    | some (position, e) =>
      ⟨position, e, a, e.taken stat xs⟩ :: groups t stat (e.untaken stat xs)
termination_by xs => xs.length
decreasing_by
  · simp
  · exact Nat.lt_succ_of_le Entry.untaken_sublist.length_le

-- what the first line does not take goes to the lines after it
theorem foldl_place_cons (t : Table) (live : Bool) (l : Line) (lines : List Line)
    (rolls : List Roll) :
    rolls.foldl (t.place live) (l :: lines) =
      (rolls.filter (fun r => l.entry.mentions r.id)).foldl Line.fill l ::
        (rolls.filter (fun r => !l.entry.mentions r.id)).foldl (t.place live) lines := by
  induction rolls generalizing l lines with
  | nil => rfl
  | cons r rolls ih =>
    by_cases h : r.id ∈ l.entry.ids
    · simp [place, h, ih]
    · simp [place, h, ih]

/-- Placing stats one after another makes the lines of their groups. -/
theorem foldl_place_nil (t : Table) (roll : α → Roll) (live : Bool) (xs : List α) :
    (xs.map roll).foldl (t.place live) [] =
      (t.groups (fun a => (roll a).id) xs).map (Group.line roll live) := by
  fun_induction groups t (fun a => (roll a).id) xs with
  | case1 => rfl
  | case2 a xs hf ih => simpa [place, hf] using ih
  | case3 a xs position e hf ih =>
    have hfirst : t.place live [] (roll a) = [(Line.blank position e live).fill (roll a)] := by
      simp [place, hf]
    have hentry : ((Line.blank position e live).fill (roll a)).entry = e := by
      simp [Line.blank]
    -- the opened line takes all its stats at once, the others are placed without it
    rw [List.map_cons, List.foldl_cons, hfirst, foldl_place_cons, hentry, List.map_cons, ← ih]
    simp only [List.filter_map, Function.comp_def, Entry.taken, Entry.untaken]
    rfl

theorem isFirst_seed (h : g ∈ t.groups stat xs) :
    t.IsFirst (stat g.seed) g.position g.entry := by
  fun_induction groups t stat xs with
  | case1 => simp at h
  | case2 a xs hf ih => exact ih h
  | case3 a xs position e hf ih =>
    rcases List.mem_cons.mp h with rfl | h
    · exact entryFor?_eq_some_iff.mp hf
    · exact ih h

theorem mentions_of_mem_members (h : g ∈ t.groups stat xs) {a : α} (ha : a ∈ g.members) :
    stat a ∈ g.entry.ids := by
  fun_induction groups t stat xs with
  | case1 => simp at h
  | case2 a xs hf ih => exact ih h
  | case3 b xs position e hf ih =>
    rcases List.mem_cons.mp h with rfl | h
    · rcases Group.mem_members.mp ha with rfl | ha
      · exact (entryFor?_eq_some_iff.mp hf).mentioned
      · exact (Entry.mem_taken.mp ha).2
    · exact ih h

theorem members_sublist (h : g ∈ t.groups stat xs) : g.members.Sublist xs := by
  fun_induction groups t stat xs with
  | case1 => simp at h
  | case2 a xs hf ih => exact (ih h).trans (List.sublist_cons_self a xs)
  | case3 a xs position e hf ih =>
    rcases List.mem_cons.mp h with rfl | h
    · exact Entry.taken_sublist.cons_cons a
    · exact ((ih h).trans Entry.untaken_sublist).trans (List.sublist_cons_self a xs)

theorem seeds_sublist (t : Table) (stat : α → String) (xs : List α) :
    ((t.groups stat xs).map Group.seed).Sublist xs := by
  fun_induction groups t stat xs with
  | case1 => exact .refl []
  | case2 a xs hf ih => exact ih.trans (List.sublist_cons_self a xs)
  | case3 a xs position e hf ih => exact (ih.trans Entry.untaken_sublist).cons_cons a

theorem pairwise_groups (t : Table) (stat : α → String) (xs : List α) :
    (t.groups stat xs).Pairwise (fun g later => ∀ a ∈ later.members, stat a ∉ g.entry.ids) := by
  fun_induction groups t stat xs with
  | case1 => exact .nil
  | case2 a xs hf ih => exact ih
  | case3 a xs position e hf ih =>
    refine List.pairwise_cons.mpr ⟨fun later hlater b hb => ?_, ih⟩
    exact (Entry.mem_untaken.mp ((members_sublist hlater).subset hb)).2

theorem filter_members {x : String} {k : Nat} (hk : (t.groups stat xs)[k]? = some g)
    (hx : x ∈ g.entry.ids)
    (hfree : ∀ j < k, ∀ earlier, (t.groups stat xs)[j]? = some earlier → x ∉ earlier.entry.ids) :
    g.members.filter (fun a => stat a == x) = xs.filter (fun a => stat a == x) := by
  have hknown : t.Knows x :=
    ⟨g.entry, List.mem_of_getElem? (isFirst_seed (List.mem_of_getElem? hk)).found, hx⟩
  fun_induction groups t stat xs generalizing k with
  | case1 => simp at hk
  | case2 a xs hf ih =>
    have ha : stat a ≠ x := by
      rintro rfl
      exact entryFor?_eq_none_iff.mp hf hknown
    rw [ih hk hfree, List.filter_cons_of_neg (by simpa using ha)]
  | case3 a xs position e hf ih =>
    cases k with
    | zero =>
      obtain rfl : _ = g := Option.some.inj hk
      simp only [Group.members, List.filter_cons, Entry.filter_taken hx]
    | succ k =>
      -- the first group is one of those that do not mention the stat
      have hmiss : x ∉ e.ids := hfree 0 (Nat.succ_pos k) _ rfl
      have ha : stat a ≠ x := by
        rintro rfl
        exact hmiss (entryFor?_eq_some_iff.mp hf).mentioned
      rw [ih hk (fun j hj => hfree (j + 1) (Nat.succ_lt_succ hj)),
        List.filter_cons_of_neg (by simpa using ha), Entry.filter_untaken hmiss]

theorem members_perm (t : Table) (stat : α → String) (xs : List α) :
    ((t.groups stat xs).flatMap Group.members).Perm
      (xs.filter (fun a => (t.entryFor? (stat a)).isSome)) := by
  fun_induction groups t stat xs with
  | case1 => exact .refl []
  | case2 a xs hf ih => simpa [hf] using ih
  | case3 a xs position e hf ih =>
    have hknown : ∀ b, e.mentions (stat b) = true → (t.entryFor? (stat b)).isSome = true := by
      intro b hb
      have he := List.mem_of_getElem? (entryFor?_eq_some_iff.mp hf).found
      obtain ⟨_, _, hb⟩ := Knows.entryFor? ⟨e, he, by simpa using hb⟩
      simp [hb]
    -- the known items fall into those that the first group takes and the rest
    have hsplit := List.filter_append_perm (fun b => e.mentions (stat b))
      (xs.filter (fun b => (t.entryFor? (stat b)).isSome))
    have htaken : xs.filter (fun b => e.mentions (stat b) && (t.entryFor? (stat b)).isSome) =
        e.taken stat xs :=
      List.filter_congr fun b _ => by
        cases hb : e.mentions (stat b) <;> simp [hknown b, hb]
    rw [List.filter_filter, List.filter_filter, htaken] at hsplit
    rw [List.flatMap_cons, Group.members, List.filter_cons_of_pos (by simp [hf]), List.cons_append]
    refine .cons a (.trans (.append_left _ ih) ?_)
    simpa [Entry.untaken, List.filter_filter, Bool.and_comm] using hsplit

end Table

end StatProse
