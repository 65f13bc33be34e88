import Mathlib.Data.List.Sort
import StatProse.Proofs.Groups

/-!
# Which stats open lines

A stat seeds a line if the table knows it and no line seeded before it has an entry that
mentions it. This says which lines there are, which entries they have and in which order
they stand. Every known stat goes to one line, and stats with the same id go to the same
line.
-/

namespace StatProse

namespace Roll

theorem getElem?_align (stats : List Stat) (values : List Double) (i : Nat) :
    (align stats values)[i]? = stats[i]?.map (fun s => ⟨s, values[i]?⟩) := by
  induction stats generalizing values i with
  | nil => simp [align]
  | cons s stats ih => cases values <;> cases i <;> simp [align, ih]

end Roll

namespace Group

/-- The position of the seed among the stats; `seats` are those of all members. -/
def seat (g : Group (Roll × Nat)) : Nat := g.seed.2

def seats (g : Group (Roll × Nat)) : List Nat := g.members.map (·.2)

theorem mem_seats {g : Group (Roll × Nat)} {i : Nat} :
    i ∈ g.seats ↔ ∃ m ∈ g.members, m.2 = i := by
  simp [seats]

theorem seat_mem_seats (g : Group (Roll × Nat)) : g.seat ∈ g.seats :=
  mem_seats.mpr ⟨g.seed, g.seed_mem_members, rfl⟩

end Group

structure Seed where
  seat : Nat
  position : Nat
  entry : Entry

def Group.opening (g : Group (Roll × Nat)) : Seed := ⟨g.seat, g.position, g.entry⟩

structure Seeding (t : Table) (stats : List Stat) (seeds : List Seed) : Prop where
  ascending : seeds.Pairwise (fun a b => a.seat < b.seat)
  first : ∀ a ∈ seeds, ∃ s, stats[a.seat]? = some s ∧ t.IsFirst s.id a.position a.entry
  /-- A known stat seeds a line unless the entry of an earlier seed mentions it. -/
  opens : ∀ i s, stats[i]? = some s →
    ((∃ a ∈ seeds, a.seat = i) ↔
      t.Knows s.id ∧ ∀ a ∈ seeds, a.seat < i → s.id ∉ a.entry.ids)

namespace Seeding

variable {t : Table} {stats : List Stat} {seeds others : List Seed}

-- Whether a stat is a seed hangs on the seeds before it only, so the induction is on seats.
theorem mem_of_mem (h : Seeding t stats seeds) (h' : Seeding t stats others) (n : Nat) :
    ∀ a ∈ seeds, a.seat = n → a ∈ others := by
  induction n using Nat.strongRecOn generalizing seeds others with
  | ind n ih =>
    rintro a ha rfl
    obtain ⟨s, hs, hfirst⟩ := h.first a ha
    have hfree := ((h.opens a.seat s hs).mp ⟨a, ha, rfl⟩).2
    have hopen : ∃ b ∈ others, b.seat = a.seat := (h'.opens a.seat s hs).mpr
      ⟨hfirst.knows, fun b hb hlt => hfree b (ih b.seat hlt h' h b hb rfl) hlt⟩
    obtain ⟨b, hb, hseat⟩ := hopen
    obtain ⟨s', hs', hfirst'⟩ := h'.first b hb
    obtain rfl : s = s' := Option.some.inj (hs.symm.trans (hseat ▸ hs'))
    obtain ⟨hposition, hentry⟩ := hfirst.unique hfirst'
    obtain ⟨seat, position, entry⟩ := a
    obtain rfl : b = ⟨seat, position, entry⟩ := by
      cases b
      simp_all
    exact hb

theorem unique (h : Seeding t stats seeds) (h' : Seeding t stats others) : seeds = others := by
  have : Std.Irrefl (fun a b : Seed => a.seat < b.seat) := ⟨fun a => Nat.lt_irrefl a.seat⟩
  refine List.Pairwise.eq_of_mem_iff h.ascending h'.ascending fun a => ?_
  exact ⟨fun ha => h.mem_of_mem h' a.seat a ha rfl, fun ha => h'.mem_of_mem h a.seat a ha rfl⟩

end Seeding

/-- How the stats of a modifier are shared out among groups. -/
structure Sharing (t : Table) (stats : List Stat) (gs : List (Group (Roll × Nat))) : Prop where
  member : ∀ g ∈ gs, ∀ m ∈ g.members, stats[m.2]? = some m.1.stat ∧ m.1.id ∈ g.entry.ids
  covered : ∀ i s, stats[i]? = some s → ((∃ g ∈ gs, i ∈ g.seats) ↔ t.Knows s.id)
  once : (gs.flatMap Group.seats).Nodup
  together : ∀ g ∈ gs, ∀ i ∈ g.seats, ∀ j s s', stats[i]? = some s → stats[j]? = some s' →
    s.id = s'.id → j ∈ g.seats

namespace Table

def seatedGroups (t : Table) (stats : List Stat) (values : Option (List Double)) :
    List (Group (Roll × Nat)) :=
  t.groups (·.1.id) (Roll.align stats (values.getD [])).zipIdx

theorem lines_eq_seatedGroups (t : Table) (stats : List Stat) (values : Option (List Double)) :
    t.lines stats values =
      (t.seatedGroups stats values).map (Group.line Prod.fst values.isSome) := by
  rw [seatedGroups, ← foldl_place_nil, List.zipIdx_map_fst, lines]

variable {t : Table} {stats : List Stat} {values : Option (List Double)}
  {g later : Group (Roll × Nat)}

theorem isFirst_of_mem_lines {l : Line} (hl : l ∈ t.lines stats values) :
    ∃ x, t.IsFirst x l.position l.entry := by
  rw [lines_eq_seatedGroups] at hl
  obtain ⟨g, hg, rfl⟩ := List.mem_map.mp hl
  exact ⟨g.seed.1.id, by simpa using isFirst_seed hg⟩

theorem stat_of_mem_members (hg : g ∈ t.seatedGroups stats values) {m : Roll × Nat}
    (hm : m ∈ g.members) : stats[m.2]? = some m.1.stat := by
  have hroll := List.mem_zipIdx_iff_getElem?.mp ((members_sublist hg).subset hm)
  rw [Roll.getElem?_align, Option.map_eq_some_iff] at hroll
  obtain ⟨s, hs, heq⟩ := hroll
  rw [hs, ← heq]

theorem exists_member (hg : g ∈ t.seatedGroups stats values) {i : Nat} {s : Stat}
    (hi : i ∈ g.seats) (hs : stats[i]? = some s) : ∃ m ∈ g.members, m.1.id = s.id := by
  obtain ⟨m, hm, rfl⟩ := Group.mem_seats.mp hi
  obtain rfl : s = m.1.stat := Option.some.inj (hs.symm.trans (stat_of_mem_members hg hm))
  exact ⟨m, hm, rfl⟩

theorem mentions_of_mem_seats (hg : g ∈ t.seatedGroups stats values) {i : Nat} {s : Stat}
    (hi : i ∈ g.seats) (hs : stats[i]? = some s) : s.id ∈ g.entry.ids := by
  obtain ⟨m, hm, hid⟩ := exists_member hg hi hs
  exact hid ▸ mentions_of_mem_members hg hm

theorem knows_of_mem_seats (hg : g ∈ t.seatedGroups stats values) {i : Nat} {s : Stat}
    (hi : i ∈ g.seats) (hs : stats[i]? = some s) : t.Knows s.id :=
  ⟨g.entry, List.mem_of_getElem? (isFirst_seed hg).found, mentions_of_mem_seats hg hi hs⟩

theorem pairwise_seat (t : Table) (stats : List Stat) (values : Option (List Double)) :
    (t.seatedGroups stats values).Pairwise (fun g later => g.seat < later.seat) := by
  have hsub := (seeds_sublist t (·.1.id) (Roll.align stats (values.getD [])).zipIdx).map Prod.snd
  rw [List.zipIdx_map_snd, List.map_map] at hsub
  exact List.pairwise_map.mp ((List.pairwise_lt_range' _ Nat.one_pos).sublist hsub)

theorem seat_le (hg : g ∈ t.seatedGroups stats values) {i : Nat} (hi : i ∈ g.seats) :
    g.seat ≤ i := by
  -- seats ascend along the members, and the seed is the first of them
  have hsub := (members_sublist hg).map Prod.snd
  rw [List.zipIdx_map_snd] at hsub
  have hlt := (List.pairwise_lt_range' _ Nat.one_pos).sublist hsub
  rw [Group.members, List.map_cons, List.pairwise_cons] at hlt
  rw [Group.seats, Group.members, List.map_cons, List.mem_cons] at hi
  rcases hi with rfl | hi
  · exact Nat.le_refl _
  · exact Nat.le_of_lt (hlt.1 i hi)

theorem unmentioned_of_lt (hg : g ∈ t.seatedGroups stats values)
    (hl : later ∈ t.seatedGroups stats values) (hlt : g.seat < later.seat) {n : Nat} {s : Stat}
    (hn : n ∈ later.seats) (hs : stats[n]? = some s) : s.id ∉ g.entry.ids := by
  obtain ⟨m, hm, hid⟩ := exists_member hl hn hs
  obtain ⟨i, hi, rfl⟩ := List.getElem_of_mem hg
  obtain ⟨j, hj, rfl⟩ := List.getElem_of_mem hl
  have hseat := List.pairwise_iff_getElem.mp (pairwise_seat t stats values)
  rcases Nat.lt_trichotomy i j with hij | rfl | hji
  · exact hid ▸ List.pairwise_iff_getElem.mp (pairwise_groups t _ _) i j hi hj hij m hm
  · exact absurd hlt (Nat.lt_irrefl _)
  · exact absurd (hseat j i hj hi hji) (Nat.lt_asymm hlt)

theorem eq_of_seat_eq (hg : g ∈ t.seatedGroups stats values)
    (hl : later ∈ t.seatedGroups stats values) (heq : g.seat = later.seat) : g = later := by
  obtain ⟨i, hi, rfl⟩ := List.getElem_of_mem hg
  obtain ⟨j, hj, rfl⟩ := List.getElem_of_mem hl
  have hseat := List.pairwise_iff_getElem.mp (pairwise_seat t stats values)
  rcases Nat.lt_trichotomy i j with hij | rfl | hji
  · exact absurd heq (Nat.ne_of_lt (hseat i j hi hj hij))
  · rfl
  · exact absurd heq.symm (Nat.ne_of_lt (hseat j i hj hi hji))

theorem exists_mem_seats (values : Option (List Double)) {i : Nat} {s : Stat}
    (hs : stats[i]? = some s) (hk : t.Knows s.id) :
    ∃ g ∈ t.seatedGroups stats values, i ∈ g.seats := by
  let m : Roll × Nat := (⟨s, (values.getD [])[i]?⟩, i)
  have hm : m ∈ (Roll.align stats (values.getD [])).zipIdx := by
    rw [List.mem_zipIdx_iff_getElem?, Roll.getElem?_align, hs]
    rfl
  obtain ⟨position, e, he⟩ := hk.entryFor?
  have hknown : m ∈ (Roll.align stats (values.getD [])).zipIdx.filter
      (fun m => (t.entryFor? m.1.id).isSome) :=
    List.mem_filter.mpr ⟨hm, by simp [m, Roll.id, he]⟩
  obtain ⟨g, hg, hmem⟩ := List.mem_flatMap.mp ((members_perm t _ _).mem_iff.mpr hknown)
  exact ⟨g, hg, Group.mem_seats.mpr ⟨m, hmem, rfl⟩⟩

theorem nodup_seats (t : Table) (stats : List Stat) (values : Option (List Double)) :
    ((t.seatedGroups stats values).flatMap Group.seats).Nodup := by
  have hperm := (members_perm t (·.1.id) (Roll.align stats (values.getD [])).zipIdx).map Prod.snd
  have hsub : (((Roll.align stats (values.getD [])).zipIdx.filter
      (fun m => (t.entryFor? m.1.id).isSome)).map Prod.snd).Sublist
      ((Roll.align stats (values.getD [])).zipIdx.map Prod.snd) :=
    List.filter_sublist.map Prod.snd
  rw [List.zipIdx_map_snd] at hsub
  rw [List.map_flatMap] at hperm
  exact hperm.nodup_iff.mpr ((List.nodup_range' _ Nat.one_pos).sublist hsub)

theorem seeding_seatedGroups (t : Table) (stats : List Stat) (values : Option (List Double)) :
    Seeding t stats ((t.seatedGroups stats values).map Group.opening) where
  ascending := List.pairwise_map.mpr (pairwise_seat t stats values)
  first := by
    intro a ha
    obtain ⟨g, hg, rfl⟩ := List.mem_map.mp ha
    exact ⟨g.seed.1.stat, stat_of_mem_members hg g.seed_mem_members, isFirst_seed hg⟩
  opens := by
    intro i s hs
    simp only [List.mem_map, exists_exists_and_eq_and, forall_exists_index, and_imp,
      forall_apply_eq_imp_iff₂, Group.opening]
    constructor
    · rintro ⟨g, hg, rfl⟩
      exact ⟨knows_of_mem_seats hg g.seat_mem_seats hs, fun earlier he hlt =>
        unmentioned_of_lt he hg hlt g.seat_mem_seats hs⟩
    · rintro ⟨hk, hfree⟩
      obtain ⟨g, hg, hi⟩ := exists_mem_seats values hs hk
      -- the group that takes the stat mentions it, so it cannot have been seeded before
      rcases Nat.lt_or_eq_of_le (seat_le hg hi) with hlt | heq
      · exact absurd (mentions_of_mem_seats hg hi hs) (hfree g hg hlt)
      · exact ⟨g, hg, heq⟩

theorem sharing_seatedGroups (t : Table) (stats : List Stat) (values : Option (List Double)) :
    Sharing t stats (t.seatedGroups stats values) where
  member g hg m hm := ⟨stat_of_mem_members hg hm, mentions_of_mem_members hg hm⟩
  covered := by
    intro i s hs
    refine ⟨?_, exists_mem_seats values hs⟩
    rintro ⟨g, hg, hi⟩
    exact knows_of_mem_seats hg hi hs
  once := nodup_seats t stats values
  together := by
    intro g hg i hi j s s' hs hs' hid
    have hknown : t.Knows s'.id := hid ▸ knows_of_mem_seats hg hi hs
    obtain ⟨other, ho, hj⟩ := exists_mem_seats values hs' hknown
    -- neither group can stand before the other, since the entries of both mention the id
    rcases Nat.lt_trichotomy g.seat other.seat with hlt | heq | hlt
    · refine absurd ?_ (unmentioned_of_lt hg ho hlt hj hs')
      exact hid ▸ mentions_of_mem_seats hg hi hs
    · rwa [eq_of_seat_eq hg ho heq]
    · refine absurd ?_ (unmentioned_of_lt ho hg hlt hi hs)
      exact hid ▸ mentions_of_mem_seats ho hj hs'

theorem nodup_positions (t : Table) (stats : List Stat) (values : Option (List Double)) :
    ((t.seatedGroups stats values).map Group.position).Nodup := by
  refine List.pairwise_map.mpr ((pairwise_groups t _ _).imp_of_mem ?_)
  intro g later hg hl hunmentioned heq
  -- with one entry for both, the earlier group would mention the later seed
  have hentry : g.entry = later.entry := Option.some.inj
    ((isFirst_seed hg).found.symm.trans (heq ▸ (isFirst_seed hl).found))
  exact hunmentioned later.seed later.seed_mem_members (hentry ▸ (isFirst_seed hl).mentioned)

/-- The lines of a modifier are determined by the seeds: the stats that open a line are
those that the table knows and that no earlier line's entry mentions. Each line is made of
the stats that it takes, which are shared out without rest and without repetition, and no
two lines have the same entry. -/
theorem lines_of_seeding (t : Table) (stats : List Stat) (values : Option (List Double)) :
    (∀ seeds, Seeding t stats seeds ↔
      seeds = (t.seatedGroups stats values).map Group.opening) ∧
    (t.lines stats values =
      (t.seatedGroups stats values).map (Group.line Prod.fst values.isSome)) ∧
    ((t.lines stats values).map (fun l => (l.position, l.entry)) =
      (t.seatedGroups stats values).map (fun g => (g.opening.position, g.opening.entry))) ∧
    Sharing t stats (t.seatedGroups stats values) ∧
    ((t.lines stats values).map Line.position).Nodup := by
  have hseeding := seeding_seatedGroups t stats values
  have hlines := lines_eq_seatedGroups t stats values
  refine ⟨fun seeds => ⟨fun h => h.unique hseeding, fun h => h ▸ hseeding⟩, hlines, ?_,
    sharing_seatedGroups t stats values, ?_⟩
  · simp [hlines, Function.comp_def, Group.opening]
  · simpa [hlines, Function.comp_def] using nodup_positions t stats values

end Table

end StatProse
