import StatProse.Proofs.Seeding

/-!
# What the slots of lines hold

The first slot that holds a stat's id, in the first line whose entry mentions the stat,
has the bounds of the last stat with that id. Its live value is that of the last such
stat that has one. All other slots hold zero.
-/

namespace StatProse

theorem getLast?_filter_eq_some_iff {α : Type} {p : α → Bool} {xs : List α} {a : α} :
    (xs.filter p).getLast? = some a ↔
      ∃ j : Nat, xs[j]? = some a ∧ p a = true ∧ ∀ i > j, ∀ b, xs[i]? = some b → p b = false := by
  rw [List.getLast?_filter, List.find?_eq_some_iff_append]
  -- the list is split at the item, with what comes after it in reverse
  constructor
  · rintro ⟨hp, later, before, hsplit, hlater⟩
    have hxs : xs = before.reverse ++ a :: later.reverse := by
      simpa using congrArg List.reverse hsplit
    refine ⟨before.length, by simp [hxs], hp, fun i hi b hb => ?_⟩
    obtain ⟨n, rfl⟩ : ∃ n, i = before.reverse.length + (n + 1) :=
      ⟨i - before.length - 1, by simp; omega⟩
    rw [hxs, List.getElem?_append_right (Nat.le_add_right _ _), Nat.add_sub_cancel_left] at hb
    simpa using hlater b (List.mem_reverse.mp (List.mem_of_getElem? hb))
  · rintro ⟨j, hj, hp, hlater⟩
    obtain ⟨hlt, rfl⟩ := List.getElem?_eq_some_iff.mp hj
    refine ⟨hp, (xs.drop (j + 1)).reverse, (xs.take j).reverse, ?_, fun b hb => ?_⟩
    · conv_lhs => rw [← List.take_append_drop j xs, List.drop_eq_getElem_cons hlt]
      simp
    · obtain ⟨i, hi⟩ := List.mem_iff_getElem?.mp (List.mem_reverse.mp hb)
      rw [List.getElem?_drop] at hi
      simpa using hlater (j + 1 + i) (by omega) b hi

namespace Stat

def lastWith? (stats : List Stat) (x : String) : Option Stat :=
  (stats.filter (·.id == x)).getLast?

/-- The live value of the last stat with an id among those that have a live value, which
are the stats at the positions inside the list of live values. -/
def lastLive? (stats : List Stat) (values : List Double) (x : String) : Option Double :=
  (((stats.zip values).filter (·.1.id == x)).getLast?).map (·.2)

structure LastAt (stats : List Stat) (x : String) (j : Nat) (s : Stat) : Prop where
  found : stats[j]? = some s
  id_eq : s.id = x
  later : ∀ i > j, ∀ s', stats[i]? = some s' → s'.id ≠ x

theorem lastWith?_eq_some_iff {stats : List Stat} {x : String} {s : Stat} :
    lastWith? stats x = some s ↔ ∃ j, LastAt stats x j s := by
  rw [lastWith?, getLast?_filter_eq_some_iff]
  constructor
  · rintro ⟨j, hj, hx, hlater⟩
    exact ⟨j, hj, by simpa using hx, fun i hi s' hs' => by simpa using hlater i hi s' hs'⟩
  · rintro ⟨j, hj, hx, hlater⟩
    exact ⟨j, hj, by simpa using hx, fun i hi s' hs' => by simpa using hlater i hi s' hs'⟩

theorem lastLive?_of_lastAt {stats : List Stat} {x : String} {j : Nat} {s : Stat}
    {values : List Double} {w : Double} (h : LastAt stats x j s) (hw : values[j]? = some w) :
    lastLive? stats values x = some w := by
  have hlast : ((stats.zip values).filter (·.1.id == x)).getLast? = some (s, w) := by
    refine getLast?_filter_eq_some_iff.mpr
      ⟨j, List.getElem?_zip_eq_some.mpr ⟨h.found, hw⟩, by simp [h.id_eq], fun i hi pair hpair => ?_⟩
    obtain ⟨hs', -⟩ := List.getElem?_zip_eq_some.mp hpair
    simpa using h.later i hi pair.1 hs'
  rw [lastLive?, hlast]
  rfl

theorem lastLive?_eq_none {stats : List Stat} {x : String} {values : List Double}
    (h : ∀ (i : Nat) s, stats[i]? = some s → s.id = x → values[i]? = none) :
    lastLive? stats values x = none := by
  rw [lastLive?, Option.map_eq_none_iff, List.getLast?_eq_none_iff, List.filter_eq_nil_iff]
  intro pair hpair hx
  obtain ⟨i, hi⟩ := List.mem_iff_getElem?.mp hpair
  obtain ⟨hs, hv⟩ := List.getElem?_zip_eq_some.mp hi
  rw [h i pair.1 hs (by simpa using hx)] at hv
  cases hv

theorem exists_lastWith? {stats : List Stat} {x : String} (h : ∃ s ∈ stats, s.id = x) :
    ∃ s, lastWith? stats x = some s := by
  obtain ⟨s, hs, hx⟩ := h
  cases hlast : lastWith? stats x with
  | none =>
    have hempty := List.getLast?_eq_none_iff.mp hlast
    exact absurd hx (by simpa using List.filter_eq_nil_iff.mp hempty s hs)
  | some last => exact ⟨last, rfl⟩

end Stat

namespace Roll

variable (stats : List Stat) (values : List Double) (x : String)

theorem map_stat_align : (align stats values).map Roll.stat = stats := by
  induction stats generalizing values with
  | nil => rfl
  | cons s stats ih => cases values <;> simp [align, ih]

theorem filterMap_filter_align (f : Stat → Double) :
    (((align stats values).filter (·.id == x)).filterMap (fun r => some (f r.stat))).getLast? =
      (Stat.lastWith? stats x).map f := by
  have hfilter : ((align stats values).filter (·.id == x)).map Roll.stat =
      stats.filter (·.id == x) := by
    rw [← map_stat_align stats values, List.filter_map, map_stat_align]
    rfl
  rw [List.filterMap_eq_map', Stat.lastWith?, ← List.getLast?_map, ← hfilter, List.map_map]
  rfl

theorem filterMap_live_align :
    (((align stats values).filter (·.id == x)).filterMap Roll.live).getLast? =
      Stat.lastLive? stats values x := by
  rw [Stat.lastLive?, ← List.getLast?_map]
  congr 1
  induction stats generalizing values with
  | nil => rfl
  | cons s stats ih =>
    cases values with
    | nil =>
      have hrest := ih []
      by_cases hs : s.id = x <;> simp_all [align, Roll.id]
    | cons v values =>
      have hrest := ih values
      by_cases hs : s.id = x <;> simp_all [align, Roll.id]

end Roll

namespace Entry

theorem slotOf?_eq_some_iff_of_getElem? {e : Entry} {x y : String} {slot : Nat}
    (hx : e.ids[slot]? = some x) :
    e.slotOf? y = some slot ↔ y = x ∧ e.slotOf? x = some slot := by
  constructor
  · intro hy
    have hid := (slotOf?_eq_some_iff.mp hy).1
    obtain rfl : y = x := Option.some.inj (hid.symm.trans hx)
    exact ⟨rfl, hy⟩
  · rintro ⟨rfl, hy⟩
    exact hy

variable {e : Entry} {x : String} {slot : Nat} {number : Roll → Option Double}
  {rolls : List Roll}

theorem written_of_slotOf? (h : e.slotOf? x = some slot) :
    e.written number rolls slot = (rolls.filter (·.id == x)).filterMap number := by
  have hx := (slotOf?_eq_some_iff.mp h).1
  have hsame : ∀ r ∈ rolls, (e.slotOf? r.id == some slot) = (r.id == x) := by
    intro r _
    rw [Bool.eq_iff_iff, beq_iff_eq, beq_iff_eq, slotOf?_eq_some_iff_of_getElem? hx]
    exact and_iff_left h
  rw [written, List.filter_congr hsame]

theorem written_eq_nil (hx : e.ids[slot]? = some x) (h : e.slotOf? x ≠ some slot) :
    e.written number rolls slot = [] := by
  have hnone : ∀ r ∈ rolls, ¬(e.slotOf? r.id == some slot) = true := by
    intro r _ hr
    exact h ((slotOf?_eq_some_iff_of_getElem? hx).mp (beq_iff_eq.mp hr)).2
  rw [written, List.filter_eq_nil_iff.mpr hnone, List.filterMap_nil]

end Entry

namespace Group

variable {α : Type} {slot : Nat} (roll : α → Roll) (live : Bool) (g : Group α)

theorem sized_line : (g.line roll live).Sized := (Line.sized_blank _ _ _).foldl_fill _

theorem line_values_isSome : (g.line roll live).values.isSome = live := by
  rw [line, Line.foldl_fill_values_isSome]
  cases live <;> rfl

theorem getElem?_line_bound (b : Bound) (h : slot < g.entry.slotCount) :
    (b.ofLine (g.line roll live))[slot]? =
      some ((g.entry.written (fun r => some (b.ofStat r.stat)) (g.members.map roll)
        slot).getLast?.getD 0) := by
  have hblank : b.ofLine (Line.blank g.position g.entry live) =
      List.replicate g.entry.slotCount 0 := by
    cases b <;> rfl
  rw [line, Bound.ofLine_foldl_fill, hblank, Entry.getElem?_foldl_write _ _ (by simpa using h)]
  simp [Line.blank]

theorem getElem?_line_values (h : slot < g.entry.slotCount) {vs : List Double}
    (hvs : (g.line roll live).values = some vs) :
    vs[slot]? =
      some ((g.entry.written Roll.live (g.members.map roll) slot).getLast?.getD 0) := by
  rw [line, Line.foldl_fill_values, Option.map_eq_some_iff] at hvs
  obtain ⟨blank, hblank, rfl⟩ := hvs
  obtain rfl : blank = List.replicate g.entry.slotCount 0 := by
    cases live <;> simp_all [Line.blank]
  rw [Entry.getElem?_foldl_write _ _ (by simpa using h)]
  simp [Line.blank]

end Group

/-- The slot of the line at a position that the stats with an id are written into: it is
the first slot that holds the id, no earlier line's entry mentions the id, and there are
stats with the id. -/
structure Filled (lines : List Line) (stats : List Stat) (k : Nat) (l : Line) (slot : Nat)
    (x : String) : Prop where
  first : ∀ earlier < slot, l.entry.ids[earlier]? ≠ some x
  free : ∀ j < k, ∀ earlier, lines[j]? = some earlier → x ∉ earlier.entry.ids
  carried : ∃ s ∈ stats, s.id = x

namespace Table

variable {t : Table} {stats : List Stat} {values : Option (List Double)} {k slot : Nat}
  {l : Line} {x : String} {g : Group (Roll × Nat)} {number : Roll → Option Double}

theorem exists_seatedGroup (h : (t.lines stats values)[k]? = some l) :
    ∃ g, (t.seatedGroups stats values)[k]? = some g ∧ g.line Prod.fst values.isSome = l := by
  rw [lines_eq_seatedGroups, List.getElem?_map, Option.map_eq_some_iff] at h
  exact h

theorem free_iff :
    (∀ j < k, ∀ earlier, (t.lines stats values)[j]? = some earlier → x ∉ earlier.entry.ids) ↔
      ∀ j < k, ∀ earlier, (t.seatedGroups stats values)[j]? = some earlier →
        x ∉ earlier.entry.ids := by
  rw [lines_eq_seatedGroups]
  constructor
  · intro h j hj earlier he
    have hline := h j hj (earlier.line Prod.fst values.isSome) (by simp [he])
    simpa using hline
  · intro h j hj earlier he
    rw [List.getElem?_map, Option.map_eq_some_iff] at he
    obtain ⟨earlier, he, rfl⟩ := he
    simpa using h j hj earlier he

theorem written_of_filled (hk : (t.seatedGroups stats values)[k]? = some g)
    (hx : g.entry.ids[slot]? = some x)
    (h : Filled (t.lines stats values) stats k (g.line Prod.fst values.isSome) slot x) :
    g.entry.written number (g.members.map Prod.fst) slot =
      ((Roll.align stats (values.getD [])).filter (·.id == x)).filterMap number := by
  have hslot : g.entry.slotOf? x = some slot :=
    Entry.slotOf?_eq_some_iff.mpr ⟨hx, by simpa using h.first⟩
  -- no earlier group takes stats with the id, so this one takes all of them
  have hmembers := filter_members hk (List.mem_of_getElem? hx) (free_iff.mp h.free)
  have hrolls : (g.members.map Prod.fst).filter (·.id == x) =
      (Roll.align stats (values.getD [])).filter (·.id == x) := by
    rw [List.filter_map, Function.comp_def, hmembers]
    conv_rhs => rw [← List.zipIdx_map_fst 0 (Roll.align stats (values.getD [])), List.filter_map]
    rfl
  rw [Entry.written_of_slotOf? hslot, hrolls]

theorem written_of_not_filled (hk : (t.seatedGroups stats values)[k]? = some g)
    (hx : g.entry.ids[slot]? = some x)
    (h : ¬Filled (t.lines stats values) stats k (g.line Prod.fst values.isSome) slot x) :
    g.entry.written number (g.members.map Prod.fst) slot = [] := by
  -- either the slot is not the first with its id, or the group has no stat with the id
  by_cases hslot : g.entry.slotOf? x = some slot
  · have hnone : ∀ r ∈ g.members.map Prod.fst, ¬(r.id == x) = true := by
      intro r hr hid
      obtain ⟨m, hm, rfl⟩ := List.mem_map.mp hr
      obtain rfl : m.1.id = x := beq_iff_eq.mp hid
      have hg := List.mem_of_getElem? hk
      have hstat := stat_of_mem_members hg hm
      refine h ⟨by simpa using (Entry.slotOf?_eq_some_iff.mp hslot).2, free_iff.mpr ?_,
        m.1.stat, List.mem_of_getElem? hstat, rfl⟩
      intro j hj earlier he
      obtain ⟨hlt, rfl⟩ := List.getElem?_eq_some_iff.mp he
      obtain ⟨hlt', rfl⟩ := List.getElem?_eq_some_iff.mp hk
      exact List.pairwise_iff_getElem.mp (pairwise_groups t _ _) j k hlt hlt' hj m hm
    rw [Entry.written_of_slotOf? hslot, List.filter_eq_nil_iff.mpr hnone, List.filterMap_nil]
  · exact Entry.written_eq_nil hx hslot

theorem filled_of_mem_members (hk : (t.seatedGroups stats values)[k]? = some g) {m : Roll × Nat}
    (hm : m ∈ g.members) (hslot : g.entry.slotOf? m.1.id = some slot) :
    Filled (t.lines stats values) stats k (g.line Prod.fst values.isSome) slot m.1.id := by
  by_contra h
  -- a slot that is not filled is not written, but the member writes it
  have hnil : g.entry.written (some ∘ fun r => r.stat.min) (g.members.map Prod.fst) slot = [] :=
    written_of_not_filled hk (Entry.slotOf?_eq_some_iff.mp hslot).1 h
  rw [Entry.written, List.filterMap_eq_map, List.map_eq_nil_iff, List.filter_eq_nil_iff] at hnil
  exact hnil m.1 (List.mem_map_of_mem hm) (by simp [hslot])

theorem slot_of_filled (hl : (t.lines stats values)[k]? = some l)
    (hx : l.entry.ids[slot]? = some x) (h : Filled (t.lines stats values) stats k l slot x) :
    ∃ s, Stat.lastWith? stats x = some s ∧ l.mins[slot]? = some s.min ∧ l.maxs[slot]? = some s.max ∧
      ∀ vs given, l.values = some vs → values = some given →
        vs[slot]? = some ((Stat.lastLive? stats given x).getD 0) := by
  obtain ⟨g, hk, rfl⟩ := exists_seatedGroup hl
  rw [Group.line_entry] at hx
  have hslot : slot < g.entry.slotCount := (List.getElem?_eq_some_iff.mp hx).1
  obtain ⟨s, hs⟩ := Stat.exists_lastWith? h.carried
  -- the numbers written are those of the stats with the id, and the last one stays
  have hbound : ∀ b : Bound,
      (b.ofLine (g.line Prod.fst values.isSome))[slot]? = some (b.ofStat s) := by
    intro b
    rw [g.getElem?_line_bound _ _ b hslot, written_of_filled hk hx h, Roll.filterMap_filter_align,
      hs]
    rfl
  refine ⟨s, hs, hbound .lower, hbound .upper, ?_⟩
  rintro vs given hvs rfl
  rw [g.getElem?_line_values _ _ hslot hvs, written_of_filled hk hx h, Roll.filterMap_live_align]
  rfl

theorem slot_of_not_filled (hl : (t.lines stats values)[k]? = some l)
    (hx : l.entry.ids[slot]? = some x) (h : ¬Filled (t.lines stats values) stats k l slot x) :
    l.mins[slot]? = some 0 ∧ l.maxs[slot]? = some 0 ∧
      ∀ vs, l.values = some vs → vs[slot]? = some 0 := by
  obtain ⟨g, hk, rfl⟩ := exists_seatedGroup hl
  rw [Group.line_entry] at hx
  have hslot : slot < g.entry.slotCount := (List.getElem?_eq_some_iff.mp hx).1
  have hbound : ∀ b : Bound, (b.ofLine (g.line Prod.fst values.isSome))[slot]? = some 0 := by
    intro b
    rw [g.getElem?_line_bound _ _ b hslot, written_of_not_filled hk hx h]
    rfl
  refine ⟨hbound .lower, hbound .upper, fun vs hvs => ?_⟩
  rw [g.getElem?_line_values _ _ hslot hvs, written_of_not_filled hk hx h]
  rfl

theorem sized_of_lines (hl : (t.lines stats values)[k]? = some l) : l.Sized := by
  obtain ⟨g, -, rfl⟩ := exists_seatedGroup hl
  exact g.sized_line _ _

theorem values_isSome_of_lines (hl : (t.lines stats values)[k]? = some l) :
    l.values.isSome = values.isSome := by
  obtain ⟨g, -, rfl⟩ := exists_seatedGroup hl
  exact g.line_values_isSome _ _

/-- What the slots of a line hold, slot by slot: a filled slot has the numbers of the last
stat with its id, every other slot is zero, and no stat is written into another slot. -/
theorem slots_of_lines (t : Table) (stats : List Stat) (values : Option (List Double)) {k : Nat}
    {l : Line} (hl : (t.lines stats values)[k]? = some l) :
    l.Sized ∧ l.values.isSome = values.isSome ∧
    (∀ slot x, l.entry.ids[slot]? = some x →
      (Filled (t.lines stats values) stats k l slot x →
        ∃ s, Stat.lastWith? stats x = some s ∧
          l.mins[slot]? = some s.min ∧ l.maxs[slot]? = some s.max ∧
          ∀ vs given, l.values = some vs → values = some given →
            vs[slot]? = some ((Stat.lastLive? stats given x).getD 0)) ∧
      (¬Filled (t.lines stats values) stats k l slot x →
        l.mins[slot]? = some 0 ∧ l.maxs[slot]? = some 0 ∧
          ∀ vs, l.values = some vs → vs[slot]? = some 0)) ∧
    ∃ g, (t.seatedGroups stats values)[k]? = some g ∧ l = g.line Prod.fst values.isSome ∧
      ∀ m ∈ g.members, ∀ slot, l.entry.slotOf? m.1.id = some slot →
        Filled (t.lines stats values) stats k l slot m.1.id := by
  refine ⟨sized_of_lines hl, values_isSome_of_lines hl,
    fun slot x hx => ⟨slot_of_filled hl hx, slot_of_not_filled hl hx⟩, ?_⟩
  obtain ⟨g, hk, rfl⟩ := exists_seatedGroup hl
  refine ⟨g, hk, rfl, fun m hm slot hslot => ?_⟩
  exact filled_of_mem_members hk hm (by simpa using hslot)

/-- The stat `c` is repeated, and its second occurrence has no live value. -/
theorem slots_of_repeated_stat :
    let t := ofEntries [{ ids := ["a", "b", "a"] }, { ids := ["b", "c"] }]
    let stats : List Stat := [⟨"b", 1, 2⟩, ⟨"c", 3, 4⟩, ⟨"a", 5, 6⟩, ⟨"c", 7, 8⟩]
    ∃ l, (t.lines stats (some [9, 10]))[1]? = some l ∧
      Filled (t.lines stats (some [9, 10])) stats 1 l 1 "c" ∧ l.entry.ids[1]? = some "c" ∧
      ∃ s, Stat.lastWith? stats "c" = some s ∧ l.mins[1]? = some s.min ∧ l.maxs[1]? = some s.max ∧
        ∀ vs, l.values = some vs →
          vs[1]? = some ((Stat.lastLive? stats [9, 10] "c").getD 0) := by
  intro t stats
  have hlines : t.lines stats (some [9, 10]) =
      [⟨0, { ids := ["a", "b", "a"] }, [5, 1, 0], [6, 2, 0], some [0, 9, 0]⟩,
        ⟨1, { ids := ["b", "c"] }, [0, 7], [0, 8], some [0, 10]⟩] := by
    have hb : t.entryFor? "b" = some (0, { ids := ["a", "b", "a"] }) := by
      rw [entryFor?_eq]
      rfl
    have hc : t.entryFor? "c" = some (1, { ids := ["b", "c"] }) := by
      rw [entryFor?_eq]
      rfl
    simp only [lines, stats, Roll.align, Option.getD_some, List.foldl_cons, List.foldl_nil, place,
      Roll.id, hb, hc]
    rfl
  have hl : (t.lines stats (some [9, 10]))[1]? =
      some ⟨1, { ids := ["b", "c"] }, [0, 7], [0, 8], some [0, 10]⟩ := by
    rw [hlines]
    rfl
  have hfilled : Filled (t.lines stats (some [9, 10])) stats 1
      ⟨1, { ids := ["b", "c"] }, [0, 7], [0, 8], some [0, 10]⟩ 1 "c" := by
    refine ⟨fun earlier h => ?_, fun j hj earlier he => ?_, ⟨"c", 7, 8⟩, by simp [stats], rfl⟩
    · obtain rfl : earlier = 0 := by omega
      simp
    · obtain rfl : j = 0 := by omega
      rw [hlines] at he
      obtain rfl : _ = earlier := Option.some.inj he
      simp
  obtain ⟨-, -, hslots, -⟩ := slots_of_lines t stats (some [9, 10]) hl
  obtain ⟨s, hs, hmin, hmax, hlive⟩ := (hslots 1 "c" rfl).1 hfilled
  exact ⟨_, hl, hfilled, rfl, s, hs, hmin, hmax, fun vs hvs => hlive vs [9, 10] hvs rfl⟩

end Table

end StatProse
