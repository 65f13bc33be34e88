import StatProse.Proofs.Slots

/-!
# The order of stats

In a table whose entries have no stat in common, a line is made of all stats that its entry
mentions. The numbers of distinct stats go to distinct slots, so the line is the same in
whatever order the stats come. Only the order of the lines follows the stats: it is the
order in which their entries are first mentioned.
-/

namespace StatProse

def Entry.firstIn (e : Entry) (stats : List Stat) : Nat := stats.findIdx (fun s => e.mentions s.id)

def Line.Leads (stats : List Stat) (l later : Line) : Prop :=
  l.entry.firstIn stats < later.entry.firstIn stats

theorem Line.Leads.asymm {stats : List Stat} {l later : Line} (h : l.Leads stats later) :
    ¬later.Leads stats l := Nat.lt_asymm h

/-- The same stats in another order. Live values, if there are any, are as many as the stats
and move with them. -/
inductive Shuffled : List Stat → Option (List Double) → List Stat → Option (List Double) → Prop
  | plain {stats stats' : List Stat} (stat : stats.Perm stats') :
    Shuffled stats none stats' none
  | live {stats stats' : List Stat} {values values' : List Double}
    (length : values.length = stats.length) (length' : values'.length = stats'.length)
    (pair : (stats.zip values).Perm (stats'.zip values')) :
    Shuffled stats (some values) stats' (some values')

namespace Roll

theorem align_nil (stats : List Stat) : align stats [] = stats.map (⟨·, none⟩) := by
  induction stats with
  | nil => rfl
  | cons s stats ih => simp [align, ih]

theorem align_of_length {stats : List Stat} {values : List Double}
    (h : values.length = stats.length) :
    align stats values = (stats.zip values).map (fun pair => ⟨pair.1, some pair.2⟩) := by
  induction stats generalizing values with
  | nil => rfl
  | cons s stats ih =>
    cases values with
    | nil => simp at h
    | cons v values => simp [align, ih (Nat.succ.inj h)]

end Roll

variable {stats stats' : List Stat} {values values' : Option (List Double)}

namespace Shuffled

theorem isSome_eq (h : Shuffled stats values stats' values') : values'.isSome = values.isSome := by
  cases h <;> rfl

theorem perm_align (h : Shuffled stats values stats' values') :
    (Roll.align stats (values.getD [])).Perm (Roll.align stats' (values'.getD [])) := by
  cases h with
  | plain stat =>
    simp only [Option.getD_none, Roll.align_nil]
    exact stat.map _
  | live length length' pair =>
    simp only [Option.getD_some, Roll.align_of_length length, Roll.align_of_length length']
    exact pair.map _

theorem perm (h : Shuffled stats values stats' values') : stats.Perm stats' := by
  cases h with
  | plain stat => exact stat
  | live length length' pair =>
    have hfst := pair.map Prod.fst
    rwa [List.map_fst_zip length.ge, List.map_fst_zip length'.ge] at hfst

end Shuffled

/-! ## Filling in any order -/

namespace Line

/-- Distinct stats are written into distinct slots, so either may be written first. -/
theorem fill_comm {r s : Roll} (hid : r.id = s.id → r = s) (l : Line) :
    (l.fill r).fill s = (l.fill s).fill r := by
  by_cases heq : r = s
  · rw [heq]
  cases hr : l.entry.slotOf? r.id with
  | none =>
    have hr' : (l.fill s).entry.slotOf? r.id = none := by simpa using hr
    rw [fill_of_slotOf?_eq_none hr, fill_of_slotOf?_eq_none hr']
  | some slot =>
    cases hs : l.entry.slotOf? s.id with
    | none =>
      have hs' : (l.fill r).entry.slotOf? s.id = none := by simpa using hs
      rw [fill_of_slotOf?_eq_none hs, fill_of_slotOf?_eq_none hs']
    | some slot' =>
      -- a slot has one id, and no other stat has the same
      have hne : slot ≠ slot' := by
        rintro rfl
        have hslot := (Entry.slotOf?_eq_some_iff.mp hr).1
        exact heq (hid (Option.some.inj (hslot.symm.trans (Entry.slotOf?_eq_some_iff.mp hs).1)))
      have hr' : (l.fillSlot slot' s).entry.slotOf? r.id = some slot := hr
      have hs' : (l.fillSlot slot r).entry.slotOf? s.id = some slot' := hs
      rw [fill_of_slotOf? hr, fill_of_slotOf? hs, fill_of_slotOf? hr', fill_of_slotOf? hs']
      cases hlive : r.live <;> cases hlive' : s.live <;> cases hvalues : l.values <;>
        simp [fillSlot, hlive, hlive', hvalues, List.set_comm _ _ hne]

theorem foldl_fill_perm {rolls rolls' : List Roll} (hperm : rolls.Perm rolls')
    (hid : ∀ r ∈ rolls, ∀ s ∈ rolls, r.id = s.id → r = s) (l : Line) :
    rolls.foldl fill l = rolls'.foldl fill l :=
  hperm.foldl_eq' (fun r hr s hs l => fill_comm (hid r hr s hs) l) l

end Line

namespace Table

def Separated (t : Table) : Prop :=
  ∀ e ∈ t.entries, ∀ e' ∈ t.entries, ∀ x ∈ e.ids, x ∈ e'.ids → e = e'

instance (t : Table) : Decidable t.Separated :=
  inferInstanceAs (Decidable (∀ e ∈ t.entries, ∀ e' ∈ t.entries, ∀ x ∈ e.ids, x ∈ e'.ids → e = e'))

variable {t : Table}

theorem Separated.eq_of_isFirst (ht : t.Separated) {x : String} {position : Nat} {e e' : Entry}
    (h : t.IsFirst x position e) (he' : e' ∈ t.entries) (hx : x ∈ e'.ids) : e = e' :=
  ht e (List.mem_of_getElem? h.found) e' he' x h.mentioned hx

theorem Separated.members_eq_taken (ht : t.Separated) {α : Type} {stat : α → String} {xs : List α}
    {g : Group α} (h : g ∈ t.groups stat xs) : g.members = g.entry.taken stat xs := by
  have hmem : g.entry ∈ t.entries := List.mem_of_getElem? (isFirst_seed h).found
  -- the induction follows the grouping, which goes on with the stats that are left
  fun_induction groups t stat xs with
  | case1 => simp at h
  | case2 a xs hf ih =>
    have ha : stat a ∉ g.entry.ids := fun ha => entryFor?_eq_none_iff.mp hf ⟨g.entry, hmem, ha⟩
    rw [ih h, Entry.taken, Entry.taken, List.filter_cons_of_neg (by simpa using ha)]
  | case3 a xs position e hf ih =>
    have hfirst := entryFor?_eq_some_iff.mp hf
    rcases List.mem_cons.mp h with rfl | h
    · simp [Group.members, Entry.taken, hfirst.mentioned]
    · -- the first entry leaves the seed of a later group, so the group has another entry
      have hne : e ≠ g.entry := by
        rintro rfl
        have hseed := (members_sublist h).subset g.seed_mem_members
        exact (Entry.mem_untaken.mp hseed).2 (isFirst_seed h).mentioned
      have hapart : ∀ x ∈ g.entry.ids, x ∉ e.ids := fun x hx hx' =>
        hne (ht e (List.mem_of_getElem? hfirst.found) g.entry hmem x hx' hx)
      have ha : stat a ∉ g.entry.ids := fun ha => hapart _ ha hfirst.mentioned
      rw [ih h, Entry.taken, Entry.taken, Entry.untaken, List.filter_filter,
        List.filter_cons_of_neg (by simpa using ha)]
      refine List.filter_congr fun b _ => ?_
      by_cases hb : stat b ∈ g.entry.ids
      · simp [hb, hapart _ hb]
      · simp [hb]

def fullLine (live : Bool) (rolls : List Roll) (position : Nat) (e : Entry) : Line :=
  (e.taken Roll.id rolls).foldl Line.fill (Line.blank position e live)

theorem Separated.line_eq_fullLine (ht : t.Separated) {g : Group (Roll × Nat)}
    (hg : g ∈ t.seatedGroups stats values) :
    g.line Prod.fst values.isSome =
      fullLine values.isSome (Roll.align stats (values.getD [])) g.position g.entry := by
  rw [Group.line, fullLine, ht.members_eq_taken hg, Entry.taken, Entry.taken]
  conv_rhs => rw [← List.zipIdx_map_fst 0 (Roll.align stats (values.getD [])), List.filter_map]
  rfl

theorem Separated.mem_lines_iff (ht : t.Separated) {l : Line} :
    l ∈ t.lines stats values ↔ ∃ s ∈ stats, ∃ position e, t.IsFirst s.id position e ∧
      l = fullLine values.isSome (Roll.align stats (values.getD [])) position e := by
  rw [lines_eq_seatedGroups, List.mem_map]
  constructor
  · rintro ⟨g, hg, rfl⟩
    have hseed := stat_of_mem_members hg g.seed_mem_members
    exact ⟨g.seed.1.stat, List.mem_of_getElem? hseed, g.position, g.entry, isFirst_seed hg,
      ht.line_eq_fullLine hg⟩
  · rintro ⟨s, hs, position, e, hfirst, rfl⟩
    obtain ⟨i, hi⟩ := List.mem_iff_getElem?.mp hs
    obtain ⟨g, hg, hseat⟩ := exists_mem_seats values hi hfirst.knows
    -- the group that takes the stat has the entry, as no other mentions the stat
    have hseed := isFirst_seed hg
    have hentry : e = g.entry := ht.eq_of_isFirst hfirst (List.mem_of_getElem? hseed.found)
      (mentions_of_mem_seats hg hseat hi)
    have hposition : position = g.position := (hfirst.position_eq_iff_eq hseed).mpr hentry
    exact ⟨g, hg, by rw [ht.line_eq_fullLine hg, hentry, hposition]⟩

theorem Separated.firstIn_entry (ht : t.Separated) {g : Group (Roll × Nat)}
    (hg : g ∈ t.seatedGroups stats values) : g.entry.firstIn stats = g.seat := by
  have hseed := stat_of_mem_members hg g.seed_mem_members
  obtain ⟨hlt, hstat⟩ := List.getElem?_eq_some_iff.mp hseed
  refine (List.findIdx_eq hlt).mpr ⟨?_, fun j hj => ?_⟩
  · rw [hstat]
    exact Entry.mentions_iff.mpr (isFirst_seed hg).mentioned
  · by_contra hmentions
    rw [Bool.not_eq_false, Entry.mentions_iff] at hmentions
    -- an earlier stat of the entry would be a member before the seed
    let m : Roll × Nat := (⟨stats[j], (values.getD [])[j]?⟩, j)
    have hm : m ∈ (Roll.align stats (values.getD [])).zipIdx := by
      rw [List.mem_zipIdx_iff_getElem?, Roll.getElem?_align,
        List.getElem?_eq_getElem (Nat.lt_trans hj hlt)]
      rfl
    have hmember : m ∈ g.members := by
      rw [ht.members_eq_taken hg]
      exact Entry.mem_taken.mpr ⟨hm, hmentions⟩
    exact absurd (seat_le hg (Group.mem_seats.mpr ⟨m, hmember, rfl⟩)) (Nat.not_le_of_lt hj)

theorem Separated.pairwise_firstIn (ht : t.Separated) (stats : List Stat)
    (values : Option (List Double)) : (t.lines stats values).Pairwise (Line.Leads stats) := by
  rw [lines_eq_seatedGroups, List.pairwise_map]
  refine (pairwise_seat t stats values).imp_of_mem fun hg hlater hlt => ?_
  simpa [Line.Leads, ht.firstIn_entry hg, ht.firstIn_entry hlater] using hlt

theorem nodup_lines (t : Table) (stats : List Stat) (values : Option (List Double)) :
    (t.lines stats values).Nodup := by
  have hpositions := nodup_positions t stats values
  refine List.Nodup.of_map Line.position ?_
  simpa [lines_eq_seatedGroups, Function.comp_def] using hpositions

theorem Separated.mem_lines_congr (ht : t.Separated) (hn : (stats.map Stat.id).Nodup)
    (h : Shuffled stats values stats' values') (l : Line) :
    l ∈ t.lines stats' values' ↔ l ∈ t.lines stats values := by
  have hperm := h.perm_align
  have hfull : fullLine values'.isSome (Roll.align stats' (values'.getD [])) =
      fullLine values.isSome (Roll.align stats (values.getD [])) := by
    funext position e
    have hids : ((e.taken Roll.id (Roll.align stats (values.getD []))).map Roll.id).Nodup := by
      rw [← Roll.map_stat_align stats (values.getD []), List.map_map] at hn
      exact hn.sublist (Entry.taken_sublist.map Roll.id)
    rw [fullLine, fullLine, h.isSome_eq]
    exact (Line.foldl_fill_perm (hperm.filter _)
      (fun r hr s hs => List.inj_on_of_nodup_map hids hr hs) _).symm
  simp only [ht.mem_lines_iff, hfull, h.perm.mem_iff]

/-- In a table whose entries share no stats, stats in another order make the same lines, also
with their live values. The lines come in the same order exactly if their entries are first
mentioned in the same order. -/
theorem lines_of_shuffled (ht : t.Separated) (hn : (stats.map Stat.id).Nodup)
    (h : Shuffled stats values stats' values') :
    (t.lines stats' values').Perm (t.lines stats values) ∧
    ((∀ l ∈ t.lines stats values, ∀ later ∈ t.lines stats values,
        l.Leads stats later → l.Leads stats' later) ↔
      t.lines stats' values' = t.lines stats values) := by
  have hmem := ht.mem_lines_congr hn h
  have hperm : (t.lines stats' values').Perm (t.lines stats values) :=
    (List.perm_ext_iff_of_nodup (t.nodup_lines _ _) (t.nodup_lines _ _)).mpr hmem
  have hascending := ht.pairwise_firstIn stats values
  have hascending' := ht.pairwise_firstIn stats' values'
  refine ⟨hperm, fun hkeep => ?_, fun heq => ?_⟩
  · exact hperm.eq_of_pairwise (fun l later _ _ hlt hgt => absurd hgt hlt.asymm) hascending'
      (hascending.imp_of_mem fun hl hlater hlt => hkeep _ hl _ hlater hlt)
  · rw [heq] at hascending'
    have hforward : (t.lines stats values).Pairwise
        (fun l later => l.Leads stats later → l.Leads stats' later) := by
      refine hascending'.imp ?_
      exact fun hlt _ => hlt
    have hbackward : (t.lines stats values).Pairwise
        (fun later l => l.Leads stats later → l.Leads stats' later) := by
      refine hascending.imp ?_
      exact fun hlt hgt => absurd hgt hlt.asymm
    exact hforward.forall_of_forall_of_flip (fun l _ hlt => absurd hlt (Nat.lt_irrefl _)) hbackward

/-- The first line is opened by `a` in one order and by `b` in the other. -/
theorem lines_of_swapped_seeds :
    let t := ofEntries [{ ids := ["a", "b"] }, { ids := ["c", "c"] }]
    let stats : List Stat := [⟨"a", 1, 2⟩, ⟨"c", 3, 4⟩, ⟨"b", 5, 6⟩]
    let stats' : List Stat := [⟨"b", 5, 6⟩, ⟨"a", 1, 2⟩, ⟨"c", 3, 4⟩]
    t.Separated ∧ (stats.map Stat.id).Nodup ∧
      Shuffled stats (some [7, 8, 9]) stats' (some [9, 7, 8]) ∧
      t.lines stats (some [7, 8, 9]) =
        [⟨0, { ids := ["a", "b"] }, [1, 5], [2, 6], some [7, 9]⟩,
          ⟨1, { ids := ["c", "c"] }, [3, 0], [4, 0], some [8, 0]⟩] ∧
      t.lines stats' (some [9, 7, 8]) = t.lines stats (some [7, 8, 9]) := by
  intro t stats stats'
  have hlines : t.lines stats (some [7, 8, 9]) =
      [⟨0, { ids := ["a", "b"] }, [1, 5], [2, 6], some [7, 9]⟩,
        ⟨1, { ids := ["c", "c"] }, [3, 0], [4, 0], some [8, 0]⟩] := by
    have ha : t.entryFor? "a" = some (0, { ids := ["a", "b"] }) := by
      rw [entryFor?_eq]
      rfl
    have hc : t.entryFor? "c" = some (1, { ids := ["c", "c"] }) := by
      rw [entryFor?_eq]
      rfl
    simp only [lines, stats, Roll.align, Option.getD_some, List.foldl_cons, List.foldl_nil, place,
      Roll.id, ha, hc]
    rfl
  have ht : t.Separated := by decide
  have hn : (stats.map Stat.id).Nodup := by decide
  have h : Shuffled stats (some [7, 8, 9]) stats' (some [9, 7, 8]) := by
    refine .live (by simp [stats]) (by simp [stats']) ?_
    simp only [stats, stats', List.zip_cons_cons, List.zip_nil_right]
    exact @List.perm_append_comm _ [_, _] [_]
  refine ⟨ht, hn, h, hlines, (lines_of_shuffled ht hn h).2.mp fun l hl later hlater => ?_⟩
  have hentries : ∀ e ∈ t.entries, ∀ e' ∈ t.entries,
      e.firstIn stats < e'.firstIn stats → e.firstIn stats' < e'.firstIn stats' := by
    simp [t, stats, stats', ofEntries, Entry.firstIn, Entry.mentions, List.findIdx_cons]
  obtain ⟨_, hfirst⟩ := isFirst_of_mem_lines hl
  obtain ⟨_, hfirst'⟩ := isFirst_of_mem_lines hlater
  exact hentries _ (List.mem_of_getElem? hfirst.found) _ (List.mem_of_getElem? hfirst'.found)

end Table

end StatProse
