import StatProse.Proofs.Slots
import StatProse.Rendering

/-!
# Live values before ranges

A token may show a live value before its range. The value goes through the transforms of
its slot, and so do the bounds. The bounds are those of the last stat with the slot's id,
and the value is the one at the position of that stat. If the live list ends before that
position, the value is the one of the last such stat inside the list, or zero.
-/

namespace StatProse

namespace Rule

def transformed (r : Rule) (slot : Nat) (v : Double) : DisplayValue :=
  Transform.applyAll (r.handlersAt slot) v

/-- Whether the ends of a slot read differently, so that its token is a range. -/
def Ranged (r : Rule) (slot : Nat) (min max : Double) : Prop :=
  (r.transformed slot min).text ≠ (r.transformed slot max).text

instance (r : Rule) (slot : Nat) (min max : Double) : Decidable (r.Ranged slot min max) :=
  inferInstanceAs (Decidable (_ ≠ _))

def shown? (r : Rule) (l : Line) (slot : Nat) : Option DisplayValue :=
  if r.Ranged slot (l.min slot) (l.max slot) then
    ((l.value? slot).map (r.transformed slot)).filter (·.isPresent)
  else none

theorem not_ranged_self (r : Rule) (slot : Nat) (v : Double) : ¬r.Ranged slot v v :=
  fun h => h rfl

theorem token_eq (r : Rule) (l : Line) (slot : Nat) :
    r.token l slot none =
      if r.Ranged slot (l.min slot) (l.max slot) then
        rangeToken ((r.shown? l slot).map (·.text)) (r.transformed slot (l.min slot)).text
          (r.transformed slot (l.max slot)).text
      else (r.transformed slot (l.min slot)).text := by
  simp only [token, shown?]
  by_cases h : r.Ranged slot (l.min slot) (l.max slot)
  · rw [if_pos h, if_pos h]
    exact if_neg h
  · rw [if_neg h]
    exact if_pos (not_not.mp h)

theorem shown?_eq_some_iff {r : Rule} {l : Line} {slot : Nat} {v : DisplayValue} :
    r.shown? l slot = some v ↔
      r.Ranged slot (l.min slot) (l.max slot) ∧
        ∃ w, l.value? slot = some w ∧ v = r.transformed slot w ∧ v.isPresent := by
  unfold shown?
  constructor
  · intro h
    split at h
    · rename_i hends
      obtain ⟨hv, hpresent⟩ := Option.filter_eq_some_iff.mp h
      obtain ⟨w, hw, rfl⟩ := Option.map_eq_some_iff.mp hv
      exact ⟨hends, w, hw, rfl, hpresent⟩
    · cases h
  · rintro ⟨hends, w, hw, rfl, hpresent⟩
    rw [if_pos hends, hw]
    exact Option.filter_eq_some_iff.mpr ⟨rfl, hpresent⟩

end Rule

/-- Where the value before a range comes from: the range shows the bounds of the stat at
position `j`, and the value is the live value at `j`. If the live list ends before `j`, it
is the live value of the last stat inside the list with the same id, or else zero. -/
structure ShownFrom (stats : List Stat) (given : List Double) (r : Rule) (l : Line) (slot : Nat)
    (v : DisplayValue) (x : String) (j : Nat) (s : Stat) : Prop where
  slot_id : l.entry.ids[slot]? = some x
  last : Stat.LastAt stats x j s
  min_eq : l.min slot = s.min
  max_eq : l.max slot = s.max
  ranged : r.Ranged slot s.min s.max
  value_eq : v = r.transformed slot (given[j]?.getD ((Stat.lastLive? stats given x).getD 0))
  present : v.isPresent

theorem Stat.LastAt.live_eq {stats : List Stat} {x : String} {j : Nat} {s : Stat}
    (h : LastAt stats x j s) (given : List Double) :
    given[j]?.getD ((lastLive? stats given x).getD 0) = (lastLive? stats given x).getD 0 := by
  cases hj : given[j]? with
  | none => rfl
  | some w => rw [lastLive?_of_lastAt h hj, Option.getD_some, Option.getD_some]

namespace Table

variable {t : Table} {stats : List Stat} {given : List Double} {k slot : Nat} {l : Line}
  {x : String} {r : Rule} {v : DisplayValue}

theorem min_eq_max_of_not_filled {values : Option (List Double)}
    (hl : (t.lines stats values)[k]? = some l)
    (h : ∀ x, l.entry.ids[slot]? = some x → ¬Filled (t.lines stats values) stats k l slot x) :
    l.min slot = l.max slot := by
  cases hx : l.entry.ids[slot]? with
  | some x =>
    obtain ⟨hmin, hmax, -⟩ := slot_of_not_filled hl hx (h x hx)
    rw [Line.min, Line.max, hmin, hmax]
  | none =>
    -- past the last id there are no numbers at all
    have hsized := sized_of_lines hl
    have hslot : l.entry.slotCount ≤ slot := List.getElem?_eq_none_iff.mp hx
    have hmin : l.mins[slot]? = none := List.getElem?_eq_none (hsized.mins.trans_le hslot)
    have hmax : l.maxs[slot]? = none := List.getElem?_eq_none (hsized.maxs.trans_le hslot)
    rw [Line.min, Line.max, hmin, hmax]

theorem value?_of_filled (hl : (t.lines stats (some given))[k]? = some l)
    (hx : l.entry.ids[slot]? = some x)
    (h : Filled (t.lines stats (some given)) stats k l slot x) :
    l.value? slot = some ((Stat.lastLive? stats given x).getD 0) := by
  obtain ⟨vs, hvs⟩ := Option.isSome_iff_exists.mp (values_isSome_of_lines hl)
  obtain ⟨s, -, -, -, hlive⟩ := slot_of_filled hl hx h
  rw [Line.value?, hvs, Option.map_some, hlive vs given hvs rfl]
  rfl

theorem shownFrom_of_shown? (hl : (t.lines stats (some given))[k]? = some l)
    (h : r.shown? l slot = some v) : ∃ x j s, ShownFrom stats given r l slot v x j s := by
  obtain ⟨hranged, w, hw, hv, hpresent⟩ := Rule.shown?_eq_some_iff.mp h
  -- the ends of a slot that is not filled are both zero, so it shows no range
  obtain ⟨x, hx, hfilled⟩ : ∃ x, l.entry.ids[slot]? = some x ∧
      Filled (t.lines stats (some given)) stats k l slot x := by
    by_contra hno
    have hnone : ∀ x, l.entry.ids[slot]? = some x →
        ¬Filled (t.lines stats (some given)) stats k l slot x :=
      fun x hx hfilled => hno ⟨x, hx, hfilled⟩
    rw [min_eq_max_of_not_filled hl hnone] at hranged
    exact r.not_ranged_self slot _ hranged
  obtain ⟨s, hs, hmin, hmax, -⟩ := slot_of_filled hl hx hfilled
  obtain ⟨j, hlast⟩ := Stat.lastWith?_eq_some_iff.mp hs
  have hmin : l.min slot = s.min := by rw [Line.min, hmin, Option.getD_some]
  have hmax : l.max slot = s.max := by rw [Line.max, hmax, Option.getD_some]
  refine ⟨x, j, s, hx, hlast, hmin, hmax, hmin ▸ hmax ▸ hranged, ?_, hpresent⟩
  rw [value?_of_filled hl hx hfilled] at hw
  obtain rfl := Option.some.inj hw
  rw [hlast.live_eq, hv]

theorem shown?_of_shownFrom (hl : (t.lines stats (some given))[k]? = some l) {j : Nat} {s : Stat}
    (h : ShownFrom stats given r l slot v x j s) : r.shown? l slot = some v := by
  have hranged : r.Ranged slot (l.min slot) (l.max slot) := by
    rw [h.min_eq, h.max_eq]
    exact h.ranged
  -- a range has two ends, and a slot that is not filled has zero twice
  have hfilled : Filled (t.lines stats (some given)) stats k l slot x := by
    by_contra hno
    obtain ⟨hmin, hmax, -⟩ := slot_of_not_filled hl h.slot_id hno
    rw [Line.min, Line.max, hmin, hmax] at hranged
    exact r.not_ranged_self slot _ hranged
  refine Rule.shown?_eq_some_iff.mpr
    ⟨hranged, _, value?_of_filled hl h.slot_id hfilled, ?_, h.present⟩
  rw [h.value_eq, h.last.live_eq]

/-- A token shows a value before its range exactly if the value has an origin. If no stat
of the slot has a live value, only the transformed zero can be shown. -/
theorem shown_values_of_lines (t : Table) (stats : List Stat) (given : List Double) {k : Nat}
    {l : Line} (hl : (t.lines stats (some given))[k]? = some l) (r : Rule) (slot : Nat) :
    (r.token l slot none =
      if r.Ranged slot (l.min slot) (l.max slot) then
        rangeToken ((r.shown? l slot).map (·.text)) (r.transformed slot (l.min slot)).text
          (r.transformed slot (l.max slot)).text
      else (r.transformed slot (l.min slot)).text) ∧
    (∀ v, r.shown? l slot = some v ↔ ∃ x j s, ShownFrom stats given r l slot v x j s) ∧
    ∀ x v, l.entry.ids[slot]? = some x →
      (∀ (i : Nat) s, stats[i]? = some s → s.id = x → given[i]? = none) →
      r.shown? l slot = some v → v = r.transformed slot 0 := by
  refine ⟨r.token_eq l slot, fun v => ⟨shownFrom_of_shown? hl, ?_⟩, ?_⟩
  · rintro ⟨x, j, s, h⟩
    exact shown?_of_shownFrom hl h
  · intro x v hx hnone h
    obtain ⟨x', j, s, hfrom⟩ := shownFrom_of_shown? hl h
    obtain rfl : x' = x := Option.some.inj (hfrom.slot_id.symm.trans hx)
    have hlive := hfrom.value_eq
    rw [hfrom.last.live_eq, Stat.lastLive?_eq_none hnone, Option.getD_none] at hlive
    exact hlive

/-- The stat `x` is repeated, and its second occurrence has no live value: the range is
that of the second one, the value that of the first one. -/
theorem shown_value_of_repeated_stat :
    let r : Rule := { conditions := [{}], formats := ["#"], template := "\x7b0\x7d" }
    let t := ofEntries [{ ids := ["x"] }]
    let stats : List Stat := [⟨"x", 1, 2⟩, ⟨"x", 8, 13⟩]
    ∃ l, (t.lines stats (some [5]))[0]? = some l ∧
      ShownFrom stats [5] r l 0 (.plain 5) "x" 1 ⟨"x", 8, 13⟩ ∧
      r.shown? l 0 = some (.plain 5) := by
  intro r t stats
  have hlines : t.lines stats (some [5]) = [⟨0, { ids := ["x"] }, [8], [13], some [5]⟩] := by
    have hx : t.entryFor? "x" = some (0, { ids := ["x"] }) := by
      rw [entryFor?_eq]
      rfl
    simp only [lines, stats, Roll.align, Option.getD_some, List.foldl_cons, List.foldl_nil, place,
      Roll.id, hx]
    rfl
  have hl : (t.lines stats (some [5]))[0]? =
      some ⟨0, { ids := ["x"] }, [8], [13], some [5]⟩ := by
    rw [hlines]
    rfl
  have hlast : Stat.LastAt stats "x" 1 ⟨"x", 8, 13⟩ := by
    refine ⟨rfl, rfl, fun i hi s' hs' => ?_⟩
    have hlt := (List.getElem?_eq_some_iff.mp hs').1
    simp only [stats, List.length_cons, List.length_nil] at hlt
    omega
  have hfrom : ShownFrom stats [5] r ⟨0, { ids := ["x"] }, [8], [13], some [5]⟩ 0 (.plain 5) "x" 1
      ⟨"x", 8, 13⟩ := by
    refine ⟨rfl, hlast, rfl, rfl, by decide +kernel, ?_, by decide +kernel⟩
    simp [stats, r, Stat.lastLive?, Rule.transformed, Rule.handlersAt, Transform.applyAll]
  obtain ⟨-, hshown, -⟩ := shown_values_of_lines t stats [5] hl r 0
  exact ⟨_, hl, hfrom, (hshown (.plain 5)).mpr ⟨"x", 1, _, hfrom⟩⟩

/-- A missing live value counts as zero, and a transform may make it present. -/
theorem not_shown_only_from_live_values :
    ¬∀ (t : Table) (stats : List Stat) (given : List Double) (language : String) (l : Line)
      (r : Rule) (slot : Nat) (v : DisplayValue),
      l ∈ t.lines stats (some given) → l.rule? language = some r → r.shown? l slot = some v →
      ∃ (j : Nat) (s : Stat) (w : Double), stats[j]? = some s ∧ l.min slot = s.min ∧
        l.max slot = s.max ∧ given[j]? = some w ∧ v = r.transformed slot w := by
  intro h
  let r : Rule :=
    { conditions := [{}], handlers := [[.multiplicativeDamage]], formats := ["#"],
      template := "\x7b0\x7d" }
  let e : Entry := { ids := ["x"], phrases := Phrasebook.empty.insert "English" [r] }
  let t := ofEntries [e]
  have hlines : t.lines [⟨"x", 8, 13⟩] (some []) = [⟨0, e, [8], [13], some [0]⟩] := by
    have hx : t.entryFor? "x" = some (0, e) := by
      rw [entryFor?_eq]
      rfl
    simp only [lines, Roll.align, Option.getD_some, List.foldl_cons, List.foldl_nil, place,
      Roll.id, hx]
    rfl
  have hl : ⟨0, e, [8], [13], some [0]⟩ ∈ t.lines [⟨"x", 8, 13⟩] (some []) := by simp [hlines]
  have hrule : Line.rule? ⟨0, e, [8], [13], some [0]⟩ "English" = some r := by decide +kernel
  have hshown : r.shown? ⟨0, e, [8], [13], some [0]⟩ 0 = some (.plain 100) := by decide +kernel
  obtain ⟨j, s, w, -, -, -, hw, -⟩ := h t _ _ _ _ r 0 _ hl hrule hshown
  simp at hw

end Table

end StatProse
