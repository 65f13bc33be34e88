import StatProse.Proofs.Alignment

/-!
# The span of two tiers

Tiers with the same sequence of stat ids have lines that line up. Their span reads as one
modifier whose stats have the minima of the low tier and the maxima of the high tier.
-/

namespace StatProse

/-- The stat from the minimum of one stat to the maximum of another. -/
def Stat.span (low high : Stat) : Stat := ⟨low.id, low.min, high.max⟩

def Roll.span (low high : Roll) : Roll := ⟨low.stat.span high.stat, low.live⟩

def Line.span (low high : Line) : Line := { low with maxs := high.maxs }

def Line.spanWith (low : Line) : Option Line → Line
  | some high => low.span high
  | none => low

variable {t : Table} {live : Bool} {l h : Line} {lows highs : List Line} {r s : Roll}
  {rolls others : List Roll} {stats stats' : List Stat}

@[simp] theorem spanLines_nil : spanLines [] highs = [] := rfl

@[simp] theorem spanLines_cons :
    spanLines (l :: lows) (h :: highs) = l.span h :: spanLines lows highs := rfl

@[simp] theorem Line.span_entry : (l.span h).entry = l.entry := rfl

@[simp] theorem Roll.span_id : (r.span s).id = r.id := rfl

theorem getElem?_spanLines (lows highs : List Line) (k : Nat) :
    (spanLines lows highs)[k]? = lows[k]?.map (·.spanWith highs[k]?) := by
  fun_induction spanLines lows highs generalizing k with
  | case1 highs => rfl
  | case2 lows hne => simp [Line.spanWith]
  | case3 l lows h highs ih =>
    cases k with
    | zero => rfl
    | succ k => simpa using ih k

theorem forall₂_spanLines (lows highs : List Line) :
    List.Forall₂ (Line.SameBound .lower) (spanLines lows highs) lows := by
  fun_induction spanLines lows highs with
  | case1 highs => exact .nil
  | case2 lows hne => exact List.forall₂_same.mpr fun l _ => ⟨rfl, rfl⟩
  | case3 l lows h highs ih => exact .cons ⟨rfl, rfl⟩ ih

theorem Line.SameEntry.fill_span (hl : l.SameEntry h) (hid : r.id = s.id) :
    (l.fill r).span (h.fill s) = (l.span h).fill (r.span s) := by
  have hr : l.entry.slotOf? r.id = h.entry.slotOf? s.id := by rw [hl.entry, hid]
  -- all three stats have the same slot, so all three lines are filled there or none is
  have hspan : (l.span h).entry.slotOf? (r.span s).id = h.entry.slotOf? s.id := hr
  cases hs : h.entry.slotOf? s.id with
  | none =>
    rw [hs] at hr hspan
    rw [fill_of_slotOf?_eq_none hs, fill_of_slotOf?_eq_none hr, fill_of_slotOf?_eq_none hspan]
  | some slot =>
    rw [hs] at hr hspan
    rw [fill_of_slotOf? hs, fill_of_slotOf? hr, fill_of_slotOf? hspan]
    rfl

theorem spanLines_place (ha : Aligned lows highs) (hid : r.id = s.id) :
    spanLines (t.place live lows r) (t.place live highs s) =
      t.place live (spanLines lows highs) (r.span s) := by
  induction ha with
  | nil =>
    cases hf : t.entryFor? s.id with
    | none => simp [Table.place, hid, hf]
    | some found =>
      have hl := Line.sameEntry_blank found.1 found.2 live live
      simp only [Table.place, hid, hf, Roll.span_id, spanLines_nil, spanLines_cons,
        hl.fill_span hid]
      rfl
  | @cons l h lows highs hl hrest ih =>
    by_cases hm : h.entry.mentions s.id = true
    · simp only [Table.place, spanLines_cons, Line.span_entry, Roll.span_id, hid, hl.entry, hm,
        if_true, hl.fill_span hid]
    · simp only [Table.place, spanLines_cons, Line.span_entry, Roll.span_id, hid, hl.entry, hm]
      simp [ih]

/-- Two runs over stats with the same ids are one run over their spans. -/
theorem spanLines_foldl_place (ha : Aligned lows highs) (hids : SameIds rolls others) :
    spanLines (rolls.foldl (t.place live) lows) (others.foldl (t.place live) highs) =
      (List.zipWith Roll.span rolls others).foldl (t.place live) (spanLines lows highs) := by
  induction hids generalizing lows highs with
  | nil => rfl
  | cons hid _ ih =>
    simp only [List.foldl_cons, List.zipWith_cons_cons]
    rw [ih (ha.place hid), spanLines_place ha hid]

theorem zipWith_span_align (stats stats' : List Stat) :
    List.zipWith Roll.span (Roll.align stats []) (Roll.align stats' []) =
      Roll.align (List.zipWith Stat.span stats stats') [] := by
  induction stats generalizing stats' with
  | nil => rfl
  | cons s stats ih =>
    cases stats' with
    | nil => rfl
    | cons s' stats' => simp [Roll.align, Roll.span, ih]

theorem spanLines_lines (t : Table) (hids : stats.map (·.id) = stats'.map (·.id)) :
    spanLines (t.lines stats none) (t.lines stats' none) =
      t.lines (List.zipWith Stat.span stats stats') none := by
  simp only [Table.lines, Option.getD_none, Option.isSome_none]
  rw [spanLines_foldl_place .nil (sameIds_align hids _ _), zipWith_span_align]
  rfl

theorem zipWith_span_self (stats : List Stat) : List.zipWith Stat.span stats stats = stats := by
  simp [List.zipWith_self, Stat.span]

namespace Describer

theorem override?_eq_none {t : Describer} {low high : Modifier}
    (hlow : t.overrides.get? low.type = none) (hhigh : t.overrides.get? high.type = none) :
    t.override? low high = none := by
  simp [override?, hlow, hhigh]

theorem describe_span (t : Describer) {low high m : Modifier}
    (hids : low.stats.map (·.id) = high.stats.map (·.id))
    (hlow : t.overrides.get? low.type = none) (htype : m.type = low.type)
    (hstats : m.stats = List.zipWith Stat.span low.stats high.stats) :
    t.describe m none none =
      t.spanTexts (t.table.lines low.stats none) (t.table.lines high.stats none) := by
  rw [spanTexts, spanLines_lines t.table hids, describe, htype, hlow, hstats]

theorem describeRange_of_sameIds (t : Describer) {low high m : Modifier}
    (hids : low.stats.map (·.id) = high.stats.map (·.id))
    (hlow : t.overrides.get? low.type = none) (hhigh : t.overrides.get? high.type = none)
    (htype : m.type = low.type) (hstats : m.stats = List.zipWith Stat.span low.stats high.stats) :
    t.describeRange low high = t.describe m none none ∧
      t.describeRange? low high = .ok (t.describe m none none) := by
  have hline := (aligned_lines t.table hids none none).mismatch?_eq_none
  rw [describe_span t hids hlow htype hstats]
  simp [describeRange, describeRange?, override?_eq_none hlow hhigh, hline]

/-- The span of two tiers with the same stat ids reads as the spanning modifier, and it is
not refused. A modifier is its own span. -/
theorem describeRange_eq_describe (t : Describer) :
    (∀ low high m : Modifier,
      low.stats.map (·.id) = high.stats.map (·.id) →
      t.overrides.get? low.type = none → t.overrides.get? high.type = none →
      m.type = low.type → m.stats = List.zipWith Stat.span low.stats high.stats →
      t.describeRange low high = t.describe m none none ∧
        t.describeRange? low high = .ok (t.describe m none none)) ∧
    ∀ m : Modifier, t.overrides.get? m.type = none →
      t.describeRange m m = t.describe m none none := by
  constructor
  · intro low high m hids hlow hhigh htype hstats
    exact describeRange_of_sameIds t hids hlow hhigh htype hstats
  · intro m hm
    exact (describeRange_of_sameIds t rfl hm hm rfl (zipWith_span_self m.stats).symm).1

/-- Tiers that carry one stat twice. -/
theorem describeRange_of_repeated_stat :
    let plain : Rule := { conditions := [{}], formats := ["+#"], template := "{0} to maximum Life" }
    let life : Entry :=
      { ids := ["life"], phrases := Phrasebook.empty.insert defaultLanguage [plain] }
    let t : Describer := { table := .ofEntries [life], overrides := .builtin }
    let low : Modifier := { type := "Life", stats := [⟨"life", 5, 9⟩, ⟨"life", 1, 2⟩] }
    let high : Modifier := { type := "Mixed", stats := [⟨"life", 15, 19⟩, ⟨"life", 11, 12⟩] }
    let m : Modifier := { type := "Life", stats := [⟨"life", 5, 19⟩, ⟨"life", 1, 12⟩] }
    low.stats.map (·.id) = high.stats.map (·.id) ∧
      t.overrides.get? low.type = none ∧ t.overrides.get? high.type = none ∧
      m.type = low.type ∧ m.stats = List.zipWith Stat.span low.stats high.stats ∧
      t.describe m none none = ["+(1-12) to maximum Life"] ∧
      t.describeRange low high = t.describe m none none ∧
      t.describeRange? low high = .ok (t.describe m none none) ∧
      t.describeRange low low = t.describe low none none := by
  intro plain life t low high m
  have hlow : t.overrides.get? low.type = none := by
    simp [t, low, Overrides.builtin, Overrides.get?_insert]
  have hhigh : t.overrides.get? high.type = none := by
    simp [t, high, Overrides.builtin, Overrides.get?_insert]
  have hids : low.stats.map (·.id) = high.stats.map (·.id) := by simp [low, high]
  have hstats : m.stats = List.zipWith Stat.span low.stats high.stats := by
    simp [m, low, high, Stat.span]
  have htexts : t.describe m none none = ["+(1-12) to maximum Life"] := by
    have hlife : t.table.entryFor? "life" = some (0, life) := by
      rw [Table.entryFor?_eq]
      rfl
    have hlines : t.table.lines m.stats none = [⟨0, life, [1], [12], none⟩] := by
      simp only [Table.lines, m, Roll.align, Option.getD_none, List.foldl_cons, List.foldl_nil,
        Table.place, Roll.id, hlife]
      rfl
    have hm : t.overrides.get? m.type = none := hlow
    simp only [describe, hm, hlines]
    decide +kernel
  obtain ⟨hrange, hstrict⟩ :=
    (describeRange_eq_describe t).1 low high m hids hlow hhigh rfl hstats
  exact ⟨hids, hlow, hhigh, rfl, hstats, htexts, hrange, hstrict,
    (describeRange_eq_describe t).2 low hlow⟩

end Describer

end StatProse
