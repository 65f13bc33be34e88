import StatProse.Proofs.Span

/-!
# Tiers that line up

The strict range refuses tiers whose lines do not line up, and names the position where
they part. Otherwise it gives the same texts as the lenient range. Whether tiers line up
depends on their types and stat ids, not on numbers, and it is an equivalence between the
modifiers that have no fixed text.
-/

namespace StatProse

def DifferAt (lows highs : List Line) (n : Nat) : Prop :=
  ∃ l h, lows[n]? = some l ∧ highs[n]? = some h ∧ l.position ≠ h.position

/-- Where two lists part: at the first position where their entries differ or, if there is
none, where the shorter list ends. -/
inductive PartAt (lows highs : List Line) (n : Nat) : Prop
  | entries : DifferAt lows highs n → (∀ m < n, ¬DifferAt lows highs m) → PartAt lows highs n
  | lengths : (∀ m, ¬DifferAt lows highs m) → n = min lows.length highs.length →
      PartAt lows highs n

variable {l h : Line} {lows highs : List Line} {n : Nat}

@[simp] theorem not_differAt_nil_left : ¬DifferAt [] highs n := by
  rintro ⟨l, h, hl, -⟩
  simp at hl

@[simp] theorem not_differAt_nil_right : ¬DifferAt lows [] n := by
  rintro ⟨l, h, -, hh, -⟩
  simp at hh

@[simp] theorem differAt_zero : DifferAt (l :: lows) (h :: highs) 0 ↔ l.position ≠ h.position := by
  simp [DifferAt]

@[simp] theorem differAt_succ :
    DifferAt (l :: lows) (h :: highs) (n + 1) ↔ DifferAt lows highs n := by
  simp [DifferAt]

theorem PartAt.cons (hposition : l.position = h.position) (hn : PartAt lows highs n) :
    PartAt (l :: lows) (h :: highs) (n + 1) := by
  cases hn with
  | entries hdiffer hfirst =>
    refine .entries (differAt_succ.mpr hdiffer) fun m hm => ?_
    cases m with
    | zero => simp [hposition]
    | succ m => simpa using hfirst m (Nat.lt_of_succ_lt_succ hm)
  | lengths hnone hlength =>
    refine .lengths (fun m => ?_) (by simp [hlength, Nat.succ_min_succ])
    cases m with
    | zero => simp [hposition]
    | succ m => simpa using hnone m

/-! ## The search for a mismatch -/

theorem partAt_of_mismatch? (hn : mismatch? lows highs = some n) : PartAt lows highs n := by
  fun_induction mismatch? lows highs generalizing n with
  | case1 => cases hn
  | case2 h highs =>
    obtain rfl := Option.some.inj hn
    exact .lengths (fun m => not_differAt_nil_left) (by simp)
  | case3 l lows =>
    obtain rfl := Option.some.inj hn
    exact .lengths (fun m => not_differAt_nil_right) (by simp)
  | case4 l lows h highs hposition ih =>
    obtain ⟨m, hm, rfl⟩ := Option.map_eq_some_iff.mp hn
    exact (ih hm).cons hposition
  | case5 l lows h highs hposition =>
    obtain rfl := Option.some.inj hn
    exact .entries (differAt_zero.mpr hposition) fun m hm => absurd hm (Nat.not_lt_zero m)

theorem mismatch?_eq_none_iff :
    mismatch? lows highs = none ↔ lows.map Line.position = highs.map Line.position := by
  fun_induction mismatch? lows highs with
  | case1 => simp
  | case2 h highs => simp
  | case3 l lows => simp
  | case4 l lows h highs hposition ih => simp [hposition, ih]
  | case5 l lows h highs hposition => simp [hposition]

theorem map_position_eq_iff : lows.map Line.position = highs.map Line.position ↔
    lows.length = highs.length ∧ ∀ n, ¬DifferAt lows highs n := by
  constructor
  · intro heq
    refine ⟨by simpa using congrArg List.length heq, ?_⟩
    rintro n ⟨l, h, hl, hh, hne⟩
    have hn := congrArg (·[n]?) heq
    simp [hl, hh, hne] at hn
  · rintro ⟨hlength, hsame⟩
    refine List.ext_getElem (by simpa using hlength) fun n hl hh => ?_
    rw [List.getElem_map, List.getElem_map]
    by_contra hne
    rw [List.length_map] at hl hh
    exact hsame n ⟨_, _, List.getElem?_eq_getElem hl, List.getElem?_eq_getElem hh, hne⟩

theorem mismatch?_comm (lows highs : List Line) : mismatch? lows highs = mismatch? highs lows := by
  fun_induction mismatch? lows highs with
  | case1 => rfl
  | case2 h highs => rfl
  | case3 l lows => rfl
  | case4 l lows h highs hposition ih => rw [mismatch?, if_pos hposition.symm, ih]
  | case5 l lows h highs hposition => rw [mismatch?, if_neg (Ne.symm hposition)]

namespace Describer

def Fixes (d : Describer) (m : Modifier) : Prop := (d.overrides.get? m.type).isSome

def tierLines (d : Describer) (m : Modifier) : List Line := d.table.lines m.stats none

/-- The position at which the strict range refuses two tiers. -/
def refusal? (d : Describer) (low high : Modifier) : Option Nat :=
  match d.describeRange? low high with
  | .ok _ => none
  | .error mismatch => some mismatch.position

variable {d : Describer} {low high low' high' m : Modifier}

theorem describeRange?_of_fixes (hfixes : d.Fixes low ∨ d.Fixes high) :
    d.describeRange? low high = .ok (d.describeRange low high) := by
  have hsome : (d.override? low high).isSome := by
    rw [override?, Option.isSome_or, Bool.or_eq_true]
    exact hfixes
  obtain ⟨texts, htexts⟩ := Option.isSome_iff_exists.mp hsome
  simp only [describeRange?, describeRange, htexts]

theorem describeRange?_of_not_fixes (hlow : ¬d.Fixes low) (hhigh : ¬d.Fixes high) :
    d.describeRange? low high =
      match mismatch? (d.tierLines low) (d.tierLines high) with
      | some position => .error ⟨low.id, high.id, position⟩
      | none => .ok (d.describeRange low high) := by
  have hnone : d.override? low high = none :=
    override?_eq_none (Option.not_isSome_iff_eq_none.mp hlow)
      (Option.not_isSome_iff_eq_none.mp hhigh)
  simp only [describeRange?, describeRange, hnone]
  rfl

theorem refusal?_of_fixes (hfixes : d.Fixes low ∨ d.Fixes high) : d.refusal? low high = none := by
  rw [refusal?, describeRange?_of_fixes hfixes]

theorem refusal?_of_not_fixes (hlow : ¬d.Fixes low) (hhigh : ¬d.Fixes high) :
    d.refusal? low high = mismatch? (d.tierLines low) (d.tierLines high) := by
  rw [refusal?, describeRange?_of_not_fixes hlow hhigh]
  cases mismatch? (d.tierLines low) (d.tierLines high) <;> rfl

theorem eq_describeRange_of_ok {texts : List String} (h : d.describeRange? low high = .ok texts) :
    texts = d.describeRange low high := by
  by_cases hfixes : d.Fixes low ∨ d.Fixes high
  · rw [describeRange?_of_fixes hfixes] at h
    exact (Except.ok.inj h).symm
  · obtain ⟨hlow, hhigh⟩ := not_or.mp hfixes
    rw [describeRange?_of_not_fixes hlow hhigh] at h
    cases hm : mismatch? (d.tierLines low) (d.tierLines high) with
    | none =>
      rw [hm] at h
      exact (Except.ok.inj h).symm
    | some position =>
      rw [hm] at h
      cases h

theorem describeRange?_eq_error (hlow : ¬d.Fixes low) (hhigh : ¬d.Fixes high) {e : RangeMismatch}
    (h : d.describeRange? low high = .error e) :
    e.low = low.id ∧ e.high = high.id ∧
      mismatch? (d.tierLines low) (d.tierLines high) = some e.position := by
  rw [describeRange?_of_not_fixes hlow hhigh] at h
  cases hm : mismatch? (d.tierLines low) (d.tierLines high) with
  | none =>
    rw [hm] at h
    cases h
  | some position =>
    rw [hm] at h
    cases h
    exact ⟨rfl, rfl, rfl⟩

theorem exists_error_iff (hlow : ¬d.Fixes low) (hhigh : ¬d.Fixes high) :
    (∃ e, d.describeRange? low high = .error e) ↔
      (d.tierLines low).length ≠ (d.tierLines high).length ∨
        ∃ n, DifferAt (d.tierLines low) (d.tierLines high) n := by
  -- no mismatch is found exactly if the lines agree at all positions
  have hnone : mismatch? (d.tierLines low) (d.tierLines high) = none ↔
      (d.tierLines low).length = (d.tierLines high).length ∧
        ∀ n, ¬DifferAt (d.tierLines low) (d.tierLines high) n :=
    mismatch?_eq_none_iff.trans map_position_eq_iff
  rw [describeRange?_of_not_fixes hlow hhigh]
  cases hm : mismatch? (d.tierLines low) (d.tierLines high) with
  | none =>
    obtain ⟨hlength, hsame⟩ := hnone.mp hm
    constructor
    · rintro ⟨e, he⟩
      cases he
    · rintro (hne | ⟨n, hn⟩)
      · exact absurd hlength hne
      · exact absurd hn (hsame n)
  | some position =>
    refine ⟨fun _ => ?_, fun _ => ⟨_, rfl⟩⟩
    by_contra hno
    obtain ⟨hlength, hsame⟩ := not_or.mp hno
    rw [hnone.mpr ⟨not_not.mp hlength, not_exists.mp hsame⟩] at hm
    cases hm

theorem position_eq_iff_entry_eq {l h : Line} (hl : l ∈ d.tierLines low)
    (hh : h ∈ d.tierLines high) : l.position = h.position ↔ l.entry = h.entry := by
  obtain ⟨x, hx⟩ := Table.isFirst_of_mem_lines hl
  obtain ⟨y, hy⟩ := Table.isFirst_of_mem_lines hh
  exact hx.position_eq_iff_eq hy

/-! ## Types and ids decide -/

theorem fixes_congr {d' : Describer} (hoverrides : d'.overrides = d.overrides) {m' : Modifier}
    (htype : m'.type = m.type) : d'.Fixes m' ↔ d.Fixes m := by
  rw [Fixes, Fixes, hoverrides, htype]

theorem refusal?_congr {d' : Describer} (htable : d'.table = d.table)
    (hoverrides : d'.overrides = d.overrides) (hlow : low'.type = low.type)
    (hhigh : high'.type = high.type) (hlows : low'.stats.map (·.id) = low.stats.map (·.id))
    (hhighs : high'.stats.map (·.id) = high.stats.map (·.id)) :
    d'.refusal? low' high' = d.refusal? low high := by
  have hlow := fixes_congr hoverrides hlow
  have hhigh := fixes_congr hoverrides hhigh
  by_cases hfixes : d.Fixes low ∨ d.Fixes high
  · rw [refusal?_of_fixes hfixes, refusal?_of_fixes (hfixes.imp hlow.mpr hhigh.mpr)]
  · obtain ⟨hlow', hhigh'⟩ := not_or.mp hfixes
    rw [refusal?_of_not_fixes hlow' hhigh',
      refusal?_of_not_fixes (hlow.not.mpr hlow') (hhigh.not.mpr hhigh'), tierLines, tierLines,
      tierLines, tierLines, htable]
    -- the lines of either tier keep their positions in the table
    refine mismatch?_congr (fun l l' h h' hl hh => ?_) (aligned_lines d.table hlows none none)
      (aligned_lines d.table hhighs none none)
    rw [hl.position, hh.position]

theorem refusal?_comm (d : Describer) (low high : Modifier) :
    d.refusal? low high = d.refusal? high low := by
  by_cases hfixes : d.Fixes low ∨ d.Fixes high
  · rw [refusal?_of_fixes hfixes, refusal?_of_fixes hfixes.symm]
  · obtain ⟨hlow, hhigh⟩ := not_or.mp hfixes
    rw [refusal?_of_not_fixes hlow hhigh, refusal?_of_not_fixes hhigh hlow, mismatch?_comm]

theorem refusal?_eq_none_iff (hlow : ¬d.Fixes low) (hhigh : ¬d.Fixes high) :
    d.refusal? low high = none ↔
      (d.tierLines low).map Line.position = (d.tierLines high).map Line.position := by
  rw [refusal?_of_not_fixes hlow hhigh, mismatch?_eq_none_iff]

theorem equivalence_refusal? (d : Describer) :
    Equivalence (fun low high : { m // ¬d.Fixes m } => d.refusal? low high = none) where
  refl m := (refusal?_eq_none_iff m.2 m.2).mpr rfl
  symm h := (refusal?_comm d _ _).trans h
  trans := by
    intro low m high hlow hhigh
    rw [refusal?_eq_none_iff low.2 m.2] at hlow
    rw [refusal?_eq_none_iff m.2 high.2] at hhigh
    exact (refusal?_eq_none_iff low.2 high.2).mpr (hlow.trans hhigh)

/-- The strict range gives the texts of the lenient one or refuses two tiers, and it refuses
those whose lines part, at the position where they part. Whether and where it refuses hangs
on the table, the types and the stat ids, and not to refuse is an equivalence. -/
theorem strict_range_of_lining_up (d : Describer) :
    (∀ low high, d.Fixes low ∨ d.Fixes high → ∃ texts, d.describeRange? low high = .ok texts) ∧
    (∀ low high, ¬d.Fixes low → ¬d.Fixes high →
      ((∃ e, d.describeRange? low high = .error e) ↔
        (d.tierLines low).length ≠ (d.tierLines high).length ∨
          ∃ n, DifferAt (d.tierLines low) (d.tierLines high) n) ∧
      ∀ e, d.describeRange? low high = .error e → e.low = low.id ∧ e.high = high.id ∧
        PartAt (d.tierLines low) (d.tierLines high) e.position) ∧
    (∀ low high, ∀ l ∈ d.tierLines low, ∀ h ∈ d.tierLines high,
      (l.position = h.position ↔ l.entry = h.entry)) ∧
    (∀ low high texts, d.describeRange? low high = .ok texts →
      texts = d.describeRange low high) ∧
    (∀ (d' : Describer) (low high low' high' : Modifier),
      d'.table = d.table → d'.overrides = d.overrides →
      low'.type = low.type → high'.type = high.type →
      low'.stats.map (·.id) = low.stats.map (·.id) →
      high'.stats.map (·.id) = high.stats.map (·.id) →
      d'.refusal? low' high' = d.refusal? low high) ∧
    (∀ low high, d.refusal? low high = d.refusal? high low) ∧
    Equivalence (fun low high : { m // ¬d.Fixes m } => d.refusal? low high = none) := by
  refine ⟨?_, ?_, ?_, fun low high texts h => eq_describeRange_of_ok h, ?_, refusal?_comm d,
    equivalence_refusal? d⟩
  · intro low high hfixes
    exact ⟨_, describeRange?_of_fixes hfixes⟩
  · intro low high hlow hhigh
    refine ⟨exists_error_iff hlow hhigh, fun e he => ?_⟩
    obtain ⟨helow, hehigh, hposition⟩ := describeRange?_eq_error hlow hhigh he
    exact ⟨helow, hehigh, partAt_of_mismatch? hposition⟩
  · intro low high l hl h hh
    exact position_eq_iff_entry_eq hl hh
  · intro d' low high low' high' htable hoverrides hlow hhigh hlows hhighs
    exact refusal?_congr htable hoverrides hlow hhigh hlows hhighs

/-- Tiers of which one has a line that the other has not, and a type with a fixed text. -/
theorem strict_range_refuses_longer_tier :
    let life : Entry := { ids := ["life"] }
    let fire : Entry := { ids := ["fire"] }
    let d : Describer := { table := .ofEntries [life, fire], overrides := .builtin }
    let german : Describer := { d with language := "German" }
    let low : Modifier := { id := "Low", type := "Life", stats := [⟨"life", 5, 9⟩] }
    let high : Modifier :=
      { id := "High", type := "Life", stats := [⟨"life", 15, 19⟩, ⟨"fire", 1, 2⟩] }
    let other : Modifier := { type := "Life", stats := [⟨"life", 0, 1⟩, ⟨"fire", 7, 7⟩] }
    let socket : Modifier := { type := "AbyssJewelSocket" }
    (d.Fixes low ∨ d.Fixes socket) ∧
    (∃ texts, d.describeRange? low socket = .ok texts ∧ texts = d.describeRange low socket) ∧
    ¬d.Fixes low ∧ ¬d.Fixes high ∧
    d.describeRange? low high = .error ⟨"Low", "High", 1⟩ ∧
    PartAt (d.tierLines low) (d.tierLines high) 1 ∧
    (∃ l ∈ d.tierLines low, ∃ h ∈ d.tierLines high, l.position = h.position ∧ l.entry = h.entry) ∧
    other.type = high.type ∧ other.stats.map (·.id) = high.stats.map (·.id) ∧
    german.refusal? low other = d.refusal? low high := by
  intro life fire d german low high other socket
  have hlow : ¬d.Fixes low := by
    simp [Fixes, d, low, Overrides.builtin, Overrides.get?_insert]
  have hhigh : ¬d.Fixes high := by
    simp [Fixes, d, high, Overrides.builtin, Overrides.get?_insert]
  have hsocket : d.Fixes low ∨ d.Fixes socket := by
    simp [Fixes, d, socket, Overrides.builtin, Overrides.get?_insert]
  have hlife : d.table.entryFor? "life" = some (0, life) := by
    rw [Table.entryFor?_eq]
    rfl
  have hfire : d.table.entryFor? "fire" = some (1, fire) := by
    rw [Table.entryFor?_eq]
    rfl
  have hlows : d.tierLines low = [⟨0, life, [5], [9], none⟩] := by
    simp only [tierLines, Table.lines, low, Roll.align, Option.getD_none, List.foldl_cons,
      List.foldl_nil, Table.place, Roll.id, hlife]
    rfl
  have hhighs : d.tierLines high =
      [⟨0, life, [15], [19], none⟩, ⟨1, fire, [1], [2], none⟩] := by
    simp only [tierLines, Table.lines, high, Roll.align, Option.getD_none, List.foldl_cons,
      List.foldl_nil, Table.place, Roll.id, hlife, hfire]
    rfl
  have hrefused : d.describeRange? low high = .error ⟨"Low", "High", 1⟩ := by
    rw [describeRange?_of_not_fixes hlow hhigh, hlows, hhighs]
    rfl
  obtain ⟨hfixed, hopen, hentry, hlenient, hsame, -, -⟩ := strict_range_of_lining_up d
  obtain ⟨texts, htexts⟩ := hfixed low socket hsocket
  obtain ⟨-, -, hpart⟩ := (hopen low high hlow hhigh).2 _ hrefused
  have hids : other.stats.map (·.id) = high.stats.map (·.id) := by simp [other, high]
  have hl : ⟨0, life, [5], [9], none⟩ ∈ d.tierLines low := by simp [hlows]
  have hh : ⟨0, life, [15], [19], none⟩ ∈ d.tierLines high := by simp [hhighs]
  exact ⟨hsocket, ⟨texts, htexts, hlenient low socket texts htexts⟩, hlow, hhigh, hrefused, hpart,
    ⟨_, hl, _, hh, rfl, (hentry low high _ hl _ hh).mp rfl⟩, rfl, hids,
    hsame german low high low other rfl rfl rfl rfl rfl hids⟩

end Describer

end StatProse
