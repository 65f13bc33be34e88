import StatProse.Proofs.Coverage

/-!
# The sizes of a span's lines

The lines of a tier have one number per slot. But a line of a span takes all its maxima from
the line of the high tier at its position, so it has as many maxima as that line's entry has
slots, and a slot past their end has the maximum zero. Hence all lines of a span have the sizes
of their entries exactly if paired entries have equally many slots, as in tiers that line up.
-/

namespace StatProse

namespace Line

/-- A line of the size of its entry, none of whose maxima is read where there is none. -/
structure Whole (l : Line) : Prop where
  sized : l.Sized
  maxs : ∀ slot < l.entry.slotCount, l.maxs[slot]? = some (l.max slot)

variable {l low high : Line} {slot : Nat}

theorem Sized.getElem?_maxs (h : l.Sized) (hslot : slot < l.entry.slotCount) :
    l.maxs[slot]? = some (l.max slot) :=
  getElem?_eq_some_getD (h.maxs.symm ▸ hslot) 0

theorem Sized.max_of_le (h : l.Sized) (hslot : l.entry.slotCount ≤ slot) :
    l.maxs[slot]? = none ∧ l.max slot = 0 := by
  have hnone : l.maxs[slot]? = none := List.getElem?_eq_none (h.maxs.trans_le hslot)
  exact ⟨hnone, by rw [Line.max, hnone, Option.getD_none]⟩

theorem Sized.whole (h : l.Sized) : l.Whole := ⟨h, fun _ hslot => h.getElem?_maxs hslot⟩

theorem whole_iff_sized : l.Whole ↔ l.Sized := ⟨Whole.sized, Sized.whole⟩

theorem Sized.span_iff (hlow : low.Sized) (hhigh : high.Sized) :
    (low.span high).Sized ↔ high.entry.slotCount = low.entry.slotCount := by
  constructor
  · intro h
    exact hhigh.maxs.symm.trans h.maxs
  · intro heq
    exact ⟨hlow.mins, hhigh.maxs.trans heq, hlow.values⟩

end Line

namespace Describer

def rangeLines (d : Describer) (low high : Modifier) : List Line :=
  spanLines (d.tierLines low) (d.tierLines high)

variable {d : Describer} {low high : Modifier} {l h : Line} {k : Nat}

theorem getElem?_rangeLines (d : Describer) (low high : Modifier) (k : Nat) :
    (d.rangeLines low high)[k]? =
      (d.tierLines low)[k]?.map (·.spanWith (d.tierLines high)[k]?) :=
  getElem?_spanLines _ _ k

theorem sized_rangeLines_iff (d : Describer) (low high : Modifier) :
    (∀ l ∈ d.rangeLines low high, l.Sized) ↔
      ∀ (k : Nat) l h, (d.tierLines low)[k]? = some l → (d.tierLines high)[k]? = some h →
        h.entry.slotCount = l.entry.slotCount := by
  constructor
  · intro hsized k l h hl hh
    have hspan : (d.rangeLines low high)[k]? = some (l.span h) := by
      rw [getElem?_rangeLines, hl, hh]
      rfl
    exact ((Table.sized_of_lines hl).span_iff (Table.sized_of_lines hh)).mp
      (hsized _ (List.mem_of_getElem? hspan))
  · intro hslots l hl
    obtain ⟨k, hk⟩ := List.mem_iff_getElem?.mp hl
    rw [getElem?_rangeLines] at hk
    obtain ⟨own, hown, rfl⟩ := Option.map_eq_some_iff.mp hk
    -- without a partner a line keeps its own maxima
    cases hh : (d.tierLines high)[k]? with
    | none => exact Table.sized_of_lines hown
    | some h =>
      exact ((Table.sized_of_lines hown).span_iff (Table.sized_of_lines hh)).mpr
        (hslots k own h hown hh)

theorem slotCount_eq_of_mismatch? (hline : mismatch? (d.tierLines low) (d.tierLines high) = none)
    (hl : (d.tierLines low)[k]? = some l) (hh : (d.tierLines high)[k]? = some h) :
    h.entry.slotCount = l.entry.slotCount := by
  obtain ⟨-, hsame⟩ := map_position_eq_iff.mp (mismatch?_eq_none_iff.mp hline)
  -- lines that line up stand for the same position, and so for the same entry
  have hposition : l.position = h.position := by
    by_contra hne
    exact hsame k ⟨l, h, hl, hh, hne⟩
  rw [(position_eq_iff_entry_eq (List.mem_of_getElem? hl) (List.mem_of_getElem? hh)).mp hposition]

theorem sized_rangeLines_of_ok (hlow : ¬d.Fixes low) (hhigh : ¬d.Fixes high) {texts : List String}
    (h : d.describeRange? low high = .ok texts) : ∀ l ∈ d.rangeLines low high, l.Sized := by
  have hline : mismatch? (d.tierLines low) (d.tierLines high) = none := by
    rw [← refusal?_of_not_fixes hlow hhigh, refusal?, h]
  exact (sized_rangeLines_iff d low high).mpr fun k l h hl hh =>
    slotCount_eq_of_mismatch? hline hl hh

/-- A range is written from lines of the size of their entries, and without a maximum that is
missing, if and only if paired entries have equally many slots; the strict range is written
from such lines only. In any range the minima have the size of the entry. The maxima have the
size of the partner's entry if there is a partner, and past their end a slot has zero. -/
theorem whole_rangeLines_iff (d : Describer) (low high : Modifier) :
    (¬d.Fixes low → ¬d.Fixes high →
      d.describeRange low high = renderLines (d.rangeLines low high) d.language none ∧
      ∀ texts, d.describeRange? low high = .ok texts →
        texts = renderLines (d.rangeLines low high) d.language none ∧
        ∀ l ∈ d.rangeLines low high, l.Whole) ∧
    ((∀ l ∈ d.rangeLines low high, l.Whole) ↔
      ∀ (k : Nat) l h, (d.tierLines low)[k]? = some l → (d.tierLines high)[k]? = some h →
        h.entry.slotCount = l.entry.slotCount) ∧
    ∀ (k : Nat) l, (d.rangeLines low high)[k]? = some l →
      l.mins.length = l.entry.slotCount ∧
      ((d.tierLines high)[k]? = none → l.Whole) ∧
      ∀ h, (d.tierLines high)[k]? = some h → l.maxs.length = h.entry.slotCount ∧
        (∀ slot < h.entry.slotCount, l.maxs[slot]? = some (h.max slot)) ∧
        ∀ slot ≥ h.entry.slotCount, l.maxs[slot]? = none ∧ l.max slot = 0 := by
  simp only [Line.whole_iff_sized]
  refine ⟨fun hlow hhigh => ⟨describeRange_of_not_fixes hlow hhigh, fun texts htexts => ?_⟩,
    sized_rangeLines_iff d low high, fun k l hl => ?_⟩
  · exact ⟨(eq_describeRange_of_ok htexts).trans (describeRange_of_not_fixes hlow hhigh),
      sized_rangeLines_of_ok hlow hhigh htexts⟩
  · rw [getElem?_rangeLines] at hl
    obtain ⟨own, hown, rfl⟩ := Option.map_eq_some_iff.mp hl
    have hsized := Table.sized_of_lines hown
    cases hh : (d.tierLines high)[k]? with
    | none => exact ⟨hsized.mins, fun _ => hsized, nofun⟩
    | some partner =>
      have hpartner := Table.sized_of_lines hh
      refine ⟨hsized.mins, nofun, fun h heq => ?_⟩
      obtain rfl := Option.some.inj heq
      exact ⟨hpartner.maxs, fun slot hslot => hpartner.getElem?_maxs hslot,
        fun slot hslot => hpartner.max_of_le hslot⟩

namespace Tiers

def damageEntry : Entry where
  ids := ["least", "most"]
  phrases := Phrasebook.empty.insert defaultLanguage
    [{ conditions := [{}, {}], formats := ["#", "#"], template := "Adds {0} to {1} Damage" }]

def lifeEntry : Entry := { ids := ["life"] }

def describer : Describer :=
  { table := .ofEntries [damageEntry, lifeEntry], overrides := .builtin }

def damage : Modifier := { type := "Damage", stats := [⟨"least", 8, 13⟩, ⟨"most", 20, 24⟩] }

def life : Modifier := { type := "Life", stats := [⟨"life", 50, 60⟩] }

theorem not_fixes_damage : ¬describer.Fixes damage := by
  simp [Fixes, describer, damage, Overrides.builtin, Overrides.get?_insert]

theorem not_fixes_life : ¬describer.Fixes life := by
  simp [Fixes, describer, life, Overrides.builtin, Overrides.get?_insert]

theorem tierLines_damage :
    describer.tierLines damage = [⟨0, damageEntry, [8, 20], [13, 24], none⟩] := by
  have hleast : describer.table.entryFor? "least" = some (0, damageEntry) := by
    rw [Table.entryFor?_eq]
    rfl
  simp only [tierLines, Table.lines, damage, Roll.align, Option.getD_none, List.foldl_cons,
    List.foldl_nil, Table.place, Roll.id, hleast]
  rfl

theorem tierLines_life : describer.tierLines life = [⟨1, lifeEntry, [50], [60], none⟩] := by
  have hlife : describer.table.entryFor? "life" = some (1, lifeEntry) := by
    rw [Table.entryFor?_eq]
    rfl
  simp only [tierLines, Table.lines, life, Roll.align, Option.getD_none, List.foldl_cons,
    List.foldl_nil, Table.place, Roll.id, hlife]
  rfl

theorem rangeLines_damage_life :
    describer.rangeLines damage life = [⟨0, damageEntry, [8, 20], [60], none⟩] := by
  rw [rangeLines, tierLines_damage, tierLines_life]
  rfl

end Tiers

open Tiers in
theorem whole_rangeLines_of_damage :
    let l : Line := ⟨0, damageEntry, [8, 20], [60], none⟩
    let h : Line := ⟨1, lifeEntry, [50], [60], none⟩
    ¬describer.Fixes damage ∧
    (∃ texts, describer.describeRange? damage damage = .ok texts) ∧
    (∀ l ∈ describer.rangeLines damage damage, l.Whole) ∧
    (describer.rangeLines damage life)[0]? = some l ∧
    (describer.tierLines life)[0]? = some h ∧
    l.maxs.length = h.entry.slotCount ∧ l.maxs[1]? = none ∧ l.max 1 = 0 := by
  intro l h
  obtain ⟨hwritten, -, -⟩ := whole_rangeLines_iff describer damage damage
  obtain ⟨-, -, hsizes⟩ := whole_rangeLines_iff describer damage life
  have hline : mismatch? (describer.tierLines damage) (describer.tierLines damage) = none := by
    rw [tierLines_damage]
    rfl
  have hok : describer.describeRange? damage damage =
      .ok (describer.describeRange damage damage) := by
    rw [describeRange?_of_not_fixes not_fixes_damage not_fixes_damage, hline]
  have hl : (describer.rangeLines damage life)[0]? = some l := by rw [rangeLines_damage_life]; rfl
  have hh : (describer.tierLines life)[0]? = some h := by rw [tierLines_life]; rfl
  obtain ⟨-, -, hpartner⟩ := hsizes 0 l hl
  obtain ⟨hlength, -, hpast⟩ := hpartner h hh
  obtain ⟨hnone, hzero⟩ := hpast 1 (by decide)
  exact ⟨not_fixes_damage, ⟨_, hok⟩,
    ((hwritten not_fixes_damage not_fixes_damage).2 _ hok).2, hl, hh, hlength, hnone, hzero⟩

open Tiers in
/-- A range whose second slot has no maximum, and shows zero in its place. -/
theorem not_whole_rangeLines :
    (¬∀ (d : Describer) (low high : Modifier), ¬d.Fixes low → ¬d.Fixes high →
      ∀ l ∈ d.rangeLines low high, l.mins.length = l.entry.slotCount ∧
        l.maxs.length = l.entry.slotCount) ∧
    (¬∀ (d : Describer) (low high : Modifier), ¬d.Fixes low → ¬d.Fixes high →
      ∀ l ∈ d.rangeLines low high, ∀ slot < l.entry.slotCount,
        l.maxs[slot]? = some (l.max slot)) ∧
    describer.describeRange damage life = ["Adds (8-60) to (20-0) Damage"] := by
  have hl : ⟨0, damageEntry, [8, 20], [60], none⟩ ∈ describer.rangeLines damage life := by
    simp [rangeLines_damage_life]
  refine ⟨fun h => ?_, fun h => ?_, ?_⟩
  · have hsizes := h describer damage life not_fixes_damage not_fixes_life _ hl
    exact absurd hsizes.2 (by decide)
  · have hmaxs := h describer damage life not_fixes_damage not_fixes_life _ hl 1 (by decide)
    cases hmaxs
  · rw [describeRange_of_not_fixes not_fixes_damage not_fixes_life, ← rangeLines,
      rangeLines_damage_life]
    decide +kernel

end Describer

end StatProse
