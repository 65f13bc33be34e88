import StatProse.Proofs.LiningUp
import StatProse.Proofs.Slots
import StatProse.Proofs.Validation

/-!
# Lines of validated tables

Rendering reads a missing minimum as zero, a missing format as `#` and missing transforms as
none. With a validated table it never has to: all that the rules of a line ask for is there,
slot by slot. This also holds of a span, whose lines have the entries and the minima of the
low tier.
-/

namespace StatProse

/-- Whatever is read of a line and its rules to write the line is there. -/
structure Line.Covered (l : Line) (language : String) : Prop where
  mins : l.mins.length = l.entry.slotCount
  rule : ∀ r, l.rule? language = some r → r.Fits l.entry.slotCount
  tested : ∀ r ∈ l.entry.rulesFor language, ∀ slot < r.conditions.length,
    l.mins[slot]? = some (l.min slot)
  shown : ∀ r, l.rule? language = some r → ∀ slot < l.entry.slotCount,
    r.formats[slot]? = some (r.formatAt slot) ∧ r.handlers[slot]? = some (r.handlersAt slot)

theorem getElem?_eq_some_getD {α : Type} {xs : List α} {n : Nat} (h : n < xs.length)
    (default : α) : xs[n]? = some (xs[n]?.getD default) := by
  rw [List.getElem?_eq_getElem h, Option.getD_some]

variable {l low : Line} {language : String} {r : Rule} {slot : Nat}

theorem Rule.Fits.getElem?_formats {slots : Nat} (h : r.Fits slots) (hslot : slot < slots) :
    r.formats[slot]? = some (r.formatAt slot) :=
  getElem?_eq_some_getD (h.formats.symm ▸ hslot) _

theorem Rule.Fits.getElem?_handlers {slots : Nat} (h : r.Fits slots) (hslot : slot < slots) :
    r.handlers[slot]? = some (r.handlersAt slot) :=
  getElem?_eq_some_getD (h.handlers.symm ▸ hslot) _

namespace Line

theorem mem_rulesFor_of_rule? (h : l.rule? language = some r) : r ∈ l.entry.rulesFor language :=
  List.mem_of_find?_eq_some h

theorem covered_of_wellFormed (hentry : l.entry.WellFormed)
    (hmins : l.mins.length = l.entry.slotCount) (language : String) : l.Covered language where
  mins := hmins
  rule r hr := hentry.fits_of_mem_rulesFor (mem_rulesFor_of_rule? hr)
  tested r hr slot hslot := by
    have hfits := hentry.fits_of_mem_rulesFor hr
    exact getElem?_eq_some_getD (by rwa [hmins, ← hfits.conditions]) _
  shown r hr slot hslot := by
    have hfits := hentry.fits_of_mem_rulesFor (mem_rulesFor_of_rule? hr)
    exact ⟨hfits.getElem?_formats hslot, hfits.getElem?_handlers hslot⟩

end Line

namespace Table

variable {t : Table} {stats : List Stat} {values : Option (List Double)}

theorem wellFormed_of_mem_lines (hvalid : t.invalid? = none) (hl : l ∈ t.lines stats values) :
    l.entry.WellFormed := by
  obtain ⟨x, hfirst⟩ := isFirst_of_mem_lines hl
  exact invalid?_eq_none_iff.mp hvalid _ (List.mem_of_getElem? hfirst.found)

theorem length_mins_of_mem_lines (hl : l ∈ t.lines stats values) :
    l.mins.length = l.entry.slotCount := by
  obtain ⟨k, hk⟩ := List.mem_iff_getElem?.mp hl
  exact (sized_of_lines hk).mins

theorem covered_of_mem_lines (hvalid : t.invalid? = none) (hl : l ∈ t.lines stats values) :
    l.Covered language :=
  Line.covered_of_wellFormed (wellFormed_of_mem_lines hvalid hl) (length_mins_of_mem_lines hl) _

end Table

theorem exists_low_of_mem_spanLines {lows highs : List Line} (hl : l ∈ spanLines lows highs) :
    ∃ low ∈ lows, l.SameBound .lower low := by
  obtain ⟨hlength, hsame⟩ := forall₂_iff_getElem?.mp (forall₂_spanLines lows highs)
  obtain ⟨k, hk, rfl⟩ := List.getElem_of_mem hl
  have hlow : k < lows.length := hlength ▸ hk
  exact ⟨lows[k], List.getElem_mem hlow,
    hsame k _ _ (List.getElem?_eq_getElem hk) (List.getElem?_eq_getElem hlow)⟩

theorem Line.SameBound.covered (h : l.SameBound .lower low) (hlow : low.Covered language) :
    l.Covered language := by
  have hrule : l.rule? language = low.rule? language := rule?_congr (by rw [h.entry]) h.bound
  have hmins : l.mins = low.mins := h.bound
  constructor
  · rw [hmins, h.entry]
    exact hlow.mins
  · rw [hrule, h.entry]
    exact hlow.rule
  · rw [hmins, min_congr hmins, h.entry]
    exact hlow.tested
  · rw [hrule, h.entry]
    exact hlow.shown

namespace Describer

variable {d : Describer} {low high m : Modifier}

theorem describe_of_not_fixes (h : ¬d.Fixes m) (values : Option (List Double))
    (placeholder : Option String) :
    d.describe m values placeholder =
      renderLines (d.table.lines m.stats values) d.language placeholder := by
  simp only [describe, Option.not_isSome_iff_eq_none.mp h]

theorem describeRange_of_not_fixes (hlow : ¬d.Fixes low) (hhigh : ¬d.Fixes high) :
    d.describeRange low high =
      renderLines (spanLines (d.tierLines low) (d.tierLines high)) d.language none := by
  have hnone : d.override? low high = none :=
    override?_eq_none (Option.not_isSome_iff_eq_none.mp hlow)
      (Option.not_isSome_iff_eq_none.mp hhigh)
  simp only [describeRange, hnone]
  rfl

/-- With a validated table, the lines that texts are written from have all that their rules
ask for: a minimum for every condition that is tested, and a format and transforms for every
slot that is shown. -/
theorem lines_covered_of_valid (d : Describer) (hvalid : d.table.invalid? = none) :
    (∀ m values, (∀ l ∈ d.table.lines m.stats values, l.Covered d.language) ∧
      (¬d.Fixes m → ∀ placeholder, d.describe m values placeholder =
        renderLines (d.table.lines m.stats values) d.language placeholder)) ∧
    ∀ low high,
      (∀ l ∈ spanLines (d.tierLines low) (d.tierLines high), l.Covered d.language) ∧
      (¬d.Fixes low → ¬d.Fixes high →
        d.describeRange low high =
          renderLines (spanLines (d.tierLines low) (d.tierLines high)) d.language none ∧
        ∀ texts, d.describeRange? low high = .ok texts → texts =
          renderLines (spanLines (d.tierLines low) (d.tierLines high)) d.language none) := by
  constructor
  · intro m values
    exact ⟨fun l hl => Table.covered_of_mem_lines hvalid hl,
      fun h placeholder => describe_of_not_fixes h values placeholder⟩
  · intro low high
    refine ⟨fun l hl => ?_, fun hlow hhigh => ⟨describeRange_of_not_fixes hlow hhigh, ?_⟩⟩
    · obtain ⟨lowLine, hlowLine, hsame⟩ := exists_low_of_mem_spanLines hl
      exact hsame.covered (Table.covered_of_mem_lines hvalid hlowLine)
    · intro texts htexts
      rw [eq_describeRange_of_ok htexts, describeRange_of_not_fixes hlow hhigh]

/-- A valid table, one line of a modifier, and a span of tiers that do not line up. -/
theorem lines_covered_of_life :
    let one : Rule :=
      { conditions := [{}], handlers := [[]], formats := ["+#"], template := "{0} to Life" }
    let life : Entry :=
      { ids := ["life"], phrases := Phrasebook.empty.insert defaultLanguage [one] }
    let d : Describer := { table := .ofEntries [life, { ids := ["mana"] }], overrides := .builtin }
    let low : Modifier := { type := "Life", stats := [⟨"life", 5, 9⟩] }
    let high : Modifier := { type := "Mana", stats := [⟨"mana", 3, 4⟩, ⟨"life", 6, 8⟩] }
    let l : Line := ⟨0, life, [5], [9], none⟩
    d.table.invalid? = none ∧ ¬d.Fixes low ∧ ¬d.Fixes high ∧
    d.table.lines low.stats none = [l] ∧ l.rule? d.language = some one ∧ l.Covered d.language ∧
    d.describe low none none = renderLines [l] d.language none ∧
    (∀ l ∈ spanLines (d.tierLines low) (d.tierLines high), l.Covered d.language) ∧
    d.describeRange low high =
      renderLines (spanLines (d.tierLines low) (d.tierLines high)) d.language none := by
  intro one life d low high l
  have hvalid : d.table.invalid? = none := by decide +kernel
  have hlow : ¬d.Fixes low := by
    simp [Fixes, d, low, Overrides.builtin, Overrides.get?_insert]
  have hhigh : ¬d.Fixes high := by
    simp [Fixes, d, high, Overrides.builtin, Overrides.get?_insert]
  have hlife : d.table.entryFor? "life" = some (0, life) := by
    rw [Table.entryFor?_eq]
    rfl
  have hlines : d.table.lines low.stats none = [l] := by
    simp only [Table.lines, low, Roll.align, Option.getD_none, List.foldl_cons, List.foldl_nil,
      Table.place, Roll.id, hlife]
    rfl
  obtain ⟨hone, hspan⟩ := lines_covered_of_valid d hvalid
  obtain ⟨hcovered, htexts⟩ := hone low none
  obtain ⟨hspanned, hrange⟩ := hspan low high
  rw [hlines] at hcovered htexts
  refine ⟨hvalid, hlow, hhigh, hlines, by decide +kernel, hcovered l List.mem_cons_self,
    htexts hlow none, hspanned, (hrange hlow hhigh).1⟩

end Describer

end StatProse
