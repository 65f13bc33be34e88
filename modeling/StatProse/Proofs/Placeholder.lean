import StatProse.Proofs.Alignment
import StatProse.Proofs.LiveValues

/-!
# Placeholders hide numbers

Under a placeholder a line shows which rule it has and which of its slots are ranges, and
whether there are live values, but no number. So modifiers with equal types and ids whose
lines agree in these have equal texts, and nothing in a live list shows.
-/

namespace StatProse

/-- Lines with equal rules and ranges in the same slots, as far as the rule shows these. -/
structure Line.SameShape (language : String) (l l' : Line) : Prop where
  rule : l.rule? language = l'.rule? language
  ranged : ∀ r, l.rule? language = some r →
    ∀ slot < l.entry.slotCount, r.formatAt slot ≠ Rule.hiddenFormat →
      (r.Ranged slot (l.min slot) (l.max slot) ↔ r.Ranged slot (l'.min slot) (l'.max slot))

structure Line.SameBounds (l l' : Line) : Prop where
  entry : l.entry = l'.entry
  mins : l.mins = l'.mins
  maxs : l.maxs = l'.maxs

variable {language : String} {t : Table} {l l' : Line} {stats stats' : List Stat}
  {values values' : Option (List Double)}

theorem effectivePlaceholder_none : effectivePlaceholder none = none := rfl

theorem effectivePlaceholder_empty : effectivePlaceholder (some "") = none := rfl

theorem effectivePlaceholder_some {p : String} (hp : p ≠ "") :
    effectivePlaceholder (some p) = some p.toList := by
  simp [effectivePlaceholder, hp]

namespace Rule

theorem token_some (r : Rule) (l : Line) (slot : Nat) (p : List Char) :
    r.token l slot (some p) =
      if r.Ranged slot (l.min slot) (l.max slot) then
        rangeToken (if l.values.isSome then some p else none) p p
      else p := by
  have hvalue : (l.value? slot).map (fun _ => p) = if l.values.isSome then some p else none := by
    cases hl : l.values <;> simp [Line.value?, hl]
  simp only [token, hvalue]
  by_cases h : r.Ranged slot (l.min slot) (l.max slot)
  · rw [if_pos h]
    exact if_neg h
  · rw [if_neg h]
    exact if_pos (not_not.mp h)

theorem sentence_congr {r : Rule} {p : List Char} (hentry : l.entry = l'.entry)
    (hvalues : l.values.isSome = l'.values.isSome)
    (hranged : ∀ slot < l.entry.slotCount, r.formatAt slot ≠ hiddenFormat →
      (r.Ranged slot (l.min slot) (l.max slot) ↔ r.Ranged slot (l'.min slot) (l'.max slot))) :
    r.sentence l (some p) = r.sentence l' (some p) := by
  have hslots : ∀ slot ∈ List.range l.entry.slotCount,
      r.slotText l (some p) slot = r.slotText l' (some p) slot := by
    intro slot hslot
    unfold slotText
    by_cases hformat : r.formatAt slot = hiddenFormat
    · rw [if_pos hformat, if_pos hformat]
    · have h := hranged slot (List.mem_range.mp hslot) hformat
      rw [if_neg hformat, if_neg hformat, token_some, token_some, hvalues]
      simp only [h]
  rw [sentence, sentence, ← hentry, List.map_congr_left hslots]

end Rule

namespace Line

theorem SameShape.render_eq {p : String} (hp : p ≠ "") (h : l.SameShape language l')
    (hentry : l.entry = l'.entry) (hvalues : l.values.isSome = l'.values.isSome) :
    l.render language (some p) = l'.render language (some p) := by
  refine render_congr h.rule fun r hr => ?_
  rw [effectivePlaceholder_some hp]
  exact Rule.sentence_congr hentry hvalues (h.ranged r hr)

theorem SameBounds.sameShape (h : l.SameBounds l') : l.SameShape language l' := by
  refine ⟨rule?_congr (by rw [h.entry]) h.mins, fun r _ slot _ _ => ?_⟩
  rw [min_congr h.mins, max_congr h.maxs]

end Line

namespace Table

theorem sameBounds_lines (t : Table) (stats : List Stat) (values values' : Option (List Double)) :
    List.Forall₂ Line.SameBounds (t.lines stats values) (t.lines stats values') := by
  have hsame (b : Bound) :
      List.Forall₂ (Line.SameBound b) (t.lines stats values) (t.lines stats values') :=
    forall₂_sameBound_lines b t rfl rfl values values'
  refine forall₂_iff_getElem?.mpr ⟨(hsame .lower).length_eq, fun k l l' hl hl' => ?_⟩
  have hmins := (forall₂_iff_getElem?.mp (hsame .lower)).2 k l l' hl hl'
  have hmaxs := (forall₂_iff_getElem?.mp (hsame .upper)).2 k l l' hl hl'
  exact ⟨hmins.entry, hmins.bound, hmaxs.bound⟩

theorem renderLines_of_sameShape {p : String} (hp : p ≠ "")
    (hids : stats.map (·.id) = stats'.map (·.id)) (hvalues : values.isSome = values'.isSome)
    (h : ∀ (k : Nat) l l', (t.lines stats values)[k]? = some l →
      (t.lines stats' values')[k]? = some l' → l.SameShape language l') :
    renderLines (t.lines stats values) language (some p) =
      renderLines (t.lines stats' values') language (some p) := by
  have haligned := aligned_lines t hids values values'
  refine renderLines_congr (fun _ _ hline => hline) (forall₂_iff_getElem?.mpr
    ⟨haligned.length_eq, fun k l l' hl hl' => ?_⟩)
  have hentry := ((forall₂_iff_getElem?.mp haligned).2 k l l' hl hl').entry
  refine (h k l l' hl hl').render_eq hp hentry ?_
  rw [values_isSome_of_lines hl, values_isSome_of_lines hl', hvalues]

end Table

namespace Describer

variable {d : Describer} {m m' : Modifier} {p : String}

theorem describe_of_sameShape (hp : p ≠ "") (htype : m.type = m'.type)
    (hids : m.stats.map (·.id) = m'.stats.map (·.id)) (hvalues : values.isSome = values'.isSome)
    (h : ∀ (k : Nat) l l', (d.table.lines m.stats values)[k]? = some l →
      (d.table.lines m'.stats values')[k]? = some l' → l.SameShape d.language l') :
    d.describe m values (some p) = d.describe m' values' (some p) := by
  unfold describe
  rw [htype, Table.renderLines_of_sameShape hp hids hvalues h]

theorem describe_of_values (hp : p ≠ "") (hvalues : values.isSome = values'.isSome) :
    d.describe m values (some p) = d.describe m values' (some p) := by
  refine describe_of_sameShape hp rfl rfl hvalues fun k l l' hl hl' => ?_
  have hbounds := Table.sameBounds_lines d.table m.stats values values'
  exact ((forall₂_iff_getElem?.mp hbounds).2 k l l' hl hl').sameShape

theorem describe_of_effectivePlaceholder {p? p?' : Option String}
    (h : effectivePlaceholder p? = effectivePlaceholder p?') :
    d.describe m values p? = d.describe m values p?' := by
  simp only [describe, renderLines, Line.render, Rule.render, h]

/-- With a placeholder, modifiers with equal types and ids have equal texts if their lines
have equal rules and ranges in the same slots. Live values show only in that there are any,
and an empty placeholder is none. -/
theorem describe_hides_numbers (d : Describer) :
    (∀ p m m' values values', p ≠ "" → m.type = m'.type →
      m.stats.map (·.id) = m'.stats.map (·.id) → values.isSome = values'.isSome →
      (∀ (k : Nat) l l', (d.table.lines m.stats values)[k]? = some l →
        (d.table.lines m'.stats values')[k]? = some l' → l.SameShape d.language l') →
      d.describe m values (some p) = d.describe m' values' (some p)) ∧
    (∀ p m values values', p ≠ "" → values.isSome = values'.isSome →
      d.describe m values (some p) = d.describe m values' (some p)) ∧
    ∀ m values, d.describe m values (some "") = d.describe m values none := by
  refine ⟨?_, ?_, ?_⟩
  · intro p m m' values values' hp htype hids hvalues h
    exact describe_of_sameShape hp htype hids hvalues h
  · intro p m values values' hp hvalues
    exact describe_of_values hp hvalues
  · intro m values
    exact describe_of_effectivePlaceholder effectivePlaceholder_empty

/-- Life differs in its numbers, and the slot that is not shown is a range once only. -/
theorem describe_hides_life :
    let plain : Rule :=
      { conditions := [{}, {}], formats := ["+#", "ignore"], template := "\x7b0\x7d to Life" }
    let life : Entry :=
      { ids := ["life", "hidden"], phrases := Phrasebook.empty.insert defaultLanguage [plain] }
    let d : Describer := { table := .ofEntries [life], overrides := .builtin }
    let m : Modifier := { type := "Life", stats := [⟨"life", 5, 9⟩, ⟨"hidden", 1, 1⟩] }
    let m' : Modifier := { type := "Life", stats := [⟨"life", 15, 19⟩, ⟨"hidden", 2, 7⟩] }
    "#" ≠ "" ∧ m.type = m'.type ∧ m.stats.map (·.id) = m'.stats.map (·.id) ∧
    (some ([] : List Double)).isSome = (some [16, 3, 8]).isSome ∧
    (∀ (k : Nat) l l', (d.table.lines m.stats (some []))[k]? = some l →
      (d.table.lines m'.stats (some [16, 3, 8]))[k]? = some l' → l.SameShape d.language l') ∧
    renderLines (d.table.lines m.stats (some [])) d.language (some "#") = ["+#(#-#) to Life"] ∧
    d.describe m (some []) (some "#") = d.describe m' (some [16, 3, 8]) (some "#") ∧
    d.describe m (some []) (some "#") = d.describe m (some [7]) (some "#") ∧
    d.describe m none (some "") = d.describe m none none := by
  intro plain life d m m'
  have hlife : d.table.entryFor? "life" = some (0, life) := by
    rw [Table.entryFor?_eq]
    rfl
  have hlines : d.table.lines m.stats (some []) =
      [⟨0, life, [5, 1], [9, 1], some [0, 0]⟩] := by
    simp only [Table.lines, m, Roll.align, Option.getD_some, List.foldl_cons, List.foldl_nil,
      Table.place, Roll.id, hlife]
    rfl
  have hlines' : d.table.lines m'.stats (some [16, 3, 8]) =
      [⟨0, life, [15, 2], [19, 7], some [16, 3]⟩] := by
    simp only [Table.lines, m', Roll.align, Option.getD_some, List.foldl_cons, List.foldl_nil,
      Table.place, Roll.id, hlife]
    rfl
  have hids : m.stats.map (·.id) = m'.stats.map (·.id) := by simp [m, m']
  have hrule : Line.rule? ⟨0, life, [5, 1], [9, 1], some [0, 0]⟩ d.language = some plain := by
    decide +kernel
  have hrule' : Line.rule? ⟨0, life, [15, 2], [19, 7], some [16, 3]⟩ d.language = some plain := by
    decide +kernel
  have hshape : ∀ (k : Nat) l l', (d.table.lines m.stats (some []))[k]? = some l →
      (d.table.lines m'.stats (some [16, 3, 8]))[k]? = some l' → l.SameShape d.language l' := by
    intro k l l' hl hl'
    rw [hlines] at hl
    rw [hlines'] at hl'
    obtain rfl := List.mem_singleton.mp (List.mem_of_getElem? hl)
    obtain rfl := List.mem_singleton.mp (List.mem_of_getElem? hl')
    refine ⟨hrule.trans hrule'.symm, fun r hr slot hslot hformat => ?_⟩
    obtain rfl := Option.some.inj (hrule.symm.trans hr)
    have hslot : slot < 2 := hslot
    obtain rfl | rfl : slot = 0 ∨ slot = 1 := by omega
    · exact iff_of_true (by decide +kernel) (by decide +kernel)
    · exact absurd rfl hformat
  have htexts : renderLines (d.table.lines m.stats (some [])) d.language (some "#") =
      ["+#(#-#) to Life"] := by
    rw [hlines]
    decide +kernel
  obtain ⟨hsame, hlive, hempty⟩ := describe_hides_numbers d
  exact ⟨by decide, rfl, hids, rfl, hshape, htexts,
    hsame "#" m m' _ _ (by decide) rfl hids rfl hshape, hlive "#" m _ _ (by decide) rfl,
    hempty m none⟩

end Describer

end StatProse
