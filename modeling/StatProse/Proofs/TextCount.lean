import StatProse.Proofs.NumberText
import StatProse.Proofs.Placeholder
import StatProse.Proofs.Span

/-!
# How many texts there are

A line gives one text more than its sentence has line breaks. Numbers hold none, so the
breaks are those of the rule's sentence and frames, and the rule is chosen by the minima.
So neither maxima nor live values nor an unbroken placeholder change the number of texts.
-/

namespace StatProse

def Unbroken (placeholder : Option String) : Prop := ∀ p, placeholder = some p → '\n' ∉ p.toList

theorem unbroken_none : Unbroken none := nofun

namespace Template

variable {token : List Char} {slots slots' : List (List Char)}

theorem count_fillFrame (h : '\n' ∉ token) (frame : List Char) :
    (fillFrame token frame).count '\n' = frame.count '\n' := by
  induction frame with
  | nil => rfl
  | cons c frame ih =>
    unfold fillFrame
    split
    next hc => simp [hc, List.count_append, List.count_eq_zero.mpr h]
    next => simp [List.count_cons, ih]

theorem Piece.count_fill_congr (h : slots.map (List.count '\n') = slots'.map (List.count '\n'))
    (p : Piece) : (p.fill slots).count '\n' = (p.fill slots').count '\n' := by
  cases p with
  | char c => rfl
  | marker digits =>
    have hslot := congrArg (·[digitsValue digits]?) h
    simp only [List.getElem?_map] at hslot
    cases hs : slots[digitsValue digits]? <;> cases hs' : slots'[digitsValue digits]? <;>
      simp_all [Piece.fill]

theorem count_fill_congr (h : slots.map (List.count '\n') = slots'.map (List.count '\n'))
    (template : List Char) :
    (fill slots template).count '\n' = (fill slots' template).count '\n' := by
  simp only [fill, List.count_flatMap, Function.comp_def, Piece.count_fill_congr h]

end Template

theorem newline_notMem_text (v : DisplayValue) : '\n' ∉ v.text :=
  fun h => (v.isNumberChar_of_mem_text h).ne_newline rfl

theorem newline_notMem_rangeToken {value : Option (List Char)} {min max : List Char}
    (hvalue : ∀ v, value = some v → '\n' ∉ v) (hmin : '\n' ∉ min) (hmax : '\n' ∉ max) :
    '\n' ∉ rangeToken value min max := by
  cases value with
  | none => simp [rangeToken, hmin, hmax]
  | some v => simp [rangeToken, hmin, hmax, hvalue v rfl]

namespace Rule

variable {r : Rule} {l : Line} {p? : Option (List Char)}

theorem newline_notMem_token (hp : ∀ p, p? = some p → '\n' ∉ p) (slot : Nat) :
    '\n' ∉ r.token l slot p? := by
  cases p? with
  | none =>
    rw [token_eq]
    split
    · refine newline_notMem_rangeToken (fun v hv => ?_) (newline_notMem_text _)
        (newline_notMem_text _)
      obtain ⟨shown, -, rfl⟩ := Option.map_eq_some_iff.mp hv
      exact newline_notMem_text shown
    · exact newline_notMem_text _
  | some p =>
    have hbreak := hp p rfl
    rw [token_some]
    split
    · refine newline_notMem_rangeToken (fun v hv => ?_) hbreak hbreak
      split at hv
      · exact Option.some.inj hv ▸ hbreak
      · cases hv
    · exact hbreak

def emptyFrame (r : Rule) (slot : Nat) : List Char :=
  if r.formatAt slot = hiddenFormat then [] else Template.fillFrame [] (r.formatAt slot).toList

/-- One more than the line breaks of the sentence without tokens. -/
def textCount (r : Rule) (slots : Nat) : Nat :=
  (Template.fill ((List.range slots).map r.emptyFrame) r.template.toList).count '\n' + 1

theorem count_slotText (hp : ∀ p, p? = some p → '\n' ∉ p) (slot : Nat) :
    (r.slotText l p? slot).count '\n' = (r.emptyFrame slot).count '\n' := by
  simp only [slotText, emptyFrame]
  split
  · rfl
  · rw [Template.count_fillFrame (newline_notMem_token hp slot),
      Template.count_fillFrame List.not_mem_nil]

theorem length_render {placeholder : Option String} (hp : Unbroken placeholder) :
    (r.render l placeholder).length = r.textCount l.entry.slotCount := by
  have heffective : ∀ p, effectivePlaceholder placeholder = some p → '\n' ∉ p := by
    intro p h
    obtain ⟨h, -⟩ := Option.filter_eq_some_iff.mp h
    obtain ⟨text, rfl, rfl⟩ := Option.map_eq_some_iff.mp h
    exact hp text rfl
  -- tokens have no line breaks, so the slots have those of their frames
  have hcounts : ((List.range l.entry.slotCount).map
        (r.slotText l (effectivePlaceholder placeholder))).map (List.count '\n') =
      ((List.range l.entry.slotCount).map r.emptyFrame).map (List.count '\n') := by
    simp only [List.map_map, Function.comp_def, count_slotText heffective]
  rw [render, List.length_map, length_splitAt, sentence, Template.count_fill_congr hcounts,
    textCount]

end Rule

namespace Line

variable {l l' : Line} {language : String}

def textCount (l : Line) (language : String) : Nat :=
  match l.rule? language with
  | some r => r.textCount l.entry.slotCount
  | none => 0

theorem length_render {placeholder : Option String} (hp : Unbroken placeholder) :
    (l.render language placeholder).length = l.textCount language := by
  unfold render textCount
  cases l.rule? language with
  | none => rfl
  | some r => exact r.length_render hp

theorem SameBound.textCount_eq (h : l.SameBound .lower l') :
    l.textCount language = l'.textCount language := by
  have hrule : l.rule? language = l'.rule? language := rule?_congr (by rw [h.entry]) h.bound
  rw [textCount, textCount, hrule, h.entry]

end Line

variable {lines lines' : List Line} {language : String} {placeholder placeholder' : Option String}

def textCount (language : String) : List Line → Nat
  | [] => 0
  | l :: lines => l.textCount language + textCount language lines

theorem length_renderLines (hp : Unbroken placeholder) :
    (renderLines lines language placeholder).length = textCount language lines := by
  induction lines with
  | nil => rfl
  | cons l lines ih =>
    simp only [renderLines, List.flatMap_cons, List.length_append] at ih ⊢
    rw [Line.length_render hp, ih, textCount]

theorem textCount_congr (h : List.Forall₂ (Line.SameBound .lower) lines lines') :
    textCount language lines = textCount language lines' := by
  induction h with
  | nil => rfl
  | cons hl _ ih => rw [textCount, textCount, hl.textCount_eq, ih]

namespace Describer

variable {d : Describer} {m m' low high : Modifier} {values values' : Option (List Double)}

theorem length_describe (hp : Unbroken placeholder) (h : d.overrides.get? m.type = none) :
    (d.describe m values placeholder).length =
      textCount d.language (d.table.lines m.stats values) := by
  simp only [describe, h, length_renderLines hp]

theorem length_describe_congr (htype : m.type = m'.type)
    (hids : m.stats.map (·.id) = m'.stats.map (·.id))
    (hmins : m.stats.map (·.min) = m'.stats.map (·.min))
    (hp : Unbroken placeholder) (hp' : Unbroken placeholder') :
    (d.describe m values placeholder).length = (d.describe m' values' placeholder').length := by
  unfold describe
  rw [htype]
  cases d.overrides.get? m'.type with
  | some texts => rfl
  | none =>
    have hlines := forall₂_sameBound_lines .lower d.table hids hmins values values'
    simp only [length_renderLines hp, length_renderLines hp', textCount_congr hlines]

theorem length_describeRange (hlow : d.overrides.get? low.type = none)
    (hhigh : d.overrides.get? high.type = none) :
    (d.describeRange low high).length = (d.describe low none none).length := by
  simp only [describeRange, override?_eq_none hlow hhigh, describe, hlow, spanTexts,
    length_renderLines unbroken_none, textCount_congr (forall₂_spanLines _ _)]

/-- Modifiers with equal types, ids and minima have equally many texts, whatever the maxima,
the live values and the placeholders are, as long as these hold no line break: those of the
rules that the minima select. A span has as many texts as its low tier, also if the tiers do
not line up. -/
theorem length_describe_of_minima (d : Describer) :
    (∀ (m m' : Modifier) values values' placeholder placeholder', m.type = m'.type →
      m.stats.map (·.id) = m'.stats.map (·.id) → m.stats.map (·.min) = m'.stats.map (·.min) →
      Unbroken placeholder → Unbroken placeholder' →
      (d.describe m values placeholder).length = (d.describe m' values' placeholder').length) ∧
    (∀ (m : Modifier) values placeholder, Unbroken placeholder →
      d.overrides.get? m.type = none → (d.describe m values placeholder).length =
        textCount d.language (d.table.lines m.stats values)) ∧
    ∀ low high : Modifier, d.overrides.get? low.type = none →
      d.overrides.get? high.type = none →
      (d.describeRange low high).length = (d.describe low none none).length := by
  refine ⟨?_, ?_, ?_⟩
  · intro m m' values values' placeholder placeholder' htype hids hmins hp hp'
    exact length_describe_congr htype hids hmins hp hp'
  · intro m values placeholder hp h
    exact length_describe hp h
  · intro low high hlow hhigh
    exact length_describeRange hlow hhigh

/-- A sentence with a line break, with other maxima, live values and placeholders, and tiers
that do not line up. -/
theorem length_describe_of_life :
    let broken : Rule :=
      { conditions := [{}, {}], formats := ["+#", "ignore"], template := "{0} to Life\nHidden" }
    let life : Entry :=
      { ids := ["life", "hidden"], phrases := Phrasebook.empty.insert defaultLanguage [broken] }
    let d : Describer := { table := .ofEntries [life, { ids := ["mana"] }], overrides := .builtin }
    let m : Modifier := { type := "Life", stats := [⟨"life", 5, 9⟩, ⟨"hidden", 1, 1⟩] }
    let m' : Modifier := { type := "Life", stats := [⟨"life", 5, 5⟩, ⟨"hidden", 1, 7⟩] }
    let other : Modifier := { type := "Mana", stats := [⟨"mana", 3, 4⟩, ⟨"life", 6, 8⟩] }
    m.type = m'.type ∧ m.stats.map (·.id) = m'.stats.map (·.id) ∧
    m.stats.map (·.min) = m'.stats.map (·.min) ∧ Unbroken (some "#") ∧ Unbroken none ∧
    d.describe m (some [7]) (some "#") = ["+#(#-#) to Life", "Hidden"] ∧
    (d.describe m (some [7]) (some "#")).length = (d.describe m' none none).length ∧
    (d.describe m (some [7]) (some "#")).length =
      textCount d.language (d.table.lines m.stats (some [7])) ∧
    d.overrides.get? m.type = none ∧ d.overrides.get? other.type = none ∧
    (d.describeRange m other).length = (d.describe m none none).length := by
  intro broken life d m m' other
  have hlife : d.table.entryFor? "life" = some (0, life) := by
    rw [Table.entryFor?_eq]
    rfl
  have hlines : d.table.lines m.stats (some [7]) = [⟨0, life, [5, 1], [9, 1], some [7, 0]⟩] := by
    simp only [Table.lines, m, Roll.align, Option.getD_some, List.foldl_cons, List.foldl_nil,
      Table.place, Roll.id, hlife]
    rfl
  have htexts : renderLines [⟨0, life, [5, 1], [9, 1], some [7, 0]⟩] d.language (some "#") =
      ["+#(#-#) to Life", "Hidden"] := by decide +kernel
  have hm : d.overrides.get? m.type = none := by
    simp [d, m, Overrides.builtin, Overrides.get?_insert]
  have hother : d.overrides.get? other.type = none := by
    simp [d, other, Overrides.builtin, Overrides.get?_insert]
  have hids : m.stats.map (·.id) = m'.stats.map (·.id) := by simp [m, m']
  have hmins : m.stats.map (·.min) = m'.stats.map (·.min) := by simp [m, m']
  have hsome : Unbroken (some "#") := by
    rintro p ⟨⟩
    decide
  obtain ⟨hdescribe, hcount, hrange⟩ := length_describe_of_minima d
  refine ⟨rfl, hids, hmins, hsome, unbroken_none, ?_, ?_, hcount m _ _ hsome hm, hm, hother,
    hrange m other hm hother⟩
  · simp only [describe, hm, hlines, htexts]
  · exact hdescribe m m' (some [7]) none (some "#") none rfl hids hmins hsome unbroken_none

end Describer

end StatProse
