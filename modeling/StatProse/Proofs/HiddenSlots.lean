import StatProse.Proofs.Markers

/-!
# Hidden slots

A rule shows a slot if its format is not the hidden one and has a `#`, and its sentence has a
marker of the slot. Of a slot that is not shown only the minimum counts, since it may decide
which rule is selected; the maximum and the live value leave no trace.
-/

namespace StatProse

namespace Template

/-- Somewhere in a template stands a marker that reads as the number of a slot. -/
def Marks (template : List Char) (slot : Nat) : Prop :=
  ∃ digits, IsNumeral digits ∧ digitsValue digits = slot ∧
    Piece.written (.marker digits) <:+: template

def Piece.reads (slot : Nat) : Piece → Bool
  | .char _ => false
  | .marker digits => digitsValue digits == slot

variable {slots slots' : List (List Char)} {template digits held cs front : List Char}
  {state : Option (List Char)} {slot : Nat}

theorem not_mem_loose : .marker digits ∉ loose held := by
  simp [loose]

-- the induction is on the scan: the digits that are held back may become a marker
theorem isNumeral_of_mem_scan (hheld : ∀ d ∈ state.getD [], d.isDigit = true)
    (h : .marker digits ∈ scan state cs) : IsNumeral digits := by
  fun_induction scan state cs with
  | case1 => cases h
  | case2 held => exact absurd h not_mem_loose
  | case3 cs ih => exact ih (by simp) h
  | case4 c cs hopen ih => exact ih hheld (by simpa using h)
  | case5 held c cs hdigit ih =>
    exact ih (by simpa [or_imp, forall_and, hdigit] using hheld) h
  | case6 held c cs hdigit hclose ih =>
    rcases List.mem_cons.mp h with heq | h
    · cases heq
      exact ⟨hclose.2, hheld⟩
    · exact ih (by simp) h
  | case7 held cs hdigit hclose ih =>
    exact ih (by simp) ((List.mem_append.mp h).resolve_left not_mem_loose)
  | case8 held c cs hdigit hclose hopen ih =>
    have h := (List.mem_append.mp h).resolve_left not_mem_loose
    exact ih (by simp) (by simpa using h)

-- what is held back before the marker is let go of at its brace
theorem mem_scan_of_isNumeral (hn : IsNumeral digits) (front rest : List Char) :
    .marker digits ∈ scan state (front ++ Piece.written (.marker digits) ++ rest) := by
  induction front generalizing state with
  | nil =>
    have hmarker := scan_of_numeral [] rest hn
    cases state with
    | none => simp [Piece.written, scan, hmarker]
    | some held => simp [Piece.written, scan, hmarker]
  | cons c front ih =>
    simp only [List.append_assoc] at ih
    cases state with
    | none =>
      simp only [List.cons_append, List.append_assoc, scan]
      split
      · exact ih
      · exact List.mem_cons_of_mem _ ih
    | some held =>
      simp only [List.cons_append, List.append_assoc, scan]
      split
      · exact ih
      · split
        · exact List.mem_cons_of_mem _ ih
        · split
          · exact List.mem_append_right _ ih
          · exact List.mem_append_right _ (List.mem_cons_of_mem _ ih)

theorem marker_mem_pieces_iff : .marker digits ∈ pieces template ↔
    IsNumeral digits ∧ Piece.written (.marker digits) <:+: template := by
  constructor
  · intro h
    refine ⟨isNumeral_of_mem_scan (by simp) h, ?_⟩
    -- the pieces before and after the marker make up the text around it
    obtain ⟨before, after, hpieces⟩ := List.append_of_mem h
    refine ⟨before.flatMap Piece.written, after.flatMap Piece.written, ?_⟩
    rw [← flatMap_written_pieces template, hpieces]
    simp
  · rintro ⟨hn, front, rest, rfl⟩
    exact mem_scan_of_isNumeral hn front rest

theorem marks_iff : Marks template slot ↔ (pieces template).any (Piece.reads slot) = true := by
  simp only [Marks, List.any_eq_true]
  constructor
  · rintro ⟨digits, hn, hslot, hwritten⟩
    exact ⟨_, marker_mem_pieces_iff.mpr ⟨hn, hwritten⟩, by simpa [Piece.reads] using hslot⟩
  · rintro ⟨p, hp, hreads⟩
    cases p with
    | char c => cases hreads
    | marker digits =>
      obtain ⟨hn, hwritten⟩ := marker_mem_pieces_iff.mp hp
      exact ⟨digits, hn, by simpa [Piece.reads] using hreads, hwritten⟩

instance (template : List Char) (slot : Nat) : Decidable (Marks template slot) :=
  decidable_of_iff _ marks_iff.symm

theorem fill_congr (h : ∀ slot, Marks template slot → slots[slot]? = slots'[slot]?) :
    fill slots template = fill slots' template := by
  unfold fill
  refine List.flatMap_congr fun p hp => ?_
  cases p with
  | char c => rfl
  | marker digits =>
    obtain ⟨hn, hwritten⟩ := marker_mem_pieces_iff.mp hp
    rw [Piece.fill, Piece.fill, h _ ⟨digits, hn, rfl, hwritten⟩]

theorem fillFrame_of_notMem {frame : List Char} (h : '#' ∉ frame) (token : List Char) :
    fillFrame token frame = frame := by
  induction frame with
  | nil => rfl
  | cons c frame ih =>
    rw [List.mem_cons, not_or] at h
    rw [fillFrame, if_neg (Ne.symm h.1), ih h.2]

end Template

structure Rule.Shows (r : Rule) (slot : Nat) : Prop where
  format : r.formatAt slot ≠ Rule.hiddenFormat
  token : '#' ∈ (r.formatAt slot).toList
  marker : Template.Marks r.template.toList slot

instance (r : Rule) (slot : Nat) : Decidable (r.Shows slot) :=
  decidable_of_iff (r.formatAt slot ≠ Rule.hiddenFormat ∧ '#' ∈ (r.formatAt slot).toList ∧
      Template.Marks r.template.toList slot)
    ⟨fun ⟨format, token, marker⟩ => ⟨format, token, marker⟩, fun h => ⟨h.format, h.token, h.marker⟩⟩

/-- Lines whose maxima and live values differ only in slots that the rule of the first does
not show. -/
def Line.SameShown (language : String) (l l' : Line) : Prop :=
  ∀ r, l.rule? language = some r → ∀ slot < l.entry.slotCount, r.Shows slot →
    l.max slot = l'.max slot ∧ l.value? slot = l'.value? slot

variable {language : String} {t : Table} {l l' : Line} {r : Rule} {slot : Nat}
  {stats stats' : List Stat} {values values' : Option (List Double)}

namespace Rule

theorem slotText_of_not_shows (hmarker : Template.Marks r.template.toList slot)
    (h : ¬r.Shows slot) (placeholder : Option (List Char)) :
    r.slotText l placeholder slot = r.slotText l' placeholder slot := by
  unfold slotText
  by_cases hformat : r.formatAt slot = hiddenFormat
  · rw [if_pos hformat, if_pos hformat]
  · have htoken : '#' ∉ (r.formatAt slot).toList := fun htoken => h ⟨hformat, htoken, hmarker⟩
    rw [if_neg hformat, if_neg hformat, Template.fillFrame_of_notMem htoken,
      Template.fillFrame_of_notMem htoken]

theorem sentence_of_shown (hentry : l.entry = l'.entry) (hmins : l.mins = l'.mins)
    (h : ∀ slot < l.entry.slotCount, r.Shows slot →
      l.max slot = l'.max slot ∧ l.value? slot = l'.value? slot)
    (placeholder : Option (List Char)) :
    r.sentence l placeholder = r.sentence l' placeholder := by
  rw [sentence, sentence, ← hentry]
  refine Template.fill_congr fun slot hmarker => ?_
  rw [List.getElem?_map, List.getElem?_map]
  by_cases hslot : slot < l.entry.slotCount
  · rw [List.getElem?_range hslot, Option.map_some, Option.map_some]
    congr 1
    by_cases hshows : r.Shows slot
    · obtain ⟨hmax, hvalue⟩ := h slot hslot hshows
      exact slotText_congr (by rw [Line.min_congr hmins]) hmax hvalue placeholder
    · exact slotText_of_not_shows hmarker hshows placeholder
  · rw [List.getElem?_eq_none (by simpa using hslot)]
    rfl

end Rule

theorem Line.SameShown.render_eq (h : l.SameShown language l') (hlower : l.SameBound .lower l')
    (placeholder : Option String) :
    l.render language placeholder = l'.render language placeholder := by
  have hrule : l.rule? language = l'.rule? language :=
    rule?_congr (by rw [hlower.entry]) hlower.bound
  exact render_congr hrule fun r hr =>
    Rule.sentence_of_shown hlower.entry hlower.bound (h r hr) _

namespace Table

theorem renderLines_of_sameShown (hids : stats.map (·.id) = stats'.map (·.id))
    (hmins : stats.map (·.min) = stats'.map (·.min))
    (h : ∀ (k : Nat) l l', (t.lines stats values)[k]? = some l →
      (t.lines stats' values')[k]? = some l' → l.SameShown language l')
    (placeholder : Option String) :
    renderLines (t.lines stats values) language placeholder =
      renderLines (t.lines stats' values') language placeholder := by
  obtain ⟨hlength, hlower⟩ :=
    forall₂_iff_getElem?.mp (forall₂_sameBound_lines .lower t hids hmins values values')
  refine renderLines_congr (fun _ _ hline => hline)
    (forall₂_iff_getElem?.mpr ⟨hlength, fun k l l' hl hl' => ?_⟩)
  exact (h k l l' hl hl').render_eq (hlower k l l' hl hl') placeholder

end Table

namespace Describer

/-- Modifiers with equal types, ids and minima have equal texts if the maxima and the live
values of their lines differ only in slots that are not shown. -/
theorem describe_hides_slots (d : Describer) {m m' : Modifier}
    {values values' : Option (List Double)} (htype : m.type = m'.type)
    (hids : m.stats.map (·.id) = m'.stats.map (·.id))
    (hmins : m.stats.map (·.min) = m'.stats.map (·.min))
    (h : ∀ (k : Nat) l l', (d.table.lines m.stats values)[k]? = some l →
      (d.table.lines m'.stats values')[k]? = some l' → l.SameShown d.language l')
    (placeholder : Option String) :
    d.describe m values placeholder = d.describe m' values' placeholder := by
  unfold describe
  rw [htype, Table.renderLines_of_sameShown hids hmins h]

/-- Three slots are hidden: one by its format, one for want of a `#`, one for want of a
marker. -/
theorem describe_hides_three_slots :
    let plain : Rule :=
      { conditions := [{}, {}, {}, {}], formats := ["+#", "ignore", "some", "#"]
        template := "\x7b0\x7d to Life\x7b1\x7d, \x7b02\x7d\x7b3" }
    let life : Entry :=
      { ids := ["life", "a", "b", "c"]
        phrases := Phrasebook.empty.insert defaultLanguage [plain] }
    let d : Describer := { table := .ofEntries [life], overrides := .builtin }
    let m : Modifier :=
      { type := "Life", stats := [⟨"life", 5, 9⟩, ⟨"a", 1, 1⟩, ⟨"b", 2, 2⟩, ⟨"c", 3, 3⟩] }
    let m' : Modifier :=
      { type := "Life", stats := [⟨"life", 5, 9⟩, ⟨"a", 1, 7⟩, ⟨"b", 2, 8⟩, ⟨"c", 3, .nan⟩] }
    m.type = m'.type ∧ m.stats.map (·.id) = m'.stats.map (·.id) ∧
    m.stats.map (·.min) = m'.stats.map (·.min) ∧
    (∀ (k : Nat) l l', (d.table.lines m.stats (some [6]))[k]? = some l →
      (d.table.lines m'.stats (some [6, 4, 5, 6]))[k]? = some l' →
      l.SameShown d.language l') ∧
    renderLines (d.table.lines m.stats (some [6])) d.language none =
      ["+6(5-9) to Life, some\x7b3"] ∧
    d.describe m (some [6]) none = d.describe m' (some [6, 4, 5, 6]) none := by
  intro plain life d m m'
  have hlife : d.table.entryFor? "life" = some (0, life) := by
    rw [Table.entryFor?_eq]
    rfl
  have hlines : d.table.lines m.stats (some [6]) =
      [⟨0, life, [5, 1, 2, 3], [9, 1, 2, 3], some [6, 0, 0, 0]⟩] := by
    simp only [Table.lines, m, Roll.align, Option.getD_some, List.foldl_cons, List.foldl_nil,
      Table.place, Roll.id, hlife]
    rfl
  have hlines' : d.table.lines m'.stats (some [6, 4, 5, 6]) =
      [⟨0, life, [5, 1, 2, 3], [9, 7, 8, .nan], some [6, 4, 5, 6]⟩] := by
    simp only [Table.lines, m', Roll.align, Option.getD_some, List.foldl_cons, List.foldl_nil,
      Table.place, Roll.id, hlife]
    rfl
  have htype : m.type = m'.type := rfl
  have hids : m.stats.map (·.id) = m'.stats.map (·.id) := by simp [m, m']
  have hmins : m.stats.map (·.min) = m'.stats.map (·.min) := by simp [m, m']
  have hrule : Line.rule? ⟨0, life, [5, 1, 2, 3], [9, 1, 2, 3], some [6, 0, 0, 0]⟩ d.language =
      some plain := by decide +kernel
  have hfirst : ∀ slot < 4, plain.Shows slot → slot = 0 := by decide +kernel
  have hshown : ∀ (k : Nat) l l', (d.table.lines m.stats (some [6]))[k]? = some l →
      (d.table.lines m'.stats (some [6, 4, 5, 6]))[k]? = some l' →
      l.SameShown d.language l' := by
    intro k l l' hl hl' r hr slot hslot hshows
    rw [hlines] at hl
    rw [hlines'] at hl'
    obtain rfl := List.mem_singleton.mp (List.mem_of_getElem? hl)
    obtain rfl := List.mem_singleton.mp (List.mem_of_getElem? hl')
    obtain rfl := Option.some.inj (hrule.symm.trans hr)
    obtain rfl := hfirst slot hslot hshows
    exact ⟨by simp [Line.max], by simp [Line.value?]⟩
  have htexts : renderLines (d.table.lines m.stats (some [6])) d.language none =
      ["+6(5-9) to Life, some\x7b3"] := by
    rw [hlines]
    decide +kernel
  exact ⟨htype, hids, hmins, hshown, htexts,
    describe_hides_slots d htype hids hmins hshown none⟩

end Describer

end StatProse
