import StatProse.Proofs.FirstEntries
import StatProse.Proofs.Span

/-!
# Edited entries

The entries of a table are edited where they stand, and keep their ids. Then each modifier has
the lines that it had, with the edited entries. So the texts stay what they are if no line
reads differently with its edited entry.
-/

namespace StatProse

/-- A change of entries, which may depend on their positions but leaves them their ids. -/
structure EntryEdit where
  apply : Nat → Entry → Entry
  ids_apply : ∀ position e, (apply position e).ids = e.ids

def Line.edit (f : EntryEdit) (l : Line) : Line := { l with entry := f.apply l.position l.entry }

def Table.edit (t : Table) (f : EntryEdit) : Table := ofEntries (t.entries.mapIdx f.apply)

variable {f : EntryEdit} {t : Table} {l : Line} {lows highs : List Line} {language : String}

namespace EntryEdit

@[simp] theorem mentions_apply (f : EntryEdit) (position : Nat) (e : Entry) (x : String) :
    (f.apply position e).mentions x = e.mentions x := by
  rw [Entry.mentions, Entry.mentions, f.ids_apply]

@[simp] theorem slotOf?_apply (f : EntryEdit) (position : Nat) (e : Entry) (x : String) :
    (f.apply position e).slotOf? x = e.slotOf? x := by
  rw [Entry.slotOf?, Entry.slotOf?, f.ids_apply]

@[simp] theorem slotCount_apply (f : EntryEdit) (position : Nat) (e : Entry) :
    (f.apply position e).slotCount = e.slotCount := by
  rw [Entry.slotCount, Entry.slotCount, f.ids_apply]

end EntryEdit

/-! ## Lookups and lines -/

namespace Table

theorem position?_edit (t : Table) (f : EntryEdit) (x : String) :
    (t.edit f).position? x = t.position? x := by
  have hids : (t.edit f).entries.map Entry.ids = t.entries.map Entry.ids := by
    refine List.ext_getElem? fun n => ?_
    simp [edit, ofEntries, Function.comp_def, f.ids_apply]
  have hfind (es : List Entry) :
      es.findIdx? (·.mentions x) = (es.map Entry.ids).findIdx? (·.contains x) := by
    rw [List.findIdx?_map]
    rfl
  rw [position?_eq, position?_eq, hfind, hfind, hids]

theorem entryFor?_edit (t : Table) (f : EntryEdit) (x : String) :
    (t.edit f).entryFor? x =
      (t.entryFor? x).map (fun found => (found.1, f.apply found.1 found.2)) := by
  rw [entryFor?_eq, entryFor?_eq, ← position?_eq, ← position?_eq, position?_edit]
  cases t.position? x with
  | none => rfl
  | some position => simp [edit, ofEntries, Function.comp_def]

end Table

namespace Line

@[simp] theorem edit_position (f : EntryEdit) (l : Line) : (l.edit f).position = l.position := rfl

@[simp] theorem edit_entry (f : EntryEdit) (l : Line) :
    (l.edit f).entry = f.apply l.position l.entry := rfl

theorem edit_blank (f : EntryEdit) (position : Nat) (e : Entry) (live : Bool) :
    (blank position e live).edit f = blank position (f.apply position e) live := by
  simp only [edit, blank, f.slotCount_apply]

theorem edit_fill (f : EntryEdit) (l : Line) (r : Roll) : (l.fill r).edit f = (l.edit f).fill r := by
  simp only [fill, edit_entry, f.slotOf?_apply]
  cases l.entry.slotOf? r.id <;> rfl

theorem lockstep_edit (t : Table) (f : EntryEdit) (live : Bool) (r : Roll) :
    Lockstep (fun l l' => l.edit f = l') t (t.edit f) live live r r where
  mentions := by
    rintro l _ rfl
    rw [edit_entry, f.mentions_apply]
  fill := by
    rintro l _ rfl
    exact edit_fill f l r
  blank := by
    rw [Table.entryFor?_edit]
    cases t.entryFor? r.id with
    | none => exact .none
    | some found => exact .some (edit_blank f found.1 found.2 live)

end Line

theorem Table.lines_edit (t : Table) (f : EntryEdit) (stats : List Stat)
    (values : Option (List Double)) :
    (t.edit f).lines stats values = (t.lines stats values).map (Line.edit f) := by
  have hlines : List.Forall₂ (fun l l' => l.edit f = l') (t.lines stats values)
      ((t.edit f).lines stats values) :=
    Lockstep.forall₂_lines (List.forall₂_same.mpr fun r _ => Line.lockstep_edit t f _ r)
  exact (List.forall₂_eq_eq_eq ▸ List.forall₂_map_left_iff.mpr hlines :).symm

theorem spanLines_map_edit (lows highs : List Line) :
    spanLines (lows.map (Line.edit f)) (highs.map (Line.edit f)) =
      (spanLines lows highs).map (Line.edit f) := by
  fun_induction spanLines lows highs with
  | case1 highs => rfl
  | case2 lows hne => cases lows <;> rfl
  | case3 l lows h highs ih =>
    simp only [List.map_cons, spanLines_cons, ih]
    rfl

theorem mismatch?_map_edit (lows highs : List Line) :
    mismatch? (lows.map (Line.edit f)) (highs.map (Line.edit f)) = mismatch? lows highs := by
  fun_induction mismatch? lows highs with
  | case1 => rfl
  | case2 h highs => rfl
  | case3 l lows => rfl
  | case4 l lows h highs hposition ih => simp [mismatch?, hposition, ih]
  | case5 l lows h highs hposition => simp [mismatch?, hposition]

/-! ## Texts -/

theorem Rule.sentence_edit (r : Rule) (l : Line) (f : EntryEdit)
    (placeholder : Option (List Char)) :
    r.sentence (l.edit f) placeholder = r.sentence l placeholder := by
  simp only [sentence, Line.edit_entry, f.slotCount_apply]
  rfl

theorem Line.render_edit (h : (l.edit f).rule? language = l.rule? language)
    (placeholder : Option String) :
    (l.edit f).render language placeholder = l.render language placeholder :=
  render_congr h fun r _ => r.sentence_edit l f _

def Table.Holds (t : Table) (l : Line) : Prop := t.entry? l.position = some l.entry

theorem Table.holds_of_mem_lines {stats : List Stat} {values : Option (List Double)}
    (hl : l ∈ t.lines stats values) : t.Holds l := by
  obtain ⟨x, hfirst⟩ := isFirst_of_mem_lines hl
  exact hfirst.found

theorem Table.holds_of_mem_spanLines (hlows : ∀ l ∈ lows, t.Holds l)
    (hl : l ∈ spanLines lows highs) : t.Holds l := by
  obtain ⟨k, hk⟩ := List.mem_iff_getElem?.mp hl
  rw [getElem?_spanLines] at hk
  obtain ⟨low, hlow, rfl⟩ := Option.map_eq_some_iff.mp hk
  have hheld := hlows low (List.mem_of_getElem? hlow)
  cases highs[k]? <;> exact hheld

theorem renderLines_map_edit {lines : List Line} {placeholder : Option String}
    (h : ∀ l ∈ lines, (l.edit f).render language placeholder = l.render language placeholder) :
    renderLines (lines.map (Line.edit f)) language placeholder =
      renderLines lines language placeholder := by
  rw [renderLines, List.flatMap_map]
  exact List.flatMap_congr h

/-- Describers agree if the lines of the table read the same with their edited entries. -/
theorem Describer.agree_edit {d : Describer} (h : ∀ l placeholder, d.table.Holds l →
      (l.edit f).render d.language placeholder = l.render d.language placeholder)
    (low high : Modifier) : d.Agree { d with table := d.table.edit f } low high := by
  have hdescribe (m : Modifier) (values : Option (List Double)) (placeholder : Option String) :
      d.describe m values placeholder =
        { d with table := d.table.edit f }.describe m values placeholder := by
    simp only [describe, Table.lines_edit, renderLines_map_edit fun l hl =>
      h l placeholder (Table.holds_of_mem_lines hl)]
  have hspan : renderLines (spanLines (d.table.lines low.stats none)
        (d.table.lines high.stats none)) d.language none =
      renderLines (spanLines ((d.table.edit f).lines low.stats none)
        ((d.table.edit f).lines high.stats none)) d.language none := by
    rw [Table.lines_edit, Table.lines_edit, spanLines_map_edit, renderLines_map_edit]
    intro l hl
    exact h l none (Table.holds_of_mem_spanLines (fun _ => Table.holds_of_mem_lines) hl)
  refine ⟨hdescribe low, hdescribe high, ?_, ?_⟩
  · simp only [describeRange, override?, spanTexts, hspan]
  · simp only [describeRange?, override?, spanTexts, hspan, Table.lines_edit, mismatch?_map_edit]

end StatProse
