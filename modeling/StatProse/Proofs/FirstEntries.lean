import Mathlib.Data.List.Perm.Basic
import StatProse.Proofs.Alignment

/-!
# Only first entries count

A modifier's texts depend on a table only through the first entries that mention its stats,
and on these only through their ids and their rules for the language. The positions of the
entries differ from table to table. But two first entries stand at the same position
exactly if they have the same ids, so tiers that line up do so under every such table.
-/

namespace StatProse

structure Entry.SameIn (language : String) (e e' : Entry) : Prop where
  ids : e.ids = e'.ids
  rules : e.rulesFor language = e'.rulesFor language

/-- Two tables show the same for a stat: both find entries that do not differ in the
language, or neither finds any. -/
def Table.Alike (language : String) (t t' : Table) (x : String) : Prop :=
  Option.Rel (fun found found' => found.2.SameIn language found'.2) (t.entryFor? x)
    (t'.entryFor? x)

/-- Lines of two tables with the same numbers, opened by one stat in both. -/
structure Line.Twin (language : String) (t t' : Table) (l l' : Line) : Prop where
  entry : l.entry.SameIn language l'.entry
  mins : l.mins = l'.mins
  maxs : l.maxs = l'.maxs
  values : l.values = l'.values
  first : ∃ x, t.IsFirst x l.position l.entry ∧ t'.IsFirst x l'.position l'.entry

variable {language : String} {t t' : Table} {live : Bool} {r : Roll} {x : String}

namespace Entry.SameIn

variable {e e' : Entry}

theorem refl (e : Entry) : e.SameIn language e := ⟨rfl, rfl⟩

theorem mentions (h : e.SameIn language e') (x : String) : e.mentions x = e'.mentions x := by
  rw [Entry.mentions, Entry.mentions, h.ids]

theorem slotOf? (h : e.SameIn language e') (x : String) : e.slotOf? x = e'.slotOf? x := by
  rw [Entry.slotOf?, Entry.slotOf?, h.ids]

theorem slotCount (h : e.SameIn language e') : e.slotCount = e'.slotCount := by
  rw [Entry.slotCount, Entry.slotCount, h.ids]

end Entry.SameIn

/-! ## Two runs -/

namespace Line.Twin

variable {l l' h h' : Line} {lows lows' highs highs' : List Line}

theorem fillSlot (hl : l.Twin language t t' l') (slot : Nat) (r : Roll) :
    (l.fillSlot slot r).Twin language t t' (l'.fillSlot slot r) where
  entry := hl.entry
  mins := by rw [Line.fillSlot, Line.fillSlot, hl.mins]
  maxs := by rw [Line.fillSlot, Line.fillSlot, hl.maxs]
  values := by rw [Line.fillSlot, Line.fillSlot, hl.values]
  first := hl.first

theorem fill (hl : l.Twin language t t' l') (r : Roll) :
    (l.fill r).Twin language t t' (l'.fill r) := by
  unfold Line.fill
  rw [hl.entry.slotOf?]
  cases l'.entry.slotOf? r.id with
  | none => exact hl
  | some slot => exact hl.fillSlot slot r

theorem blank {position position' : Nat} {e e' : Entry} (he : e.SameIn language e')
    (h : t.IsFirst x position e) (h' : t'.IsFirst x position' e') :
    (Line.blank position e live).Twin language t t' (Line.blank position' e' live) where
  entry := he
  mins := by rw [Line.blank, Line.blank, he.slotCount]
  maxs := by rw [Line.blank, Line.blank, he.slotCount]
  values := by rw [Line.blank, Line.blank, he.slotCount]
  first := ⟨x, h, h'⟩

theorem lockstep (h : t.Alike language t' r.id) :
    Lockstep (Line.Twin language t t') t t' live live r r where
  mentions l l' hl := hl.entry.mentions r.id
  fill l l' hl := hl.fill r
  blank := by
    rcases cases_of_optionRel h with ⟨hf, hf'⟩ | ⟨found, found', hf, hf', he⟩
    · rw [hf, hf']
      exact .none
    · rw [hf, hf']
      exact .some (.blank he (Table.entryFor?_eq_some_iff.mp hf)
        (Table.entryFor?_eq_some_iff.mp hf'))

-- the ids tell first entries apart in both tables
theorem position_eq_iff (hl : l.Twin language t t' l') (hh : h.Twin language t t' h') :
    l.position = h.position ↔ l'.position = h'.position := by
  obtain ⟨x, hx, hx'⟩ := hl.first
  obtain ⟨y, hy, hy'⟩ := hh.first
  rw [hx.position_eq_iff_ids_eq hy, hl.entry.ids, hh.entry.ids, hx'.position_eq_iff_ids_eq hy']

theorem spanLines (hlows : List.Forall₂ (Line.Twin language t t') lows lows')
    (hhighs : List.Forall₂ (Line.Twin language t t') highs highs') :
    List.Forall₂ (Line.Twin language t t') (spanLines lows highs) (spanLines lows' highs') := by
  induction hlows generalizing highs highs' with
  | nil => exact .nil
  | cons hl hlows ih =>
    cases hhighs with
    | nil => exact .cons hl hlows
    | cons hh hhighs =>
      exact .cons ⟨hl.entry, hl.mins, hh.maxs, hl.values, hl.first⟩ (ih hhighs)

theorem value?_eq (hl : l.Twin language t t' l') : l.value? = l'.value? := by
  funext slot
  rw [Line.value?, Line.value?, hl.values]

theorem sentence_eq (hl : l.Twin language t t' l') (r : Rule) (placeholder : Option (List Char)) :
    r.sentence l placeholder = r.sentence l' placeholder := by
  have hslot : r.slotText l placeholder = r.slotText l' placeholder := by
    funext slot
    exact Rule.slotText_congr (by rw [min_congr hl.mins]) (by rw [max_congr hl.maxs])
      (by rw [hl.value?_eq]) placeholder
  rw [Rule.sentence, Rule.sentence, hslot, hl.entry.slotCount]

theorem renderLines_eq (hls : List.Forall₂ (Line.Twin language t t') lows lows')
    (placeholder : Option String) :
    renderLines lows language placeholder = renderLines lows' language placeholder := by
  refine renderLines_congr (fun l l' hl => ?_) hls
  exact render_congr (rule?_congr hl.entry.rules hl.mins) fun r _ => hl.sentence_eq r _

end Line.Twin

theorem Table.Alike.lines {stats : List Stat} (h : ∀ s ∈ stats, t.Alike language t' s.id)
    (values : Option (List Double)) :
    List.Forall₂ (Line.Twin language t t') (t.lines stats values) (t'.lines stats values) := by
  refine Lockstep.forall₂_lines (List.forall₂_same.mpr fun r hr => Line.Twin.lockstep ?_)
  obtain ⟨i, hi⟩ := List.mem_iff_getElem?.mp hr
  rw [Roll.getElem?_align, Option.map_eq_some_iff] at hi
  obtain ⟨s, hs, rfl⟩ := hi
  exact h s (List.mem_of_getElem? hs)

namespace Describer

/-- Two describers give the same texts for two modifiers, for each of them and for the span
from the first to the second. -/
structure Agree (d d' : Describer) (low high : Modifier) : Prop where
  describe_low : ∀ values placeholder,
    d.describe low values placeholder = d'.describe low values placeholder
  describe_high : ∀ values placeholder,
    d.describe high values placeholder = d'.describe high values placeholder
  range : d.describeRange low high = d'.describeRange low high
  strict : d.describeRange? low high = d'.describeRange? low high

variable {d : Describer} {low high m : Modifier}

theorem describe_of_alike (h : ∀ s ∈ m.stats, d.table.Alike d.language t' s.id)
    (values : Option (List Double)) (placeholder : Option String) :
    d.describe m values placeholder = { d with table := t' }.describe m values placeholder := by
  unfold describe
  cases d.overrides.get? m.type with
  | some lines => rfl
  | none => exact Line.Twin.renderLines_eq (Table.Alike.lines h values) placeholder

theorem agree_of_alike
    (h : ∀ s ∈ low.stats ++ high.stats, d.table.Alike d.language t' s.id) :
    d.Agree { d with table := t' } low high := by
  have hlow : ∀ s ∈ low.stats, d.table.Alike d.language t' s.id :=
    fun s hs => h s (List.mem_append_left _ hs)
  have hhigh : ∀ s ∈ high.stats, d.table.Alike d.language t' s.id :=
    fun s hs => h s (List.mem_append_right _ hs)
  have hlows := Table.Alike.lines hlow none
  have hhighs := Table.Alike.lines hhigh none
  have hspan := Line.Twin.renderLines_eq (Line.Twin.spanLines hlows hhighs) none
  have hmismatch := mismatch?_congr (fun _ _ _ _ => Line.Twin.position_eq_iff) hlows hhighs
  refine ⟨describe_of_alike hlow, describe_of_alike hhigh, ?_, ?_⟩
  · simp only [describeRange, override?, spanTexts, hspan]
  · simp only [describeRange?, override?, spanTexts, hspan, hmismatch]

end Describer

/-! ## Changes to a table that do not show -/

/-- Entries in another order. Entries trade places only if they share no id. -/
inductive Reordered : List Entry → List Entry → Prop
  | refl (es : List Entry) : Reordered es es
  | cons (e : Entry) {es es' : List Entry} : Reordered es es' → Reordered (e :: es) (e :: es')
  | swap {e e' : Entry} (es : List Entry) :
      e.ids.Disjoint e'.ids → Reordered (e :: e' :: es) (e' :: e :: es)
  | trans {es es' es'' : List Entry} : Reordered es es' → Reordered es' es'' → Reordered es es''

namespace Reordered

variable {es es' : List Entry}

theorem find?_mentions (h : Reordered es es') (x : String) :
    es.find? (·.mentions x) = es'.find? (·.mentions x) := by
  induction h with
  | refl es => rfl
  | cons e _ ih => rw [List.find?_cons, List.find?_cons, ih]
  | @swap e e' es hdisjoint =>
    simp only [List.find?_cons]
    cases he : e.mentions x with
    | false => rfl
    | true =>
      cases he' : e'.mentions x with
      | false => rfl
      | true => exact absurd (Entry.mentions_iff.mp he') (hdisjoint (Entry.mentions_iff.mp he))
  | trans _ _ ih ih' => exact ih.trans ih'

theorem of_perm (h : es.Perm es')
    (hdisjoint : es.Pairwise (fun e e' => e.ids.Disjoint e'.ids)) : Reordered es es' := by
  induction h with
  | nil => exact .refl []
  | cons e _ ih => exact .cons e (ih hdisjoint.of_cons)
  | swap e e' es => exact .swap es ((List.pairwise_cons.mp hdisjoint).1 e List.mem_cons_self)
  | trans hfirst _ ih ih' =>
    exact .trans (ih hdisjoint) (ih' ((hfirst.pairwise_iff List.disjoint_symm).mp hdisjoint))

end Reordered

namespace Table

theorem alike_of_find?_rel (h : Option.Rel (Entry.SameIn language)
    (t.entries.find? (·.mentions x)) (t'.entries.find? (·.mentions x))) :
    t.Alike language t' x := by
  rw [find?_mentions, find?_mentions] at h
  unfold Alike
  rcases cases_of_optionRel h with ⟨hf, hf'⟩ | ⟨e, e', hf, hf', he⟩
  · rw [Option.map_eq_none_iff.mp hf, Option.map_eq_none_iff.mp hf']
    exact .none
  · obtain ⟨found, hfound, rfl⟩ := Option.map_eq_some_iff.mp hf
    obtain ⟨found', hfound', rfl⟩ := Option.map_eq_some_iff.mp hf'
    rw [hfound, hfound']
    exact .some he

theorem alike_of_find?_eq
    (h : t.entries.find? (·.mentions x) = t'.entries.find? (·.mentions x)) :
    t.Alike language t' x := by
  refine alike_of_find?_rel ?_
  rw [h]
  cases t'.entries.find? (·.mentions x) with
  | none => exact .none
  | some e => exact .some (.refl e)

theorem alike_append (h : t.Knows x) (u : Table) : t.Alike language (t ++ u) x := by
  obtain ⟨position, e, he⟩ := h.entryFor?
  have hfind : t.entries.find? (·.mentions x) = some e := by
    rw [find?_mentions, he, Option.map_some]
  refine alike_of_find?_eq ?_
  rw [show (t ++ u).entries = t.entries ++ u.entries from rfl, List.find?_append, hfind,
    Option.some_or]

theorem alike_eraseIdx {position : Nat} {e : Entry} (he : t.entry? position = some e)
    (h : ∀ x ∈ e.ids, ¬t.IsFirst x position e) :
    t.Alike language (ofEntries (t.entries.eraseIdx position)) x := by
  refine alike_of_find?_eq (find?_eraseIdx he fun hx => ?_).symm
  -- an entry that is not first for the stat stands behind one that mentions it
  by_contra hbefore
  refine h x (Entry.mentions_iff.mp hx) ⟨he, Entry.mentions_iff.mp hx, ?_⟩
  intro earlier hearlier other hother hmentioned
  have hmem : other ∈ t.entries.take position :=
    List.mem_of_getElem? ((List.getElem?_take_of_lt hearlier).trans hother)
  exact hbefore ⟨other, hmem, Entry.mentions_iff.mpr hmentioned⟩

theorem find?_mentions_rel {es es' : List Entry}
    (h : List.Forall₂ (Entry.SameIn language) es es') (x : String) :
    Option.Rel (Entry.SameIn language) (es.find? (·.mentions x)) (es'.find? (·.mentions x)) := by
  induction h with
  | nil => exact .none
  | @cons e e' es es' he _ ih =>
    rw [List.find?_cons, List.find?_cons, ← he.mentions x]
    cases e.mentions x with
    | false => exact ih
    | true => exact .some he

end Table

namespace Describer

/-- Tables that show the same for the stats that two modifiers carry give the same texts.
So texts stay what they are when entries are added to a table that knows the stats, when an
entry is removed that is first for no stat, when entries without common ids change places,
and when rules for other languages change. -/
theorem agree_of_first_entries (d : Describer) :
    (∀ t' low high, (∀ s ∈ low.stats ++ high.stats, d.table.Alike d.language t' s.id) →
      d.Agree { d with table := t' } low high) ∧
    (∀ u low high, (∀ s ∈ low.stats ++ high.stats, d.table.Knows s.id) →
      d.Agree { d with table := d.table ++ u } low high) ∧
    (∀ position e, d.table.entry? position = some e →
      (∀ x ∈ e.ids, ¬d.table.IsFirst x position e) → ∀ low high,
      d.Agree { d with table := .ofEntries (d.table.entries.eraseIdx position) } low high) ∧
    (∀ t', Reordered d.table.entries t'.entries → ∀ low high,
      d.Agree { d with table := t' } low high) ∧
    (∀ t', d.table.entries.Perm t'.entries →
      d.table.entries.Pairwise (fun e e' => e.ids.Disjoint e'.ids) → ∀ low high,
      d.Agree { d with table := t' } low high) ∧
    ∀ t', List.Forall₂ (Entry.SameIn d.language) d.table.entries t'.entries → ∀ low high,
      d.Agree { d with table := t' } low high := by
  refine ⟨fun t' low high h => agree_of_alike h, ?_, ?_, ?_, ?_, ?_⟩
  · intro u low high h
    exact agree_of_alike fun s hs => Table.alike_append (h s hs) u
  · intro position e he h low high
    exact agree_of_alike fun s _ => Table.alike_eraseIdx he h
  · intro t' h low high
    exact agree_of_alike fun s _ => Table.alike_of_find?_eq (h.find?_mentions s.id)
  · intro t' h hdisjoint low high
    have hreordered := Reordered.of_perm h hdisjoint
    exact agree_of_alike fun s _ => Table.alike_of_find?_eq (hreordered.find?_mentions s.id)
  · intro t' h low high
    exact agree_of_alike fun s _ => Table.alike_of_find?_rel (Table.find?_mentions_rel h s.id)

/-- The second entry is first for no stat, the third shares no id with the others, and the
first may also have rules for another language. -/
theorem agree_after_small_changes :
    let plain : Rule :=
      { conditions := [{}, {}], formats := ["+#", "+#"], template := "\x7b0\x7d to maximum Life" }
    let both : Entry :=
      { ids := ["life", "mana"], phrases := Phrasebook.empty.insert defaultLanguage [plain] }
    let life : Entry := { ids := ["life"] }
    let fire : Entry := { ids := ["fire"] }
    let translated : Entry := { both with phrases := both.phrases.insert "German" [plain] }
    let d : Describer := { table := .ofEntries [both, life, fire], overrides := .builtin }
    let low : Modifier := { type := "Life", stats := [⟨"life", 5, 9⟩] }
    let high : Modifier := { type := "Life", stats := [⟨"life", 15, 19⟩, ⟨"dust", 1, 2⟩] }
    d.describe low none none = ["+(5-9) to maximum Life"] ∧
    d.describeRange low high = ["+(5-19) to maximum Life"] ∧
    (∀ s ∈ low.stats ++ high.stats,
      d.table.Alike d.language (.ofEntries [fire, translated]) s.id) ∧
    d.Agree { d with table := .ofEntries [fire, translated] } low high ∧
    (∀ s ∈ low.stats ++ low.stats, d.table.Knows s.id) ∧
    d.Agree { d with table := d.table ++ .ofEntries [{ ids := ["dust"] }] } low low ∧
    d.table.entry? 1 = some life ∧ (∀ x ∈ life.ids, ¬d.table.IsFirst x 1 life) ∧
    d.Agree { d with table := .ofEntries (d.table.entries.eraseIdx 1) } low high ∧
    Reordered d.table.entries [both, fire, life] ∧
    d.Agree { d with table := .ofEntries [both, fire, life] } low high ∧
    [both, fire].Perm [fire, both] ∧ [both, fire].Pairwise (fun e e' => e.ids.Disjoint e'.ids) ∧
    { d with table := .ofEntries [both, fire] }.Agree
      { d with table := .ofEntries [fire, both] } low high ∧
    List.Forall₂ (Entry.SameIn d.language) d.table.entries [translated, life, fire] ∧
    d.Agree { d with table := .ofEntries [translated, life, fire] } low high := by
  intro plain both life fire translated d low high
  have hopen : ∀ m : Modifier, m.type = "Life" → d.overrides.get? m.type = none := by
    intro m hm
    simp [hm, d, Overrides.builtin, Overrides.get?_insert]
  have hboth : d.table.entryFor? "life" = some (0, both) := by
    rw [Table.entryFor?_eq]
    rfl
  have hdust : d.table.entryFor? "dust" = none := by
    rw [Table.entryFor?_eq]
    rfl
  have hlow : d.table.lines low.stats none = [⟨0, both, [5, 0], [9, 0], none⟩] := by
    simp only [Table.lines, low, Roll.align, Option.getD_none, List.foldl_cons, List.foldl_nil,
      Table.place, Roll.id, hboth]
    rfl
  have hhigh : d.table.lines high.stats none = [⟨0, both, [15, 0], [19, 0], none⟩] := by
    simp only [Table.lines, high, Roll.align, Option.getD_none, List.foldl_cons, List.foldl_nil,
      Table.place, Roll.id, hboth, hdust]
    rfl
  have hdescribe : d.describe low none none = ["+(5-9) to maximum Life"] := by
    simp only [describe, hopen low rfl, hlow]
    decide +kernel
  have hrange : d.describeRange low high = ["+(5-19) to maximum Life"] := by
    simp only [describeRange, override?, hopen low rfl, hopen high rfl, hlow, hhigh]
    decide +kernel
  have htranslated : both.SameIn d.language translated := ⟨rfl, by decide +kernel⟩
  have halike : ∀ s ∈ low.stats ++ high.stats,
      d.table.Alike d.language (.ofEntries [fire, translated]) s.id := by
    intro s hs
    simp only [low, high, List.cons_append, List.nil_append, List.mem_cons, List.not_mem_nil,
      or_false] at hs
    rcases hs with rfl | rfl | rfl
    · exact Table.alike_of_find?_rel (.some htranslated)
    · exact Table.alike_of_find?_rel (.some htranslated)
    · exact Table.alike_of_find?_rel .none
  have hknows : ∀ s ∈ low.stats ++ low.stats, d.table.Knows s.id := by
    intro s hs
    simp only [low, List.cons_append, List.nil_append, List.mem_cons, List.not_mem_nil,
      or_false] at hs
    rcases hs with rfl | rfl <;> exact ⟨both, by simp [d, Table.ofEntries], by simp [both]⟩
  have hlife : ∀ x ∈ life.ids, ¬d.table.IsFirst x 1 life := by
    intro x hx h
    obtain rfl : x = "life" := by simpa [life] using hx
    exact h.unmentioned 0 Nat.one_pos both rfl (by simp [both])
  have hreordered : Reordered d.table.entries [both, fire, life] :=
    .cons both (.swap [] (by simp [life, fire]))
  have hdisjoint : [both, fire].Pairwise (fun e e' => e.ids.Disjoint e'.ids) := by
    simp [both, fire]
  have hforall : List.Forall₂ (Entry.SameIn d.language) d.table.entries [translated, life, fire] :=
    .cons htranslated (.cons (.refl life) (.cons (.refl fire) .nil))
  obtain ⟨hfirst, happend, herase, hreorder, -, hlanguage⟩ := agree_of_first_entries d
  obtain ⟨-, -, -, -, hperm, -⟩ :=
    agree_of_first_entries { d with table := .ofEntries [both, fire] }
  have hswap : [both, fire].Perm [fire, both] := .swap fire both []
  exact ⟨hdescribe, hrange, halike, hfirst _ low high halike, hknows, happend _ low low hknows, rfl, hlife,
    herase 1 life rfl hlife low high, hreordered, hreorder _ hreordered low high, hswap,
    hdisjoint, hperm (.ofEntries [fire, both]) hswap hdisjoint low high, hforall,
    hlanguage _ hforall low high⟩

end Describer

end StatProse
