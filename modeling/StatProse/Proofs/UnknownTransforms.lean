import StatProse.Proofs.EditedEntries
import StatProse.Proofs.LiveValues

/-!
# Unknown transforms can be erased

An unknown transform passes on its value, with the number and the kind that it has. So a list
of transforms does what its known ones do, and the last of these decides the kind of the
result. A table without the unknown transforms of its rules gives the same texts.
-/

namespace StatProse

namespace Transform

def known (ts : List Transform) : List Transform := ts.filter (·.isKnown)

variable {t : Transform} {ts : List Transform} {raw : Double}

theorem apply_of_not_isKnown (h : t.isKnown = false) (v : DisplayValue) : t.apply v = v := by
  cases t with
  | unknown name => rfl
  | _ => cases h

/-- A known transform decides the kind of its value, an unknown one passes it on. -/
theorem places?_apply (t : Transform) (v : DisplayValue) :
    (t.apply v).places? = if t.isKnown then t.decimals? else v.places? := by
  cases t <;> rfl

theorem applyAll_known (ts : List Transform) : applyAll (known ts) = applyAll ts := by
  funext raw
  rw [applyAll, applyAll, known, List.foldl_filter]
  congr 1
  funext v t
  cases h : t.isKnown with
  | false => exact (apply_of_not_isKnown h v).symm
  | true => rfl

theorem places?_applyAll (ts : List Transform) (raw : Double) :
    (applyAll ts raw).places? = (known ts).getLast?.bind decimals? := by
  rw [← applyAll_known]
  cases hlast : (known ts).getLast? with
  | none =>
    rw [List.getLast?_eq_none_iff.mp hlast]
    rfl
  | some t =>
    have hknown : t.isKnown = true := by
      have hmem := List.mem_of_getLast? hlast
      simpa using (List.mem_filter.mp hmem).2
    -- what came before the last known transform does not matter
    obtain ⟨before, hsplit⟩ := List.getLast?_eq_some_iff.mp hlast
    rw [applyAll, hsplit, List.foldl_append, List.foldl_cons, List.foldl_nil, places?_apply, hknown]
    rfl

end Transform

/-! ## Rules without unknown transforms -/

def Rule.withoutUnknown (r : Rule) : Rule :=
  { r with handlers := r.handlers.map Transform.known }

variable {l : Line} {language : String}

namespace Rule

theorem handlersAt_withoutUnknown (r : Rule) (slot : Nat) :
    r.withoutUnknown.handlersAt slot = Transform.known (r.handlersAt slot) := by
  simp only [handlersAt, withoutUnknown, List.getElem?_map]
  cases r.handlers[slot]? <;> rfl

theorem token_withoutUnknown (r : Rule) (l : Line) (slot : Nat) (placeholder : Option (List Char)) :
    r.withoutUnknown.token l slot placeholder = r.token l slot placeholder := by
  simp only [token, handlersAt_withoutUnknown, Transform.applyAll_known]

theorem transformed_withoutUnknown (r : Rule) (slot : Nat) :
    r.withoutUnknown.transformed slot = r.transformed slot := by
  funext v
  rw [transformed, transformed, handlersAt_withoutUnknown, Transform.applyAll_known]

theorem shown?_withoutUnknown (r : Rule) (l : Line) (slot : Nat) :
    r.withoutUnknown.shown? l slot = r.shown? l slot := by
  refine Option.ext fun v => ?_
  rw [shown?_eq_some_iff, shown?_eq_some_iff, Ranged, Ranged, transformed_withoutUnknown]

theorem sentence_withoutUnknown (r : Rule) (l : Line) (placeholder : Option (List Char)) :
    r.withoutUnknown.sentence l placeholder = r.sentence l placeholder := by
  have hslots : r.withoutUnknown.slotText l placeholder = r.slotText l placeholder := by
    funext slot
    rw [slotText, slotText, token_withoutUnknown]
    rfl
  rw [sentence, sentence, hslots]
  rfl

end Rule

namespace Phrasebook

def mapRules (g : Rule → Rule) (b : Phrasebook) : Phrasebook where
  pages := b.pages.map (fun page => (page.1, page.2.map g))
  ascending := List.pairwise_map.mpr b.ascending

theorem rulesFor_mapRules (g : Rule → Rule) (b : Phrasebook) (language : String) :
    (b.mapRules g).rulesFor language = (b.rulesFor language).map g := by
  have hlookup (pages : List (String × List Rule)) :
      (pages.map (fun page => (page.1, page.2.map g))).lookup language =
        (pages.lookup language).map (List.map g) := by
    induction pages with
    | nil => rfl
    | cons page pages ih =>
      rw [List.map_cons, List.lookup_cons, List.lookup_cons]
      cases language == page.1 with
      | true => rfl
      | false => exact ih
  rw [rulesFor, rulesFor, mapRules, hlookup]
  cases b.pages.lookup language <;> rfl

end Phrasebook

def EntryEdit.withoutUnknown : EntryEdit where
  apply _ e := { e with phrases := e.phrases.mapRules Rule.withoutUnknown }
  ids_apply _ _ := rfl

def Table.withoutUnknown (t : Table) : Table := t.edit .withoutUnknown

def Line.withoutUnknown (l : Line) : Line := l.edit .withoutUnknown

namespace Line

theorem rule?_withoutUnknown (l : Line) (language : String) :
    l.withoutUnknown.rule? language = (l.rule? language).map Rule.withoutUnknown := by
  have hrules : l.withoutUnknown.entry.rulesFor language =
      (l.entry.rulesFor language).map Rule.withoutUnknown :=
    Phrasebook.rulesFor_mapRules _ _ _
  rw [rule?, hrules, List.find?_map]
  rfl

theorem render_withoutUnknown (l : Line) (language : String) (placeholder : Option String) :
    l.withoutUnknown.render language placeholder = l.render language placeholder := by
  unfold render
  rw [rule?_withoutUnknown]
  cases l.rule? language with
  | none => rfl
  | some r =>
    simp only [Option.map_some, Rule.render, withoutUnknown, Rule.sentence_edit,
      Rule.sentence_withoutUnknown]

end Line

namespace Describer

/-- A list of transforms gives what its known ones give, of the kind that the last of them
gives. So the unknown transforms of all rules of a table can be deleted, as long as each slot
keeps its list: texts stay what they are, and tokens show a live value just when they did. -/
theorem agree_without_unknown :
    (∀ ts raw, Transform.applyAll (Transform.known ts) raw = Transform.applyAll ts raw ∧
      (Transform.applyAll ts raw).places? =
        (Transform.known ts).getLast?.bind Transform.decimals?) ∧
    (∀ (t : Transform) v,
      (t.apply v).places? = if t.isKnown then t.decimals? else v.places?) ∧
    (∀ r : Rule, r.withoutUnknown.handlers.length = r.handlers.length ∧
      ∀ slot, r.withoutUnknown.handlersAt slot = (r.handlersAt slot).filter (·.isKnown)) ∧
    ∀ d : Describer,
      (∀ low high, d.Agree { d with table := d.table.withoutUnknown } low high) ∧
      (∀ stats values, d.table.withoutUnknown.lines stats values =
        (d.table.lines stats values).map Line.withoutUnknown) ∧
      ∀ (l : Line) language,
        l.withoutUnknown.rule? language = (l.rule? language).map Rule.withoutUnknown ∧
        ∀ (r : Rule) slot,
          r.withoutUnknown.shown? l.withoutUnknown slot = r.shown? l slot ∧
          ∀ placeholder, r.withoutUnknown.token l.withoutUnknown slot placeholder =
            r.token l slot placeholder := by
  refine ⟨fun ts raw => ⟨?_, Transform.places?_applyAll ts raw⟩, Transform.places?_apply,
    fun r => ⟨List.length_map _, r.handlersAt_withoutUnknown⟩, fun d => ⟨?_, ?_, ?_⟩⟩
  · rw [Transform.applyAll_known]
  · exact agree_edit fun l placeholder _ => l.render_withoutUnknown d.language placeholder
  · exact d.table.lines_edit .withoutUnknown
  · intro l language
    refine ⟨l.rule?_withoutUnknown language, fun r slot => ⟨?_, fun placeholder => ?_⟩⟩
    · exact r.shown?_withoutUnknown l.withoutUnknown slot
    · exact r.token_withoutUnknown l.withoutUnknown slot placeholder

end Describer

end StatProse
