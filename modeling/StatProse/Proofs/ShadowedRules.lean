import StatProse.Proofs.EditedEntries
import StatProse.Proofs.EntryDocument

/-!
# Shadowed rules

A rule is shadowed by an earlier one whose bounds contain its own in every slot. The earlier
rule admits every line that the later one admits, also one with infinite minima or with `nan`,
so the later one is never selected and can be removed.
-/

namespace StatProse

namespace Double

variable {v a b : Double}

theorem lt_iff : a < b ↔ lt a b = true := Iff.rfl

-- `nan` is not below any number, so it has to be excluded
theorem lt_of_lt_of_not_lt (hv : v < a) (hb : ¬b < a) (hnan : b ≠ nan) : v < b := by
  cases v <;> cases a <;> cases b <;> simp_all [lt_iff, lt]
  omega

theorem lt_of_not_lt_of_lt (hb : ¬a < b) (hv : a < v) (hnan : b ≠ nan) : b < v := by
  cases v <;> cases a <;> cases b <;> simp_all [lt_iff, lt]
  omega

end Double

namespace Condition

/-- A bound that the first condition sets is set by the second one too, and is not laxer
there. -/
structure Contains (c c' : Condition) : Prop where
  lower : ∀ a, c.min = some a → ∃ b, c'.min = some b ∧ ¬b < a
  upper : ∀ a, c.max = some a → ∃ b, c'.max = some b ∧ ¬a < b

structure Numeric (c : Condition) : Prop where
  lower : ∀ b, c.min = some b → b ≠ .nan
  upper : ∀ b, c.max = some b → b ≠ .nan

variable {c c' : Condition} {v : Double}

instance (c c' : Condition) : Decidable (c.Contains c') :=
  decidable_of_iff ((∀ a ∈ c.min, ∃ b ∈ c'.min, ¬b < a) ∧ ∀ a ∈ c.max, ∃ b ∈ c'.max, ¬a < b)
    ⟨fun ⟨lower, upper⟩ => ⟨lower, upper⟩, fun h => ⟨h.lower, h.upper⟩⟩

instance (c : Condition) : Decidable c.Numeric :=
  decidable_of_iff ((∀ b ∈ c.min, b ≠ .nan) ∧ ∀ b ∈ c.max, b ≠ .nan)
    ⟨fun ⟨lower, upper⟩ => ⟨lower, upper⟩, fun h => ⟨h.lower, h.upper⟩⟩

theorem admits_iff : c.admits v = true ↔
    (∀ a, c.min = some a → ¬v < a) ∧ ∀ a, c.max = some a → ¬a < v := by
  simp [admits, Option.all_eq_true]

theorem Contains.admits (h : c.Contains c') (hnumeric : c'.Numeric) (hv : c'.admits v = true) :
    c.admits v = true := by
  obtain ⟨hlower, hupper⟩ := admits_iff.mp hv
  -- a minimum below the outer bound is below the inner one, and likewise above
  refine admits_iff.mpr ⟨fun a ha hlt => ?_, fun a ha hlt => ?_⟩
  · obtain ⟨b, hb, hle⟩ := h.lower a ha
    exact hlower b hb (Double.lt_of_lt_of_not_lt hlt hle (hnumeric.lower b hb))
  · obtain ⟨b, hb, hle⟩ := h.upper a ha
    exact hupper b hb (Double.lt_of_not_lt_of_lt hle hlt (hnumeric.upper b hb))

end Condition

/-- In every slot the bounds of the first rule contain those of the second, which are numbers. -/
structure Rule.Shadows (r r' : Rule) : Prop where
  contains : ∀ (slot : Nat) c c', r.conditions[slot]? = some c → r'.conditions[slot]? = some c' →
    c.Contains c'
  numeric : ∀ c ∈ r'.conditions, c.Numeric

theorem Rule.shadows_iff {r r' : Rule} : r.Shadows r' ↔
    (∀ cs ∈ r.conditions.zip r'.conditions, cs.1.Contains cs.2) ∧
      ∀ c ∈ r'.conditions, c.Numeric := by
  constructor
  · rintro ⟨hcontains, hnumeric⟩
    refine ⟨fun cs hcs => ?_, hnumeric⟩
    obtain ⟨slot, hslot⟩ := List.mem_iff_getElem?.mp hcs
    obtain ⟨hc, hc'⟩ := List.getElem?_zip_eq_some.mp hslot
    exact hcontains slot _ _ hc hc'
  · rintro ⟨hcontains, hnumeric⟩
    refine ⟨fun slot c c' hc hc' => ?_, hnumeric⟩
    have hslot : (r.conditions.zip r'.conditions)[slot]? = some (c, c') :=
      List.getElem?_zip_eq_some.mpr ⟨hc, hc'⟩
    exact hcontains _ (List.mem_of_getElem? hslot)

instance (r r' : Rule) : Decidable (r.Shadows r') := decidable_of_iff _ Rule.shadows_iff.symm

variable {l : Line} {e : Entry} {r r' : Rule} {language : String} {i j position : Nat}

namespace Line

theorem admitted_iff : l.admitted r = true ↔
    ∀ (slot : Nat) c, r.conditions[slot]? = some c → c.admits (l.min slot) = true := by
  simp only [admitted, List.all_eq_true, Prod.forall, List.mem_zipIdx_iff_getElem?]
  exact forall_comm

theorem admitted_of_shadows (h : r.Shadows r')
    (hlength : r.conditions.length = r'.conditions.length) (hr' : l.admitted r' = true) :
    l.admitted r = true := by
  refine admitted_iff.mpr fun slot c hc => ?_
  have hslot : slot < r'.conditions.length := hlength ▸ (List.getElem?_eq_some_iff.mp hc).1
  have hc' := List.getElem?_eq_getElem hslot
  exact (h.contains slot c _ hc hc').admits (h.numeric _ (List.getElem_mem hslot))
    (admitted_iff.mp hr' slot _ hc')

theorem rule?_eq_bind_rulePosition? (l : Line) (language : String) :
    l.rule? language = (l.rulePosition? language).bind ((l.entry.rulesFor language)[·]?) :=
  List.find?_eq_bind_findIdx?_getElem?

theorem rulePosition?_ne (hi : (l.entry.rulesFor language)[i]? = some r)
    (hj : (l.entry.rulesFor language)[j]? = some r') (hij : i < j)
    (h : l.admitted r' = true → l.admitted r = true) : l.rulePosition? language ≠ some j := by
  intro hposition
  obtain ⟨hlt, hadmitted, hfirst⟩ := List.findIdx?_eq_some_iff_getElem.mp hposition
  obtain ⟨_, rfl⟩ := List.getElem?_eq_some_iff.mp hi
  obtain ⟨_, rfl⟩ := List.getElem?_eq_some_iff.mp hj
  exact hfirst i hij (h hadmitted)

end Line

/-! ## Entries without a rule -/

def Entry.withoutRule (e : Entry) (language : String) (j : Nat) : Entry :=
  { e with phrases := e.phrases.insert language ((e.rulesFor language).eraseIdx j) }

def Table.withoutRule (t : Table) (position : Nat) (language : String) (j : Nat) : Table :=
  ofEntries (t.entries.modify position (·.withoutRule language j))

theorem Entry.rulesFor_withoutRule (e : Entry) (language key : String) (j : Nat) :
    (e.withoutRule language j).rulesFor key =
      if key = language then (e.rulesFor language).eraseIdx j else e.rulesFor key := by
  unfold rulesFor withoutRule Phrasebook.rulesFor Phrasebook.insert
  rw [Phrasebook.lookup_insertPage]
  split <;> rfl

def EntryEdit.withoutRule (position : Nat) (language : String) (j : Nat) : EntryEdit where
  apply n e := if n = position then e.withoutRule language j else e
  ids_apply n e := by split <;> rfl

theorem Table.edit_withoutRule (t : Table) (position : Nat) (language : String) (j : Nat) :
    t.edit (.withoutRule position language j) = t.withoutRule position language j := by
  rw [edit, withoutRule]
  congr 1
  refine List.ext_getElem? fun n => ?_
  rw [List.getElem?_mapIdx, List.getElem?_modify]
  simp only [EntryEdit.withoutRule, eq_comm]
  rfl

namespace Line

theorem edit_withoutRule (l : Line) (language : String) (j : Nat) :
    l.edit (.withoutRule l.position language j) =
      { l with entry := l.entry.withoutRule language j } := by
  simp only [edit, EntryEdit.withoutRule, if_pos]

theorem edit_withoutRule_of_ne (h : l.position ≠ position) :
    l.edit (.withoutRule position language j) = l := by
  simp only [edit, EntryEdit.withoutRule, if_neg h]

theorem rule?_edit_withoutRule (key : String)
    (hi : (l.entry.rulesFor language)[i]? = some r)
    (hj : (l.entry.rulesFor language)[j]? = some r') (hij : i < j)
    (h : l.admitted r' = true → l.admitted r = true) :
    (l.edit (.withoutRule l.position language j)).rule? key = l.rule? key := by
  have hrules : (l.edit (.withoutRule l.position language j)).rule? key =
      ((l.entry.withoutRule language j).rulesFor key).find? l.admitted := by
    rw [edit_withoutRule]
    rfl
  rw [hrules, Entry.rulesFor_withoutRule]
  split
  next heq =>
    subst heq
    -- the rule that shadows the other one comes before it and is still there
    have hbefore : r ∈ (l.entry.rulesFor key).take j :=
      List.mem_of_getElem? ((List.getElem?_take_of_lt hij).trans hi)
    exact find?_eraseIdx hj fun hadmitted => ⟨r, hbefore, h hadmitted⟩
  next hne => rfl

end Line

/-- A rule that is shadowed by an earlier one is selected for no line of the entry, and texts
stay what they are without it. -/
theorem Entry.shadowed_rule_dead
    (hlengths : ∀ r ∈ e.rulesFor language, r.conditions.length = e.slotCount)
    (hi : (e.rulesFor language)[i]? = some r) (hj : (e.rulesFor language)[j]? = some r')
    (hij : i < j) (h : r.Shadows r') :
    (∀ l : Line, l.entry = e → l.rulePosition? language ≠ some j ∧
      l.rule? language = (l.rulePosition? language).bind ((e.rulesFor language)[·]?)) ∧
    ∀ (d : Describer) position, d.table.entry? position = some e → ∀ low high,
      d.Agree { d with table := d.table.withoutRule position language j } low high := by
  have hlength : r.conditions.length = r'.conditions.length :=
    (hlengths r (List.mem_of_getElem? hi)).trans (hlengths r' (List.mem_of_getElem? hj)).symm
  refine ⟨?_, fun d position hposition low high => ?_⟩
  · rintro l rfl
    exact ⟨l.rulePosition?_ne hi hj hij (l.admitted_of_shadows h hlength),
      l.rule?_eq_bind_rulePosition? language⟩
  · rw [← Table.edit_withoutRule]
    refine Describer.agree_edit (fun l placeholder hl => ?_) low high
    -- the edit reaches the lines at the position, and these have the entry
    by_cases hat : l.position = position
    · subst hat
      obtain rfl := Option.some.inj (hl.symm.trans hposition)
      have hrule := l.rule?_edit_withoutRule d.language hi hj hij
        (l.admitted_of_shadows h hlength)
      exact Line.render_edit hrule placeholder
    · rw [Line.edit_withoutRule_of_ne hat]

/-- The bounds `2` to `5` are shadowed by an earlier lower bound of `1`, also for a line whose
minima are `nan` and infinite, which both rules admit. -/
theorem Entry.narrow_rule_dead :
    let wide : Rule :=
      { conditions := [{ min := some 1 }, {}], formats := ["+#", "#"]
        template := "\x7b0\x7d to Life" }
    let narrow : Rule :=
      { conditions := [{ min := some 2, max := some 5 }, { min := some 0 }]
        formats := ["#", "#"], template := "some Life" }
    let e : Entry :=
      { ids := ["life", "mana"]
        phrases := Phrasebook.empty.insert defaultLanguage [wide, narrow] }
    let d : Describer := { table := .ofEntries [e], overrides := .builtin }
    let l : Line := ⟨0, e, [.nan, .infinite false], [9, 3], none⟩
    let low : Modifier := { type := "Life", stats := [⟨"life", .nan, 9⟩] }
    let high : Modifier := { type := "Life", stats := [⟨"mana", .infinite true, 3⟩] }
    (∀ r ∈ e.rulesFor defaultLanguage, r.conditions.length = e.slotCount) ∧
    (e.rulesFor defaultLanguage)[0]? = some wide ∧
    (e.rulesFor defaultLanguage)[1]? = some narrow ∧ wide.Shadows narrow ∧
    l.admitted narrow = true ∧ l.rulePosition? defaultLanguage ≠ some 1 ∧
    d.table.entry? 0 = some e ∧
    d.Agree { d with table := d.table.withoutRule 0 defaultLanguage 1 } low high := by
  intro wide narrow e d l low high
  have hlengths : ∀ r ∈ e.rulesFor defaultLanguage, r.conditions.length = e.slotCount := by
    decide +kernel
  have hwide : (e.rulesFor defaultLanguage)[0]? = some wide := by decide +kernel
  have hnarrow : (e.rulesFor defaultLanguage)[1]? = some narrow := by decide +kernel
  have hshadows : wide.Shadows narrow := by decide +kernel
  have hposition : d.table.entry? 0 = some e := rfl
  obtain ⟨hdead, hagree⟩ :=
    Entry.shadowed_rule_dead hlengths hwide hnarrow Nat.one_pos hshadows
  exact ⟨hlengths, hwide, hnarrow, hshadows, by decide +kernel, (hdead l rfl).1, hposition,
    hagree d 0 hposition low high⟩

end StatProse
