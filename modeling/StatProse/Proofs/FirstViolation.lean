import StatProse.Proofs.Assembly
import StatProse.Proofs.ByteOrder
import StatProse.Proofs.EntryDocument
import StatProse.Proofs.Validation

/-!
# The first violation

Validation reports the first entry that is not well formed, and of that entry the first
violation: that it has no ids, or else the first list of a rule that does not have one item
per slot. Lists come by language, in the order of the bytes of its name, then by rule, and
within a rule conditions before formats before handler lists. Of two tables put together the
first reports first, and the positions of the second are shifted.
-/

namespace StatProse

namespace RuleList

/-- Conditions are looked at before formats, and formats before handler lists. -/
def rank : RuleList → Nat
  | conditions => 0
  | formats => 1
  | handlers => 2

theorem eq_of_rank_eq {list list' : RuleList} (h : list.rank = list'.rank) : list = list' := by
  cases list <;> cases list' <;> simp_all [rank]

end RuleList

@[ext] structure RulePlace where
  language : String
  rule : Nat
  list : RuleList

namespace RulePlace

def Before (p q : RulePlace) : Prop :=
  utf8Bytes p.language < utf8Bytes q.language ∨
    p.language = q.language ∧ (p.rule < q.rule ∨ p.rule = q.rule ∧ p.list.rank < q.list.rank)

theorem eq_of_not_before {p q : RulePlace} (h : ¬p.Before q) (h' : ¬q.Before p) : p = q := by
  simp only [Before, utf8Bytes_lt_iff, String.not_lt, not_or, not_and, Nat.not_lt] at h h'
  have hlanguage : p.language = q.language := String.le_antisymm h'.1 h.1
  obtain ⟨hle, hlist⟩ := h.2 hlanguage
  obtain ⟨hle', hlist'⟩ := h'.2 hlanguage.symm
  have hrule : p.rule = q.rule := Nat.le_antisymm hle' hle
  have hrank := Nat.le_antisymm (hlist' hrule.symm) (hlist hrule)
  exact RulePlace.ext hlanguage hrule (RuleList.eq_of_rank_eq hrank)

end RulePlace

namespace Rule

theorem Fits.length_eq {r : Rule} {slots : Nat} (h : r.Fits slots) (list : RuleList) :
    list.length r = slots := by
  cases list with
  | conditions => exact h.conditions
  | formats => exact h.formats
  | handlers => exact h.handlers

theorem misfit?_eq_some {r : Rule} {slots : Nat} {list : RuleList}
    (h : r.misfit? slots = some list) : list.length r ≠ slots ∧
      ∀ earlier : RuleList, earlier.rank < list.rank → earlier.length r = slots := by
  refine ⟨by simpa using List.find?_some h, fun earlier hlt => ?_⟩
  by_contra hne
  unfold misfit? at h
  cases list <;> cases earlier <;> simp_all [RuleList.rank]

end Rule

namespace Entry

def RuleAt (e : Entry) (p : RulePlace) (r : Rule) : Prop :=
  ∃ rules, (p.language, rules) ∈ e.phrases.pages ∧ rules[p.rule]? = some r

/-- The list at a place does not have one item per slot. -/
def Violates (e : Entry) (p : RulePlace) : Prop :=
  ∃ r, e.RuleAt p r ∧ p.list.length r ≠ e.slotCount

inductive FirstViolation (e : Entry) : EntryFault → Prop
  | noIds (empty : e.ids = []) : FirstViolation e .noIds
  | wrongLength {p : RulePlace} {r : Rule} (nonempty : e.ids ≠ []) (found : e.RuleAt p r)
    (length : p.list.length r ≠ e.slotCount) (first : ∀ q, e.Violates q → ¬q.Before p) :
    FirstViolation e (.wrongLength p.language p.rule p.list (p.list.length r) e.slotCount)

variable {e : Entry} {p : RulePlace} {r r' : Rule} {f f' : EntryFault} {rules rules' : List Rule}
  {language : String} {slots position : Nat}

theorem rules_unique (h : (language, rules) ∈ e.phrases.pages)
    (h' : (language, rules') ∈ e.phrases.pages) : rules = rules' := by
  have hlookup := (Phrasebook.lookup_eq_some_iff e.phrases.ascending).mpr h
  rw [(Phrasebook.lookup_eq_some_iff e.phrases.ascending).mpr h'] at hlookup
  exact (Option.some.inj hlookup).symm

theorem RuleAt.unique (h : e.RuleAt p r) (h' : e.RuleAt p r') : r = r' := by
  obtain ⟨rules, hpage, hr⟩ := h
  obtain ⟨rules', hpage', hr'⟩ := h'
  obtain rfl := rules_unique hpage hpage'
  exact Option.some.inj (hr.symm.trans hr')

theorem not_wellFormed_of_violates (h : e.Violates p) : ¬e.WellFormed := by
  obtain ⟨r, ⟨rules, hpage, hr⟩, hlength⟩ := h
  intro hwell
  exact hlength ((hwell.fits _ hpage r (List.mem_of_getElem? hr)).length_eq p.list)

namespace FirstViolation

theorem not_wellFormed (h : e.FirstViolation f) : ¬e.WellFormed := by
  cases h with
  | noIds hempty => exact fun hwell => hwell.ids hempty
  | wrongLength _ hr hlength _ => exact not_wellFormed_of_violates ⟨_, hr, hlength⟩

theorem unique (h : e.FirstViolation f) (h' : e.FirstViolation f') : f = f' := by
  cases h with
  | noIds hempty =>
    cases h' with
    | noIds _ => rfl
    | wrongLength hnonempty _ _ _ => exact absurd hempty hnonempty
  | @wrongLength p r hnonempty hr hlength hfirst =>
    cases h' with
    | noIds hempty => exact absurd hempty hnonempty
    | @wrongLength q r' _ hr' hlength' hfirst' =>
      obtain rfl : p = q :=
        RulePlace.eq_of_not_before (hfirst' p ⟨r, hr, hlength⟩) (hfirst q ⟨r', hr', hlength'⟩)
      rw [hr.unique hr']

end FirstViolation

-- the search counts from a position, the rules from zero
theorem exists_of_faultIn? (h : faultIn? slots language position rules = some f) :
    ∃ (n : Nat) (r : Rule) (list : RuleList), rules[n]? = some r ∧
      r.misfit? slots = some list ∧
      f = .wrongLength language (position + n) list (list.length r) slots ∧
      ∀ m < n, ∀ r', rules[m]? = some r' → r'.Fits slots := by
  induction rules generalizing position with
  | nil => cases h
  | cons r rules ih =>
    cases hr : r.misfit? slots with
    | some list =>
      simp only [faultIn?, hr, Option.some.injEq] at h
      exact ⟨0, r, list, rfl, hr, h.symm, fun m hm => absurd hm (Nat.not_lt_zero m)⟩
    | none =>
      simp only [faultIn?, hr] at h
      obtain ⟨n, r', list, hr', hlist, hf, hearlier⟩ := ih h
      refine ⟨n + 1, r', list, by simpa using hr', hlist, ?_, fun m hm r'' hr'' => ?_⟩
      · rw [hf, Nat.add_right_comm, Nat.add_assoc]
      · cases m with
        | zero =>
          obtain rfl : r = r'' := by simpa using hr''
          exact Rule.misfit?_eq_none_iff.mp hr
        | succ m => exact hearlier m (Nat.lt_of_succ_lt_succ hm) r'' (by simpa using hr'')

theorem mem_before_of_lt {before after : List (String × List Rule)} {page : String × List Rule}
    (hpages : e.phrases.pages = before ++ page :: after)
    (h : (language, rules) ∈ e.phrases.pages) (hlt : language < page.1) :
    (language, rules) ∈ before := by
  have hascending := e.phrases.ascending
  rw [hpages] at h hascending
  -- the page itself and those behind it have greater or equal languages
  refine (List.mem_append.mp h).resolve_right fun hmem => ?_
  rcases List.mem_cons.mp hmem with heq | hmem
  · exact String.lt_irrefl _ (heq ▸ hlt)
  · have hafter := (List.pairwise_cons.mp (List.pairwise_append.mp hascending).2.1).1 _ hmem
    exact String.lt_irrefl _ (String.lt_trans hlt hafter)

theorem firstViolation_of_fault? (h : e.fault? = some f) : e.FirstViolation f := by
  unfold fault? at h
  split at h
  next hids =>
    obtain rfl := Option.some.inj h
    exact .noIds (by simpa using hids)
  next hids =>
    obtain ⟨before, page, after, hpages, hfault, hbefore⟩ := List.findSome?_eq_some_iff.mp h
    obtain ⟨n, r, list, hr, hlist, rfl, hearlier⟩ := exists_of_faultIn? hfault
    obtain ⟨hlength, hlists⟩ := Rule.misfit?_eq_some hlist
    have hpage : (page.1, page.2) ∈ e.phrases.pages := by simp [hpages]
    have hfound : e.RuleAt ⟨page.1, n, list⟩ r := ⟨page.2, hpage, hr⟩
    rw [Nat.zero_add]
    refine FirstViolation.wrongLength (p := ⟨page.1, n, list⟩) (by simpa using hids) hfound
      hlength ?_
    intro q ⟨r', ⟨rules, hrules, hr'⟩, hlength'⟩ hq
    -- an earlier place lies in an earlier page, in an earlier rule or in an earlier list
    rcases hq with hlt | ⟨hlanguage, hrest⟩
    · have hfits := hbefore _ (mem_before_of_lt hpages hrules (utf8Bytes_lt_iff.mp hlt))
      have hmem := List.mem_of_getElem? hr'
      exact hlength' ((faultIn?_eq_none_iff.mp hfits r' hmem).length_eq q.list)
    · obtain rfl : page.2 = rules := rules_unique (hlanguage ▸ hpage) hrules
      rcases hrest with hlt | ⟨hrule, hlt⟩
      · exact hlength' ((hearlier q.rule hlt r' hr').length_eq q.list)
      · obtain rfl : r = r' := by
          rw [hrule] at hr'
          exact Option.some.inj (hr.symm.trans hr')
        exact hlength' (hlists q.list hlt)

theorem fault?_eq_some_iff : e.fault? = some f ↔ e.FirstViolation f := by
  constructor
  · exact firstViolation_of_fault?
  · intro h
    cases hfault : e.fault? with
    | none => exact absurd (fault?_eq_none_iff.mp hfault) h.not_wellFormed
    | some f' => rw [h.unique (firstViolation_of_fault? hfault)]

end Entry

namespace Table

def Invalid.behind (i : Invalid) (entries : Nat) : Invalid :=
  { i with position := entries + i.position }

/-! ## Tables put together -/

theorem firstInvalid?_add (entries position : Nat) (es : List Entry) :
    firstInvalid? (entries + position) es =
      (firstInvalid? position es).map (·.behind entries) := by
  induction es generalizing position with
  | nil => rfl
  | cons e es ih =>
    rw [firstInvalid?, firstInvalid?]
    cases e.fault? with
    | none => exact ih (position + 1)
    | some fault => rfl

theorem firstInvalid?_append (position : Nat) (es es' : List Entry) :
    firstInvalid? position (es ++ es') =
      (firstInvalid? position es).or (firstInvalid? (position + es.length) es') := by
  induction es generalizing position with
  | nil => rfl
  | cons e es ih =>
    rw [List.cons_append, firstInvalid?, firstInvalid?]
    cases e.fault? with
    | none => simp only [ih, List.length_cons, Nat.add_right_comm, Nat.add_assoc]
    | some fault => rfl

theorem invalid?_append (t u : Table) :
    (t ++ u).invalid? = t.invalid?.or (u.invalid?.map (·.behind t.size)) := by
  rw [invalid?, entries_append, firstInvalid?_append, Nat.zero_add, ← Nat.add_zero t.entries.length,
    firstInvalid?_add]
  rfl

/-- A table is valid exactly if all its entries are well formed; otherwise validation reports
the least position of an entry that is not, with the first violation of that entry. A table
with another one appended has the fault of the first, or else the fault of the second behind
the entries of the first, so it is valid exactly if both are. -/
theorem validation_of_tables :
    (∀ t : Table, t.invalid? = none ↔ ∀ e ∈ t.entries, e.WellFormed) ∧
    (∀ (t : Table) i, t.invalid? = some i ↔
      (∃ e, t.entries[i.position]? = some e ∧ e.FirstViolation i.fault) ∧
        ∀ n < i.position, ∀ e, t.entries[n]? = some e → e.WellFormed) ∧
    ∀ t u : Table,
      (t ++ u).invalid? = t.invalid?.or (u.invalid?.map (·.behind t.size)) ∧
      ((t ++ u).invalid? = none ↔ t.invalid? = none ∧ u.invalid? = none) := by
  refine ⟨fun t => invalid?_eq_none_iff, fun t i => ?_, fun t u => ⟨invalid?_append t u, ?_⟩⟩
  · rw [invalid?_eq_some_iff]
    simp only [← Entry.fault?_eq_some_iff]
    exact ⟨fun h => ⟨h.found, h.earlier⟩, fun h => ⟨h.1, h.2⟩⟩
  · rw [invalid?_append, Option.or_eq_none_iff, Option.map_eq_none_iff]

/-- The language that was added last comes first, and the first of its rules is in order. -/
example :
    let fits : Rule :=
      { conditions := [{}, {}], handlers := [[], []], formats := ["#", "#"], template := "" }
    let short : Rule := { fits with formats := ["#"] }
    let life : Entry := { ids := ["life"] }
    let both : Entry :=
      { ids := ["fire", "cold"]
        phrases := (Phrasebook.empty.insert "German" [short]).insert "French" [fits, short] }
    (ofEntries [life, both]).invalid? = some ⟨1, .wrongLength "French" 1 .formats 1 2⟩ := by
  decide +kernel

end Table

end StatProse
