import StatProse.Document.Table
import StatProse.Proofs.ByteOrder

/-!
# What an entry document means

The members of an entry document come in any order, and keys may repeat. What counts is the
only member `ids` and, of each language, the last member. The first language that fails is
named in the order of names, not of members, so the entry or the failure that is read
depends on nothing else.
-/

namespace StatProse

open Json

namespace Phrasebook

variable {α : Type} {pages pages' : List (String × α)} {key language : String} {content : α}

theorem lookup_cons_page (page : String × α) :
    (page :: pages).lookup key = if key = page.1 then some page.2 else pages.lookup key := by
  by_cases hkey : key = page.1
  · rw [if_pos hkey, hkey, List.lookup_cons_self]
  · rw [if_neg hkey, List.lookup_cons, beq_false_of_ne hkey]

theorem lookup_insertPage : (insertPage language content pages).lookup key =
    if key = language then some content else pages.lookup key := by
  induction pages with
  | nil => exact lookup_cons_page _
  | cons page pages ih =>
    unfold insertPage
    split
    · exact lookup_cons_page _
    · split
      next hlt =>
        have hne : page.1 ≠ language := fun heq => String.lt_irrefl _ (heq ▸ hlt)
        by_cases hkey : key = page.1 <;> simp [lookup_cons_page, hkey, ih, hne]
      next hle hge =>
        have heq : language = page.1 :=
          String.le_antisymm (String.not_lt.mp hge) (String.not_lt.mp hle)
        by_cases hkey : key = language <;> simp [lookup_cons_page, ← heq, hkey]

theorem lookup_foldl_insertPage (members : List (String × α)) :
    (members.foldl (fun pages m => insertPage m.1 m.2 pages) pages).lookup key =
      (members.reverse.lookup key).or (pages.lookup key) := by
  induction members generalizing pages with
  | nil => simp
  | cons m members ih =>
    rw [List.foldl_cons, ih, lookup_insertPage, List.reverse_cons, List.lookup_append,
      lookup_cons_page, Option.or_assoc]
    by_cases hkey : key = m.1 <;> simp [hkey]

theorem pairwise_foldl_insertPage (members : List (String × α))
    (h : pages.Pairwise (fun a b => a.1 < b.1)) :
    (members.foldl (fun pages m => insertPage m.1 m.2 pages) pages).Pairwise
      (fun a b => a.1 < b.1) := by
  induction members generalizing pages with
  | nil => exact h
  | cons m members ih => exact ih (pairwise_insertPage h)

theorem lookup_eq_some_iff (h : pages.Pairwise (fun a b => a.1 < b.1)) :
    pages.lookup key = some content ↔ (key, content) ∈ pages := by
  induction pages with
  | nil => simp
  | cons page pages ih =>
    obtain ⟨hfirst, hpages⟩ := List.pairwise_cons.mp h
    rw [lookup_cons_page, List.mem_cons, Prod.ext_iff]
    by_cases hkey : key = page.1
    · have hnot : (key, content) ∉ pages := fun hmem =>
        String.lt_irrefl _ (hkey ▸ hfirst _ hmem)
      simp [hkey, hkey ▸ hnot, eq_comm]
    · simp [hkey, ih hpages]

theorem eq_of_lookup (h : pages.Pairwise (fun a b => a.1 < b.1))
    (h' : pages'.Pairwise (fun a b => a.1 < b.1))
    (hlookup : ∀ key, pages.lookup key = pages'.lookup key) : pages = pages' := by
  -- no key is repeated, so the two have the same pages, and their order is fixed
  have hperm : pages.Perm pages' := by
    refine (List.perm_ext_iff_of_nodup (h.imp ?_) (h'.imp ?_)).mpr fun page => ?_
    · rintro a b hlt rfl
      exact String.lt_irrefl _ hlt
    · rintro a b hlt rfl
      exact String.lt_irrefl _ hlt
    · rw [← lookup_eq_some_iff h, ← lookup_eq_some_iff h', hlookup]
  exact hperm.eq_of_pairwise (fun a b _ _ hlt hgt => absurd hgt (String.lt_asymm hlt)) h h'

end Phrasebook

namespace Entry

variable {members members' : List (String × Value)} {key : String} {v : Value}
  {ids : List String}

/-- The last member of a key, by its value. -/
def LastMember (members : List (String × Value)) (key : String) (v : Value) : Prop :=
  ∃ before after, members = before ++ (key, v) :: after ∧ ∀ m ∈ after, m.1 ≠ key

/-- There is one member `ids`, and it is a list of texts. -/
def HasIds (members : List (String × Value)) (ids : List String) : Prop :=
  ∃ before v after, members = before ++ (idsKey, v) :: after ∧
    (∀ m ∈ before ++ after, m.1 ≠ idsKey) ∧ v.list? Value.text? = some ids

def Fails (members : List (String × Value)) (language : String) : Prop :=
  isLanguageKey language ∧ ∃ v, LastMember members language v ∧ readRules? v = none

theorem lastMember_iff : LastMember members key v ↔ members.reverse.lookup key = some v := by
  rw [List.lookup_eq_some_iff]
  constructor
  · rintro ⟨before, after, rfl, hafter⟩
    refine ⟨after.reverse, before.reverse, by simp, fun m hm => ?_⟩
    exact bne_iff_ne.mpr (Ne.symm (hafter m (List.mem_reverse.mp hm)))
  · rintro ⟨after, before, hmembers, hafter⟩
    refine ⟨before.reverse, after.reverse, ?_, fun m hm => ?_⟩
    · rw [← List.reverse_reverse members, hmembers]
      simp
    · exact Ne.symm (bne_iff_ne.mp (hafter m (List.mem_reverse.mp hm)))

theorem lookup_filter_key (p : String → Bool) (members : List (String × Value)) :
    (members.filter (fun m => p m.1)).lookup key = if p key then members.lookup key else none := by
  induction members with
  | nil => simp
  | cons m members ih =>
    by_cases hkey : key = m.1
    · subst hkey
      cases hp : p m.1 <;> simp [hp, ih, Phrasebook.lookup_cons_page]
    · cases hp : p m.1 <;> simp [hp, ih, Phrasebook.lookup_cons_page, hkey]

theorem lookup_languageMembers : (languageMembers members).lookup key =
    if isLanguageKey key then members.reverse.lookup key else none := by
  rw [languageMembers, Phrasebook.lookup_foldl_insertPage, ← List.filter_reverse,
    lookup_filter_key, List.lookup_nil, Option.or_none]

theorem ascending_languageMembers (members : List (String × Value)) :
    (languageMembers members).Pairwise (fun a b => a.1 < b.1) :=
  Phrasebook.pairwise_foldl_insertPage _ List.Pairwise.nil

theorem mem_languageMembers :
    (key, v) ∈ languageMembers members ↔ isLanguageKey key ∧ LastMember members key v := by
  rw [← Phrasebook.lookup_eq_some_iff (ascending_languageMembers members),
    lookup_languageMembers, lastMember_iff]
  split <;> simp_all

/-! ## The rules of the languages -/

theorem readPages_eq_error_iff {fault : DocumentFault} :
    readPages members = .error fault ↔ ∃ m,
      members.find? (fun m => (readRules? m.2).isNone) = some m ∧ fault = .language m.1 := by
  induction members with
  | nil => simp [readPages]
  | cons m members ih =>
    cases hm : readRules? m.2 with
    | none => simp [readPages, hm, eq_comm]
    | some rules =>
      cases hrest : readPages members <;> rw [hrest] at ih <;>
        simpa [readPages, hm, hrest, Except.map] using ih

theorem lookup_of_readPages {b : Phrasebook} (h : readPages members = .ok b) (key : String) :
    b.pages.lookup key = (members.lookup key).bind readRules? := by
  induction members generalizing b with
  | nil =>
    obtain rfl : Phrasebook.empty = b := by simpa [readPages] using h
    rfl
  | cons m members ih =>
    cases hm : readRules? m.2 with
    | none => simp [readPages, hm] at h
    | some rules =>
      cases hrest : readPages members with
      | error _ => simp [readPages, hm, hrest, Except.map] at h
      | ok rest =>
        obtain rfl : rest.insert m.1 rules = b := by
          simpa [readPages, hm, hrest, Except.map] using h
        rw [Phrasebook.insert, Phrasebook.lookup_insertPage, ih hrest,
          Phrasebook.lookup_cons_page]
        by_cases hkey : key = m.1 <;> simp [hkey, hm]

theorem mem_pages_of_readPages {b : Phrasebook} (h : readPages (languageMembers members) = .ok b)
    {rules : List Rule} : (key, rules) ∈ b.pages ↔
      isLanguageKey key ∧ ∃ v, LastMember members key v ∧ readRules? v = some rules := by
  rw [← Phrasebook.lookup_eq_some_iff b.ascending, lookup_of_readPages h, Option.bind_eq_some_iff]
  simp only [Phrasebook.lookup_eq_some_iff (ascending_languageMembers members),
    mem_languageMembers, and_assoc, exists_and_left]

theorem fails_iff_mem : Fails members key ↔
    ∃ m ∈ languageMembers members, m.1 = key ∧ readRules? m.2 = none := by
  constructor
  · rintro ⟨hkey, v, hlast, hv⟩
    exact ⟨(key, v), mem_languageMembers.mpr ⟨hkey, hlast⟩, rfl, hv⟩
  · rintro ⟨m, hm, rfl, hv⟩
    obtain ⟨hkey, hlast⟩ := mem_languageMembers.mp hm
    exact ⟨hkey, m.2, hlast, hv⟩

theorem least_of_readPages {fault : DocumentFault}
    (h : readPages (languageMembers members) = .error fault) :
    ∃ language, fault = .language language ∧ Fails members language ∧
      ∀ other, Fails members other → language ≤ other := by
  obtain ⟨m, hfind, rfl⟩ := readPages_eq_error_iff.mp h
  obtain ⟨hm, before, after, hmembers, hbefore⟩ := List.find?_eq_some_iff_append.mp hfind
  refine ⟨m.1, rfl, fails_iff_mem.mpr ⟨m, ?_, rfl, by simpa using hm⟩, fun other hother => ?_⟩
  · simp [hmembers]
  obtain ⟨m', hm', rfl, hv⟩ := fails_iff_mem.mp hother
  have hascending := ascending_languageMembers members
  rw [hmembers] at hm' hascending
  -- what stands before the named member decodes, what stands after it has a greater key
  rcases List.mem_append.mp hm' with hm' | hm'
  · have hdecodes := hbefore m' hm'
    simp [hv] at hdecodes
  rcases List.mem_cons.mp hm' with rfl | hm'
  · exact String.le_refl _
  · have hlt := (List.pairwise_cons.mp (List.pairwise_append.mp hascending).2.1).1 m' hm'
    exact String.not_lt.mp (String.lt_asymm hlt)

theorem exists_readPages_iff :
    (∃ b, readPages (languageMembers members) = .ok b) ↔ ∀ language, ¬Fails members language := by
  constructor
  · rintro ⟨b, hb⟩ language hfails
    obtain ⟨m, hm, -, hv⟩ := fails_iff_mem.mp hfails
    cases hfind : (languageMembers members).find? (fun m => (readRules? m.2).isNone) with
    | none => simpa [hv] using List.find?_eq_none.mp hfind m hm
    | some first =>
      rw [readPages_eq_error_iff.mpr ⟨first, hfind, rfl⟩] at hb
      cases hb
  · intro hall
    cases hpages : readPages (languageMembers members) with
    | ok b => exact ⟨b, rfl⟩
    | error fault =>
      obtain ⟨language, -, hfails, -⟩ := least_of_readPages hpages
      exact absurd hfails (hall language)

/-! ## The entry -/

theorem hasIds_iff : HasIds members ids ↔
    ∃ v, members.filter (fun m => m.1 == idsKey) = [(idsKey, v)] ∧
      v.list? Value.text? = some ids := by
  constructor
  · rintro ⟨before, v, after, rfl, hothers, hids⟩
    -- apart from the one member, the filter leaves nothing
    have hnone : (before ++ after).filter (fun m => m.1 == idsKey) = [] :=
      List.filter_eq_nil_iff.mpr fun m hm => by simpa using hothers m hm
    rw [List.filter_append, List.append_eq_nil_iff] at hnone
    exact ⟨v, by simp [hnone], hids⟩
  · rintro ⟨v, hfilter, hids⟩
    obtain ⟨before, after, hmembers, hbefore, -, hafter⟩ := List.filter_eq_cons_iff.mp hfilter
    refine ⟨before, v, after, hmembers, fun m hm => ?_, hids⟩
    rcases List.mem_append.mp hm with hm | hm
    · simpa using hbefore m hm
    · simpa using List.filter_eq_nil_iff.mp hafter m hm

theorem ofMembers_of_hasIds (h : HasIds members ids) : ofMembers members =
    (readPages (languageMembers members)).map (fun phrases => { ids, phrases }) := by
  obtain ⟨v, hfilter, hids⟩ := hasIds_iff.mp h
  simp only [ofMembers, hfilter, hids]

theorem ofMembers_of_not_hasIds (h : ∀ ids, ¬HasIds members ids) :
    ofMembers members = .error .malformed := by
  unfold ofMembers
  split
  next key v hfilter =>
    have hmem : (key, v) ∈ members.filter (fun m => m.1 == idsKey) := by simp [hfilter]
    obtain rfl : key = idsKey := eq_of_beq (List.mem_filter.mp hmem).2
    split
    next ids hids => exact absurd (hasIds_iff.mpr ⟨v, hfilter, hids⟩) (h ids)
    next => rfl
  next => rfl

theorem ofMembers_congr
    (hids : members.filter (fun m => m.1 == idsKey) = members'.filter (fun m => m.1 == idsKey))
    (hlast : ∀ key v, isLanguageKey key → (LastMember members key v ↔ LastMember members' key v)) :
    ofMembers members = ofMembers members' := by
  have hlanguages : languageMembers members = languageMembers members' := by
    refine Phrasebook.eq_of_lookup (ascending_languageMembers members)
      (ascending_languageMembers members') fun key => Option.ext fun v => ?_
    rw [Phrasebook.lookup_eq_some_iff (ascending_languageMembers members),
      Phrasebook.lookup_eq_some_iff (ascending_languageMembers members'), mem_languageMembers,
      mem_languageMembers, and_congr_right fun hkey => hlast key v hkey]
  unfold ofMembers
  rw [hids, hlanguages]

def isReadKey (key : String) : Bool := key == idsKey || isLanguageKey key

theorem ofMembers_of_filter_key (h : ∀ key, isReadKey key →
      members.filter (fun m => m.1 == key) = members'.filter (fun m => m.1 == key)) :
    ofMembers members = ofMembers members' := by
  -- the last member of a key is the last one among the members of the key
  have hlookup : ∀ (ms : List (String × Value)) key,
      ms.reverse.lookup key = (ms.filter (fun m => m.1 == key)).reverse.lookup key := by
    intro ms key
    rw [← List.filter_reverse, lookup_filter_key (· == key), if_pos (beq_self_eq_true key)]
  refine ofMembers_congr (h idsKey (by simp [isReadKey])) fun key v hkey => ?_
  rw [lastMember_iff, lastMember_iff, hlookup members, hlookup members',
    h key (by simp [isReadKey, hkey])]

theorem ofMembers_of_perm (h : members.Perm members') (hnodup : (members.map Prod.fst).Nodup) :
    ofMembers members = ofMembers members' := by
  have hnodup' : (members'.map Prod.fst).Nodup := (h.map Prod.fst).nodup hnodup
  refine ofMembers_of_filter_key fun key _ => ?_
  refine (h.filter _).eq_of_pairwise (fun a b ha hb hab _ => absurd ?_ hab)
    ((List.pairwise_map.mp hnodup).filter _) ((List.pairwise_map.mp hnodup').filter _)
  rw [eq_of_beq (List.mem_filter.mp ha).2, eq_of_beq (List.mem_filter.mp hb).2]

theorem ofMembers_of_filter
    (h : members.filter (fun m => isReadKey m.1) = members'.filter (fun m => isReadKey m.1)) :
    ofMembers members = ofMembers members' := by
  have hfilter : ∀ (ms : List (String × Value)) key, isReadKey key →
      ms.filter (fun m => m.1 == key) =
        (ms.filter (fun m => isReadKey m.1)).filter (fun m => m.1 == key) := by
    intro ms key hkey
    rw [List.filter_filter]
    refine List.filter_congr fun m _ => ?_
    by_cases hm : m.1 = key <;> simp [hm, hkey]
  exact ofMembers_of_filter_key fun key hkey => by
    rw [hfilter members key hkey, hfilter members' key hkey, h]

theorem ne_idsKey_of_isLanguageKey (h : isLanguageKey key) : key ≠ idsKey := by
  rintro rfl
  revert h
  decide

theorem ofMembers_of_repeated (hkey : isLanguageKey key) (before middle after v v') :
    ofMembers (before ++ (key, v) :: middle ++ (key, v') :: after) =
      ofMembers (before ++ middle ++ (key, v') :: after) := by
  refine ofMembers_congr ?_ fun other _ _ => ?_
  · simp [ne_idsKey_of_isLanguageKey hkey]
  · rw [lastMember_iff, lastMember_iff]
    by_cases hother : other = key <;>
      simp [List.lookup_append, Phrasebook.lookup_cons_page, hother]

/-- The entry that an object stands for, or why it stands for none. Members that are not read
from, earlier members of a language and the order of members of different keys make no
difference. -/
theorem ofValue_of_members (members : List (String × Value)) :
    (∀ ids, HasIds members ids →
      ((∃ e, ofValue (.object members) = .ok e) ↔ ∀ language, ¬Fails members language) ∧
      (∀ e, ofValue (.object members) = .ok e → e.ids = ids ∧
        ∀ language rules, (language, rules) ∈ e.phrases.pages ↔ isLanguageKey language ∧
          ∃ v, LastMember members language v ∧ readRules? v = some rules) ∧
      ∀ fault, ofValue (.object members) = .error fault →
        ∃ language, fault = .language language ∧ Fails members language ∧
          ∀ other, Fails members other → utf8Bytes language ≤ utf8Bytes other) ∧
    ((∀ ids, ¬HasIds members ids) → ofValue (.object members) = .error .malformed) ∧
    (∀ members', members.Perm members' → (members.map Prod.fst).Nodup →
      ofValue (.object members) = ofValue (.object members')) ∧
    (∀ members', (∀ key, isReadKey key →
        members.filter (fun m => m.1 == key) = members'.filter (fun m => m.1 == key)) →
      ofValue (.object members) = ofValue (.object members')) ∧
    (∀ members', members.filter (fun m => isReadKey m.1) =
        members'.filter (fun m => isReadKey m.1) →
      ofValue (.object members) = ofValue (.object members')) ∧
    ∀ before language v middle v' after, isLanguageKey language →
      members = before ++ (language, v) :: middle ++ (language, v') :: after →
      ofValue (.object members) =
        ofValue (.object (before ++ middle ++ (language, v') :: after)) := by
  refine ⟨fun ids hids => ?_, ofMembers_of_not_hasIds, fun _ => ofMembers_of_perm,
    fun _ => ofMembers_of_filter_key, fun _ => ofMembers_of_filter, ?_⟩
  · simp only [ofValue, ofMembers_of_hasIds hids, ← exists_readPages_iff]
    cases hpages : readPages (languageMembers members) with
    | ok b =>
      refine ⟨by simp [Except.map], fun e he => ?_, fun fault h => by cases h⟩
      cases he
      exact ⟨rfl, fun _ _ => mem_pages_of_readPages hpages⟩
    | error fault =>
      refine ⟨by simp [Except.map], fun e he => (nomatch he), fun fault' h => ?_⟩
      cases h
      obtain ⟨language, hfault, hfails, hleast⟩ := least_of_readPages hpages
      exact ⟨language, hfault, hfails, fun other h => utf8Bytes_le_iff.mpr (hleast other h)⟩
  · rintro before language v middle v' after hkey rfl
    exact ofMembers_of_repeated hkey before middle after v v'

/-- A repeated language, keys that are not read, two languages that fail and no `ids`. -/
theorem ofValue_of_life :
    let rule : Value :=
      .object [("string", .text "Life"), ("condition", .array []), ("format", .array [])]
    let ids : String × Value := ("ids", .array [.text "life"])
    let english : String × Value := ("English", .array [rule])
    let members := [("English", .null), ids, english, ("note", .null)]
    let plain : Rule := { conditions := [], formats := [], template := "Life" }
    let life : Entry := { ids := ["life"], phrases := Phrasebook.empty.insert "English" [plain] }
    let swapped := [ids, ("English", .null), english, ("note", .null)]
    let failing := [("Zulu", .null), ids, ("German", .null)]
    HasIds members ["life"] ∧ ofValue (.object members) = .ok life ∧
    (∀ language, ¬Fails members language) ∧
    (∃ v, LastMember members "English" v ∧ readRules? v = some (life.rulesFor "English")) ∧
    isLanguageKey "English" ∧
    ofValue (.object members) = ofValue (.object [ids, english, ("note", .null)]) ∧
    (∀ key, isReadKey key →
      members.filter (fun m => m.1 == key) = swapped.filter (fun m => m.1 == key)) ∧
    ofValue (.object members) = ofValue (.object swapped) ∧
    members.filter (fun m => isReadKey m.1) =
      [("English", .null), ids, ("note", .null), english].filter (fun m => isReadKey m.1) ∧
    ofValue (.object members) =
      ofValue (.object [("English", .null), ids, ("note", .null), english]) ∧
    HasIds failing ["life"] ∧ ofValue (.object failing) = .error (.language "German") ∧
    Fails failing "German" ∧ Fails failing "Zulu" ∧
    failing.Perm failing.reverse ∧ (failing.map Prod.fst).Nodup ∧
    ofValue (.object failing) = ofValue (.object failing.reverse) ∧
    (∀ ids, ¬HasIds [english] ids) ∧ ofValue (.object [english]) = .error .malformed := by
  intro rule ids english members plain life swapped failing
  have hids : HasIds members ["life"] :=
    ⟨[("English", .null)], _, [english, ("note", .null)], rfl, by simp [english, idsKey], rfl⟩
  have hids' : HasIds failing ["life"] :=
    ⟨[("Zulu", .null)], _, [("German", .null)], rfl, by simp [idsKey], rfl⟩
  have hnone : ∀ ids, ¬HasIds [english] ids := by
    intro ids h
    obtain ⟨v, hfilter, -⟩ := hasIds_iff.mp h
    simp [english, idsKey] at hfilter
  have hlife : ofValue (.object members) = .ok life := by
    rw [ofValue, ofMembers_of_hasIds hids]
    dsimp only [members, ids, english, rule, life, plain]
    rfl
  have hgerman : ofValue (.object failing) = .error (.language "German") := by
    rw [ofValue, ofMembers_of_hasIds hids']
    dsimp only [failing, ids]
    rfl
  have hzulu : Fails failing "Zulu" :=
    ⟨by decide, .null, ⟨[], [ids, ("German", .null)], rfl, by simp [ids]⟩, rfl⟩
  have hfilter : members.filter (fun m => isReadKey m.1) =
      [("English", .null), ids, ("note", .null), english].filter (fun m => isReadKey m.1) := by
    rfl
  have hswapped : ∀ key, isReadKey key →
      members.filter (fun m => m.1 == key) = swapped.filter (fun m => m.1 == key) := by
    intro key _
    by_cases hkey : "ids" = key
    · simp [members, swapped, ids, english, ← hkey]
    · simp [members, swapped, ids, List.filter_cons, hkey]
  have hnodup : (failing.map Prod.fst).Nodup := by simp [failing, ids]
  obtain ⟨hread, -, -, horder, hunread, hrepeated⟩ := ofValue_of_members members
  obtain ⟨hreadFailing, -, hperm, -⟩ := ofValue_of_members failing
  obtain ⟨-, hmalformed, -⟩ := ofValue_of_members [english]
  obtain ⟨hok, hpages, -⟩ := hread ["life"] hids
  obtain ⟨-, -, herror⟩ := hreadFailing ["life"] hids'
  obtain ⟨language, heq, hfails, -⟩ := herror _ hgerman
  cases heq
  have hreverse : failing.Perm failing.reverse := failing.reverse_perm.symm
  refine ⟨hids, hlife, hok.mp ⟨life, hlife⟩, ?_, by decide, ?_, hswapped, horder _ hswapped,
    hfilter, hunread _ hfilter, hids', hgerman, hfails, hzulu, hreverse, hnodup,
    hperm _ hreverse hnodup, hnone, hmalformed hnone⟩
  · exact (((hpages life hlife).2 "English" _).mp (List.mem_singleton.mpr rfl)).2
  · exact hrepeated [] "English" .null [ids] _ [("note", .null)] (by decide) rfl

end Entry

end StatProse
