import StatProse.Rule

/-!
# Entries

An entry phrases one or more stats together. It has a slot for each of its stat ids and,
for each language, a list of rules. Languages are kept in ascending order, so equal
contents make equal phrasebooks whatever order they were added in.
-/

namespace StatProse

structure Phrasebook where
  pages : List (String × List Rule) := []
  ascending : pages.Pairwise (fun a b => a.1 < b.1) := by exact List.Pairwise.nil
deriving DecidableEq

namespace Phrasebook

/-- Puts a page into an ascending list; it replaces a page of the same language. -/
def insertPage {α : Type} (language : String) (content : α) :
    List (String × α) → List (String × α)
  | [] => [(language, content)]
  | page :: pages =>
    if language < page.1 then (language, content) :: page :: pages
    else if page.1 < language then page :: insertPage language content pages
    else (language, content) :: pages

theorem mem_insertPage {α : Type} {language : String} {content : α}
    {pages : List (String × α)} {page : String × α}
    (h : page ∈ insertPage language content pages) : page = (language, content) ∨ page ∈ pages := by
  induction pages with
  | nil => simpa [insertPage] using h
  | cons first pages ih =>
    unfold insertPage at h
    split at h
    · simpa using h
    · split at h
      · rcases List.mem_cons.mp h with h | h
        · simp [h]
        · rcases ih h with h | h <;> simp [h]
      · rcases List.mem_cons.mp h with h | h <;> simp [h]

theorem pairwise_insertPage {α : Type} {language : String} {content : α}
    {pages : List (String × α)} (h : pages.Pairwise (fun a b => a.1 < b.1)) :
    (insertPage language content pages).Pairwise (fun a b => a.1 < b.1) := by
  induction pages with
  | nil => simp [insertPage]
  | cons first pages ih =>
    have hp := List.pairwise_cons.mp h
    unfold insertPage
    split
    · rename_i hlt
      refine List.pairwise_cons.mpr ⟨fun page hmem => ?_, h⟩
      rcases List.mem_cons.mp hmem with rfl | hmem
      · exact hlt
      · exact String.lt_trans hlt (hp.1 page hmem)
    · split
      · rename_i hlt
        refine List.pairwise_cons.mpr ⟨fun page hmem => ?_, ih hp.2⟩
        rcases mem_insertPage hmem with rfl | hmem
        · exact hlt
        · exact hp.1 page hmem
      · rename_i hle hge
        have heq : language = first.1 :=
          String.le_antisymm (String.not_lt.mp hge) (String.not_lt.mp hle)
        refine List.pairwise_cons.mpr ⟨fun page hmem => ?_, hp.2⟩
        simpa [heq] using hp.1 page hmem

def empty : Phrasebook := {}

def insert (b : Phrasebook) (language : String) (rules : List Rule) : Phrasebook :=
  ⟨insertPage language rules b.pages, pairwise_insertPage b.ascending⟩

def rulesFor (b : Phrasebook) (language : String) : List Rule :=
  (b.pages.lookup language).getD []

end Phrasebook

structure Entry where
  /-- Slot `i` phrases the stat `ids[i]`. -/
  ids : List String
  phrases : Phrasebook := .empty
deriving DecidableEq

/-- A rule's list that does not have one item per slot. -/
inductive RuleList where
  | conditions
  | formats
  | handlers
deriving DecidableEq, Repr

namespace RuleList

def name : RuleList → String
  | conditions => "conditions"
  | formats => "formats"
  | handlers => "handler lists"

def length (r : Rule) : RuleList → Nat
  | conditions => r.conditions.length
  | formats => r.formats.length
  | handlers => r.handlers.length

end RuleList

inductive EntryFault where
  | noIds
  | wrongLength (language : String) (rule : Nat) (list : RuleList) (found expected : Nat)
deriving DecidableEq

namespace EntryFault

def message : EntryFault → String
  | noIds => "entry has no stat ids"
  | wrongLength language rule list found expected =>
    s!"{language} rule {rule}: {found} {list.name} for {expected} ids"

end EntryFault

namespace Rule

def misfit? (r : Rule) (slots : Nat) : Option RuleList :=
  [RuleList.conditions, .formats, .handlers].find? (fun list => list.length r != slots)

end Rule

namespace Entry

def slotCount (e : Entry) : Nat := e.ids.length

def mentions (e : Entry) (id : String) : Bool := e.ids.contains id

def slotOf? (e : Entry) (id : String) : Option Nat := e.ids.idxOf? id

def rulesFor (e : Entry) (language : String) : List Rule := e.phrases.rulesFor language

def faultIn? (slots : Nat) (language : String) : Nat → List Rule → Option EntryFault
  | _, [] => none
  | position, r :: rules =>
    match r.misfit? slots with
    | some list => some (.wrongLength language position list (list.length r) slots)
    | none => faultIn? slots language (position + 1) rules

/-- The first fault of an entry: no ids, else the first rule, by language and then by
position, with a list that does not have one item per slot. -/
def fault? (e : Entry) : Option EntryFault :=
  if e.ids.isEmpty then some .noIds
  else e.phrases.pages.findSome? (fun page => faultIn? e.slotCount page.1 0 page.2)

end Entry

end StatProse
