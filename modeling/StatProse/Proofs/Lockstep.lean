import Mathlib.Data.List.Forall2
import StatProse.Line

/-!
# Placing stats side by side

Two tables place the stats of two lists one after another. A relation between lines that
each pair of stats keeps holds of all the lines in the end, position by position.
-/

namespace StatProse

theorem cases_of_optionRel {α β : Type} {r : α → β → Prop} {a? : Option α} {b? : Option β}
    (h : Option.Rel r a? b?) :
    (a? = none ∧ b? = none) ∨ ∃ a b, a? = some a ∧ b? = some b ∧ r a b := by
  cases h with
  | none => exact .inl ⟨rfl, rfl⟩
  | some hab => exact .inr ⟨_, _, rfl, rfl, hab⟩

theorem forall₂_iff_getElem? {α β : Type} {r : α → β → Prop} {as : List α} {bs : List β} :
    List.Forall₂ r as bs ↔ as.length = bs.length ∧
      ∀ (i : Nat) a b, as[i]? = some a → bs[i]? = some b → r a b := by
  rw [List.forall₂_iff_get]
  refine and_congr_right fun _ => ⟨fun h i a b ha hb => ?_, fun h i ha hb => ?_⟩
  · obtain ⟨hlt, rfl⟩ := List.getElem?_eq_some_iff.mp ha
    obtain ⟨hlt', rfl⟩ := List.getElem?_eq_some_iff.mp hb
    exact h i hlt hlt'
  · exact h i _ _ (List.getElem?_eq_getElem ha) (List.getElem?_eq_getElem hb)

/-- What a relation between lines needs for two stats to be placed side by side: related
lines take the stats together and stay related, and the stats open related lines or none. -/
structure Lockstep (R : Line → Line → Prop) (t t' : Table) (live live' : Bool) (r s : Roll) :
    Prop where
  mentions : ∀ l l', R l l' → l.entry.mentions r.id = l'.entry.mentions s.id
  fill : ∀ l l', R l l' → R (l.fill r) (l'.fill s)
  blank : Option.Rel (fun found found' =>
    R (.blank found.1 found.2 live) (.blank found'.1 found'.2 live'))
    (t.entryFor? r.id) (t'.entryFor? s.id)

namespace Lockstep

variable {R : Line → Line → Prop} {t t' : Table} {live live' : Bool} {r s : Roll}
  {ls ls' : List Line} {rolls rolls' : List Roll}

theorem of_id_eq (hid : r.id = s.id) (hentry : ∀ l l', R l l' → l.entry = l'.entry)
    (hfill : ∀ l l', R l l' → R (l.fill r) (l'.fill s))
    (hblank : ∀ position e, R (.blank position e live) (.blank position e live')) :
    Lockstep R t t live live' r s where
  mentions l l' hl := by rw [hentry l l' hl, hid]
  fill := hfill
  blank := by
    rw [hid]
    cases t.entryFor? s.id with
    | none => exact .none
    | some found => exact .some (hblank found.1 found.2)

theorem place (h : Lockstep R t t' live live' r s) (hls : List.Forall₂ R ls ls') :
    List.Forall₂ R (t.place live ls r) (t'.place live' ls' s) := by
  induction hls with
  | nil =>
    rcases cases_of_optionRel h.blank with ⟨hf, hf'⟩ | ⟨found, found', hf, hf', hblank⟩
    · simp only [Table.place, hf, hf']
      exact .nil
    · simp only [Table.place, hf, hf']
      exact .cons (h.fill _ _ hblank) .nil
  | @cons l l' ls ls' hl hrest ih =>
    simp only [Table.place, h.mentions l l' hl]
    cases l'.entry.mentions s.id with
    | true => exact .cons (h.fill l l' hl) hrest
    | false => exact .cons hl ih

theorem foldl_place (h : List.Forall₂ (Lockstep R t t' live live') rolls rolls')
    (hls : List.Forall₂ R ls ls') :
    List.Forall₂ R (rolls.foldl (t.place live) ls) (rolls'.foldl (t'.place live') ls') := by
  induction h generalizing ls ls' with
  | nil => exact hls
  | cons hstep _ ih => exact ih (hstep.place hls)

theorem forall₂_lines {stats stats' : List Stat} {values values' : Option (List Double)}
    (h : List.Forall₂ (Lockstep R t t' values.isSome values'.isSome)
      (Roll.align stats (values.getD [])) (Roll.align stats' (values'.getD []))) :
    List.Forall₂ R (t.lines stats values) (t'.lines stats' values') :=
  foldl_place h .nil

end Lockstep

end StatProse
