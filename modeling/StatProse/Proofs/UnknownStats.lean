import StatProse.Describer
import StatProse.Proofs.Filling

/-!
# Stats that the table does not know

A stat that no entry mentions leaves no trace. It neither joins nor opens a line, so the
lines are those of the stats that are left when all such stats are deleted, each with its
live value. Nor does it shift the position at which two tiers part.
-/

namespace StatProse

namespace Table

instance (t : Table) (x : String) : Decidable (t.Knows x) :=
  inferInstanceAs (Decidable (∃ e ∈ t.entries, x ∈ e.ids))

def known (t : Table) (stats : List Stat) : List Stat := stats.filter (fun s => t.Knows s.id)

/-- Live values without those at the positions of unknown stats. Values past the last stat
stay. -/
def knownValues (t : Table) : List Stat → List Double → List Double
  | [], values => values
  | _ :: _, [] => []
  | s :: stats, v :: values =>
    if t.Knows s.id then v :: t.knownValues stats values else t.knownValues stats values

def prune (t : Table) (m : Modifier) : Modifier := { m with stats := t.known m.stats }

def Covers (t : Table) (lines : List Line) : Prop := ∀ l ∈ lines, l.entry ∈ t.entries

variable {t : Table} {live : Bool} {lines : List Line} {l : Line} {r : Roll} {s : Stat}
  {stats : List Stat}

@[simp] theorem known_cons_of_knows (h : t.Knows s.id) :
    t.known (s :: stats) = s :: t.known stats := by
  simp [known, h]

@[simp] theorem known_cons_of_not_knows (h : ¬t.Knows s.id) :
    t.known (s :: stats) = t.known stats := by
  simp [known, h]

@[simp] theorem knownValues_nil (t : Table) (stats : List Stat) : t.knownValues stats [] = [] := by
  cases stats <;> rfl

theorem align_known (t : Table) (stats : List Stat) (values : List Double) :
    Roll.align (t.known stats) (t.knownValues stats values) =
      (Roll.align stats values).filter (fun r => t.Knows r.id) := by
  -- the positions of the rest shift by one with each deletion, so the induction is on the
  -- stats with the live values along
  induction stats generalizing values with
  | nil => rfl
  | cons s stats ih =>
    by_cases hs : t.Knows s.id
    · cases values with
      | nil => simpa [Roll.align, Roll.id, hs] using ih []
      | cons v values => simp [Roll.align, Roll.id, knownValues, hs, ih]
    · cases values with
      | nil => simpa [Roll.align, Roll.id, hs] using ih []
      | cons v values => simp [Roll.align, Roll.id, knownValues, hs, ih]

/-! ## Placing an unknown stat -/

@[simp] theorem covers_nil (t : Table) : t.Covers [] := by
  simp [Covers]

@[simp] theorem covers_cons : t.Covers (l :: lines) ↔ l.entry ∈ t.entries ∧ t.Covers lines := by
  simp [Covers]

theorem Covers.place (h : t.Covers lines) (live : Bool) (r : Roll) :
    t.Covers (t.place live lines r) := by
  induction lines with
  | nil =>
    cases hf : t.entryFor? r.id with
    | none => simp [Table.place, hf]
    | some found =>
      obtain ⟨hfound, -, -⟩ := entryFor?_eq_some_iff.mp hf
      simpa [Table.place, hf, Line.blank] using List.mem_of_getElem? hfound
  | cons l lines ih =>
    obtain ⟨hl, hlines⟩ := covers_cons.mp h
    by_cases hm : r.id ∈ l.entry.ids
    · simp [Table.place, hm, hl, hlines]
    · simp [Table.place, hm, hl, ih hlines]

theorem place_of_not_knows (h : t.Covers lines) (hr : ¬t.Knows r.id) :
    t.place live lines r = lines := by
  induction lines with
  | nil => simp [place, entryFor?_eq_none_iff.mpr hr]
  | cons l lines ih =>
    obtain ⟨hl, hlines⟩ := covers_cons.mp h
    -- the line's entry is one of the table, and none of them mentions the stat
    have hm : r.id ∉ l.entry.ids := fun hm => hr ⟨l.entry, hl, hm⟩
    simp [place, hm, ih hlines]

theorem foldl_place_known (h : t.Covers lines) (rolls : List Roll) :
    (rolls.filter (fun r => t.Knows r.id)).foldl (t.place live) lines =
      rolls.foldl (t.place live) lines := by
  -- the lines change from step to step, and stay lines of the table
  induction rolls generalizing lines with
  | nil => rfl
  | cons r rolls ih =>
    by_cases hr : t.Knows r.id
    · simpa [hr] using ih (h.place live r)
    · simpa [hr, place_of_not_knows h hr] using ih h

theorem lines_known (t : Table) (stats : List Stat) (values : Option (List Double)) :
    t.lines (t.known stats) (values.map (t.knownValues stats)) = t.lines stats values := by
  have hvalues : (values.map (t.knownValues stats)).getD [] =
      t.knownValues stats (values.getD []) := by
    cases values <;> simp
  simp [lines, hvalues, align_known, foldl_place_known]

end Table

namespace Describer

variable {d : Describer} {low high low' high' : Modifier}

/-- What a range takes from a tier: its type, its name in a refusal and its lines. -/
structure SameTier (d : Describer) (m m' : Modifier) : Prop where
  id : m'.id = m.id
  type : m'.type = m.type
  lines : d.table.lines m'.stats none = d.table.lines m.stats none

theorem SameTier.refl (d : Describer) (m : Modifier) : d.SameTier m m := ⟨rfl, rfl, rfl⟩

theorem sameTier_prune (d : Describer) (m : Modifier) : d.SameTier m (d.table.prune m) :=
  ⟨rfl, rfl, d.table.lines_known m.stats none⟩

theorem SameTier.describeRange (hlow : d.SameTier low low') (hhigh : d.SameTier high high') :
    d.describeRange low' high' = d.describeRange low high := by
  simp [Describer.describeRange, override?, hlow.type, hhigh.type, hlow.lines, hhigh.lines]

theorem SameTier.describeRange? (hlow : d.SameTier low low') (hhigh : d.SameTier high high') :
    d.describeRange? low' high' = d.describeRange? low high := by
  simp [Describer.describeRange?, override?, hlow.type, hhigh.type, hlow.id, hhigh.id,
    hlow.lines, hhigh.lines]

/-- The texts of a modifier and of a range, the lines behind them and the refusals of the
strict range hang on the known stats only: all others can be deleted, each with its live
value, from one modifier or from both. -/
theorem describe_prune (d : Describer) :
    (∀ stats values, d.table.lines (d.table.known stats)
      (values.map (d.table.knownValues stats)) = d.table.lines stats values) ∧
    (∀ m values placeholder, d.describe (d.table.prune m)
      (values.map (d.table.knownValues m.stats)) placeholder = d.describe m values placeholder) ∧
    ∀ low high,
      (d.describeRange (d.table.prune low) high = d.describeRange low high ∧
        d.describeRange low (d.table.prune high) = d.describeRange low high ∧
        d.describeRange (d.table.prune low) (d.table.prune high) = d.describeRange low high) ∧
      d.describeRange? (d.table.prune low) high = d.describeRange? low high ∧
        d.describeRange? low (d.table.prune high) = d.describeRange? low high ∧
        d.describeRange? (d.table.prune low) (d.table.prune high) = d.describeRange? low high := by
  refine ⟨d.table.lines_known, fun m values placeholder => ?_, fun low high => ?_⟩
  · simp [describe, Table.prune, Table.lines_known]
  · have hlow := d.sameTier_prune low
    have hhigh := d.sameTier_prune high
    exact ⟨⟨hlow.describeRange (.refl d high), SameTier.describeRange (.refl d low) hhigh,
      hlow.describeRange hhigh⟩, hlow.describeRange? (.refl d high),
      SameTier.describeRange? (.refl d low) hhigh, hlow.describeRange? hhigh⟩

end Describer

/-- The value of the unknown stat goes with it, and the one past the last stat stays. -/
example (u v w : Double) : (Table.ofEntries [{ ids := ["life"] }]).knownValues
    [⟨"mana", u, u⟩, ⟨"life", v, w⟩] [u, v, w] = [v, w] := by
  rfl

end StatProse
