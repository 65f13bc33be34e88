import StatProse.Proofs.Lookup
import StatProse.Line

/-!
# Filling lines

Stats are written into a line one after another. Writing keeps the entry of the line and
the lengths of its lists. A slot ends up with the bounds of the last stat that was written
into it, and with the live value of the last one that had a live value.
-/

namespace StatProse

namespace Line

variable {l : Line} {r : Roll} {rolls : List Roll} {slot : Nat}

theorem fill_of_slotOf? (h : l.entry.slotOf? r.id = some slot) : l.fill r = l.fillSlot slot r := by
  simp [fill, h]

theorem fill_of_slotOf?_eq_none (h : l.entry.slotOf? r.id = none) : l.fill r = l := by
  simp [fill, h]

@[simp] theorem fill_position (l : Line) (r : Roll) : (l.fill r).position = l.position := by
  unfold fill
  split <;> rfl

@[simp] theorem fill_entry (l : Line) (r : Roll) : (l.fill r).entry = l.entry := by
  unfold fill
  split <;> rfl

@[simp] theorem foldl_fill_position (l : Line) (rolls : List Roll) :
    (rolls.foldl fill l).position = l.position := by
  induction rolls generalizing l with
  | nil => rfl
  | cons r rolls ih => simp [ih]

@[simp] theorem foldl_fill_entry (l : Line) (rolls : List Roll) :
    (rolls.foldl fill l).entry = l.entry := by
  induction rolls generalizing l with
  | nil => rfl
  | cons r rolls ih => simp [ih]

structure Sized (l : Line) : Prop where
  mins : l.mins.length = l.entry.slotCount
  maxs : l.maxs.length = l.entry.slotCount
  values : ∀ vs, l.values = some vs → vs.length = l.entry.slotCount

theorem sized_blank (position : Nat) (e : Entry) (live : Bool) : (blank position e live).Sized where
  mins := by simp [blank]
  maxs := by simp [blank]
  values := by cases live <;> simp [blank]

theorem Sized.fillSlot (h : l.Sized) (slot : Nat) (r : Roll) : (l.fillSlot slot r).Sized where
  mins := by simpa [Line.fillSlot] using h.mins
  maxs := by simpa [Line.fillSlot] using h.maxs
  values := by
    intro vs hvs
    cases hr : r.live with
    | none => exact h.values vs (by simpa [Line.fillSlot, hr] using hvs)
    | some v =>
      obtain ⟨old, hold, rfl⟩ : ∃ old, l.values = some old ∧ old.set slot v = vs := by
        simpa [Line.fillSlot, hr] using hvs
      simpa [Line.fillSlot] using h.values old hold

theorem Sized.fill (h : l.Sized) (r : Roll) : (l.fill r).Sized := by
  unfold Line.fill
  split
  · exact h.fillSlot _ r
  · exact h

theorem Sized.foldl_fill (h : l.Sized) (rolls : List Roll) : (rolls.foldl Line.fill l).Sized := by
  induction rolls generalizing l with
  | nil => exact h
  | cons r rolls ih => exact ih (h.fill r)

@[simp] theorem fill_values_isSome (l : Line) (r : Roll) :
    (l.fill r).values.isSome = l.values.isSome := by
  unfold fill
  split
  · cases hr : r.live <;> simp [fillSlot, hr]
  · rfl

theorem foldl_fill_values_isSome (l : Line) (rolls : List Roll) :
    (rolls.foldl fill l).values.isSome = l.values.isSome := by
  induction rolls generalizing l with
  | nil => rfl
  | cons r rolls ih => simp [ih]

end Line

namespace Entry

variable {e : Entry} {number : Roll → Option Double} {slot : Nat}

/-- Puts a number of a stat into the stat's slot; without a number nothing changes. -/
def write (e : Entry) (number : Roll → Option Double) (vs : List Double) (r : Roll) :
    List Double :=
  match e.slotOf? r.id, number r with
  | some slot, some v => vs.set slot v
  | _, _ => vs

/-- The numbers that stats put into a slot, in the order of the stats. -/
def written (e : Entry) (number : Roll → Option Double) (rolls : List Roll) (slot : Nat) :
    List Double :=
  (rolls.filter (fun r => e.slotOf? r.id == some slot)).filterMap number

@[simp] theorem length_write (vs : List Double) (r : Roll) :
    (e.write number vs r).length = vs.length := by
  unfold write
  split <;> simp

theorem getElem?_write (vs : List Double) (r : Roll) (h : slot < vs.length) :
    (e.write number vs r)[slot]? =
      some (if e.slotOf? r.id = some slot then (number r).getD vs[slot] else vs[slot]) := by
  unfold write
  cases hs : e.slotOf? r.id with
  | none => simp [h]
  | some target =>
    cases hv : number r with
    | none => simp [h]
    | some v =>
      by_cases ht : target = slot
      · subst ht
        simp [h]
      · simp [h, ht]

theorem getElem?_foldl_write (rolls : List Roll) (vs : List Double) (h : slot < vs.length) :
    (rolls.foldl (e.write number) vs)[slot]? =
      some ((e.written number rolls slot).getLast?.getD vs[slot]) := by
  induction rolls generalizing vs with
  | nil => simp [written, h]
  | cons r rolls ih =>
    have hlt : slot < (e.write number vs r).length := by simpa using h
    have hstep : (e.write number vs r)[slot]? =
        some (if e.slotOf? r.id = some slot then (number r).getD vs[slot] else vs[slot]) :=
      getElem?_write vs r h
    -- the first stat fixes the number that the other stats find in the slot
    rw [List.getElem?_eq_getElem hlt, Option.some.injEq] at hstep
    rw [List.foldl_cons, ih _ hlt, hstep]
    by_cases hs : e.slotOf? r.id = some slot
    · cases hv : number r with
      | none => simp [written, hs, hv]
      | some v => simp [written, hs, hv, List.getLast?_cons]
    · simp [written, hs]

end Entry

inductive Bound where
  | lower
  | upper

namespace Bound

def ofStat : Bound → Stat → Double
  | lower, s => s.min
  | upper, s => s.max

def ofLine : Bound → Line → List Double
  | lower, l => l.mins
  | upper, l => l.maxs

theorem ofLine_fill (b : Bound) (l : Line) (r : Roll) :
    b.ofLine (l.fill r) = l.entry.write (fun r => some (b.ofStat r.stat)) (b.ofLine l) r := by
  cases h : l.entry.slotOf? r.id with
  | none => simp [Line.fill, Entry.write, h]
  | some slot =>
    rw [Line.fill_of_slotOf? h, Entry.write, h]
    cases b <;> rfl

theorem ofLine_foldl_fill (b : Bound) (l : Line) (rolls : List Roll) :
    b.ofLine (rolls.foldl Line.fill l) =
      rolls.foldl (l.entry.write (fun r => some (b.ofStat r.stat))) (b.ofLine l) := by
  induction rolls generalizing l with
  | nil => rfl
  | cons r rolls ih => rw [List.foldl_cons, ih, Line.fill_entry, ofLine_fill, List.foldl_cons]

end Bound

namespace Line

theorem foldl_fill_values (l : Line) (rolls : List Roll) :
    (rolls.foldl fill l).values = l.values.map (rolls.foldl (l.entry.write Roll.live)) := by
  induction rolls generalizing l with
  | nil => cases h : l.values <;> simp [h]
  | cons r rolls ih =>
    rw [List.foldl_cons, ih, fill_entry]
    cases h : l.entry.slotOf? r.id <;> cases hr : r.live <;> cases hv : l.values <;>
      simp [fill, fillSlot, Entry.write, h, hr, hv]

end Line

end StatProse
