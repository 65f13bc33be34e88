import StatProse.Describer
import StatProse.Proofs.Lockstep
import StatProse.Proofs.Seeding

/-!
# Lines that line up

Lines line up if they have the same entries at the same positions. Which lines a modifier
has depends on the ids of its stats only, so modifiers with the same sequence of ids have
lines that line up, whatever their numbers are.
-/

namespace StatProse

structure Line.SameEntry (l h : Line) : Prop where
  position : l.position = h.position
  entry : l.entry = h.entry

/-- Lines with the same entry whose slots agree in one of the two bounds. -/
structure Line.SameBound (b : Bound) (l h : Line) : Prop where
  entry : l.entry = h.entry
  bound : b.ofLine l = b.ofLine h

def Aligned : List Line → List Line → Prop := List.Forall₂ Line.SameEntry

def SameIds : List Roll → List Roll → Prop := List.Forall₂ (fun r s => r.id = s.id)

variable {t : Table} {live live' : Bool} {l h : Line} {lows highs : List Line} {r s : Roll}
  {rolls others : List Roll} {stats stats' : List Stat}

theorem Line.SameEntry.fill (hl : l.SameEntry h) (r s : Roll) : (l.fill r).SameEntry (h.fill s) :=
  ⟨by simpa using hl.position, by simpa using hl.entry⟩

theorem Line.sameEntry_blank (position : Nat) (e : Entry) (live live' : Bool) :
    (blank position e live).SameEntry (blank position e live') := ⟨rfl, rfl⟩

theorem forall₂_align {R : Stat → Stat → Prop} (h : List.Forall₂ R stats stats')
    (vs vs' : List Double) :
    List.Forall₂ (fun r s => R r.stat s.stat) (Roll.align stats vs) (Roll.align stats' vs') := by
  induction h generalizing vs vs' with
  | nil => exact .nil
  | cons hs _ ih => cases vs <;> cases vs' <;> exact .cons hs (ih _ _)

theorem sameIds_align (hids : stats.map (·.id) = stats'.map (·.id)) (vs vs' : List Double) :
    SameIds (Roll.align stats vs) (Roll.align stats' vs') := by
  have hforall : List.Forall₂ Eq (stats.map (·.id)) (stats'.map (·.id)) := by
    rwa [List.forall₂_eq_eq_eq]
  exact forall₂_align (List.forall₂_map_right_iff.mp (List.forall₂_map_left_iff.mp hforall)) vs vs'

theorem Line.SameEntry.lockstep (hid : r.id = s.id) :
    Lockstep Line.SameEntry t t live live' r s :=
  .of_id_eq hid (fun _ _ hl => hl.entry) (fun _ _ hl => hl.fill r s)
    (fun position e => Line.sameEntry_blank position e live live')

namespace Aligned

theorem place (ha : Aligned lows highs) (hid : r.id = s.id) :
    Aligned (t.place live lows r) (t.place live' highs s) :=
  (Line.SameEntry.lockstep hid).place ha

theorem foldl_place (ha : Aligned lows highs) (hids : SameIds rolls others) :
    Aligned (rolls.foldl (t.place live) lows) (others.foldl (t.place live') highs) :=
  Lockstep.foldl_place (hids.imp fun _ _ hid => Line.SameEntry.lockstep hid) ha

theorem mismatch?_eq_none (ha : Aligned lows highs) : mismatch? lows highs = none := by
  induction ha with
  | nil => rfl
  | cons hl _ ih => simp [mismatch?, hl.position, ih]

end Aligned

/-- Two runs have mismatches at the same position if they compare positions alike. -/
theorem mismatch?_congr {R : Line → Line → Prop} {lows' highs' : List Line}
    (hR : ∀ l l' h h', R l l' → R h h' → (l.position = h.position ↔ l'.position = h'.position))
    (hlows : List.Forall₂ R lows lows') (hhighs : List.Forall₂ R highs highs') :
    mismatch? lows highs = mismatch? lows' highs' := by
  induction hlows generalizing highs highs' with
  | nil => cases hhighs <;> rfl
  | cons hl _ ih =>
    cases hhighs with
    | nil => rfl
    | cons hh hhighs => simp only [mismatch?, hR _ _ _ _ hl hh, ih hhighs]

theorem Line.min_congr (hmins : l.mins = h.mins) : l.min = h.min := by
  funext slot
  rw [Line.min, Line.min, hmins]

theorem Line.max_congr (hmaxs : l.maxs = h.maxs) : l.max = h.max := by
  funext slot
  rw [Line.max, Line.max, hmaxs]

theorem Line.rule?_congr {language : String}
    (hrules : l.entry.rulesFor language = h.entry.rulesFor language) (hmins : l.mins = h.mins) :
    l.rule? language = h.rule? language := by
  have hadmitted : l.admitted = h.admitted := by
    funext r
    rw [admitted, admitted, min_congr hmins]
  rw [rule?, rule?, hrules, hadmitted]

theorem Rule.slotText_congr {r : Rule} {slot : Nat} (hmin : l.min slot = h.min slot)
    (hmax : l.max slot = h.max slot) (hvalue : l.value? slot = h.value? slot)
    (placeholder : Option (List Char)) :
    r.slotText l placeholder slot = r.slotText h placeholder slot := by
  simp only [slotText, token, hmin, hmax, hvalue]

theorem Line.render_congr {language : String} {placeholder : Option String}
    (hrule : l.rule? language = h.rule? language)
    (hsentence : ∀ r, l.rule? language = some r →
      r.sentence l (effectivePlaceholder placeholder) =
        r.sentence h (effectivePlaceholder placeholder)) :
    l.render language placeholder = h.render language placeholder := by
  unfold render
  rw [← hrule]
  cases hr : l.rule? language with
  | none => rfl
  | some r => simp only [Rule.render, hsentence r hr]

theorem renderLines_congr {R : Line → Line → Prop} {language : String}
    {placeholder : Option String}
    (hR : ∀ l l', R l l' → l.render language placeholder = l'.render language placeholder)
    (hls : List.Forall₂ R lows highs) :
    renderLines lows language placeholder = renderLines highs language placeholder := by
  induction hls with
  | nil => rfl
  | cons hl _ ih =>
    simp only [renderLines, List.flatMap_cons] at ih ⊢
    rw [hR _ _ hl, ih]

theorem Line.SameBound.fill {b : Bound} (hl : l.SameBound b h) (hid : r.id = s.id)
    (hbound : b.ofStat r.stat = b.ofStat s.stat) : (l.fill r).SameBound b (h.fill s) := by
  refine ⟨by simpa using hl.entry, ?_⟩
  rw [Bound.ofLine_fill, Bound.ofLine_fill, hl.entry, hl.bound, Entry.write, Entry.write, hid,
    hbound]

theorem forall₂_sameBound_lines (b : Bound) (t : Table)
    (hids : stats.map (·.id) = stats'.map (·.id))
    (hbounds : stats.map b.ofStat = stats'.map b.ofStat) (values values' : Option (List Double)) :
    List.Forall₂ (Line.SameBound b) (t.lines stats values) (t.lines stats' values') := by
  have hstats :
      List.Forall₂ (fun s s' => s.id = s'.id ∧ b.ofStat s = b.ofStat s') stats stats' := by
    refine forall₂_iff_getElem?.mpr ⟨by simpa using congrArg List.length hids, ?_⟩
    intro i s s' hs hs'
    exact ⟨by simpa [hs, hs'] using congrArg (·[i]?) hids,
      by simpa [hs, hs'] using congrArg (·[i]?) hbounds⟩
  refine Lockstep.forall₂_lines ((forall₂_align hstats _ _).imp fun r s hrs => ?_)
  exact .of_id_eq hrs.1 (fun _ _ hl => hl.entry) (fun _ _ hl => hl.fill hrs.1 hrs.2)
    (fun _ _ => ⟨rfl, by cases b <;> rfl⟩)

theorem aligned_lines (t : Table) (hids : stats.map (·.id) = stats'.map (·.id))
    (values values' : Option (List Double)) :
    Aligned (t.lines stats values) (t.lines stats' values') :=
  Aligned.foldl_place .nil (sameIds_align hids _ _)

end StatProse
