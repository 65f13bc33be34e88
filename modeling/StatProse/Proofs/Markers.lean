import StatProse.Proofs.Placeholder

/-!
# Markers are replaced at once

Where a marker with a slot stands, the text of the slot takes its place; every other
character of the template stands for itself. This is said for each position of the template
by itself, so no replacement depends on another. `replaced_iff_eq_fill` says that filling a
template does just this, whatever the template and the texts hold.
-/

namespace StatProse

namespace Template

structure IsNumeral (digits : List Char) : Prop where
  nonempty : digits ≠ []
  isDigit : ∀ c ∈ digits, c.isDigit = true

/-- At the position of a template begins a marker of a slot with the given text. -/
structure MarkerAt (slots : List (List Char)) (template : List Char) (position : Nat)
    (digits text : List Char) : Prop where
  numeral : IsNumeral digits
  written : Piece.written (.marker digits) <+: template.drop position
  slot : slots[digitsValue digits]? = some text

inductive StandsAt (slots : List (List Char)) (template : List Char) (position : Nat) :
    List Char → Prop
  | marker {digits text : List Char} (marker : MarkerAt slots template position digits text) :
    StandsAt slots template position text
  | inside {start : Nat} {digits text : List Char}
    (marker : MarkerAt slots template start digits text) (after : start < position)
    (before : position < start + digits.length + 2) : StandsAt slots template position []
  | kept {c : Char} (char : template[position]? = some c)
    (outside : ∀ start digits text, MarkerAt slots template start digits text →
      position < start ∨ start + digits.length + 2 ≤ position) :
    StandsAt slots template position [c]

/-- All markers are replaced at once: the text is made of what stands at each position. -/
def Replaced (slots : List (List Char)) (template text : List Char) : Prop :=
  ∃ parts : List (List Char), parts.length = template.length ∧
    (∀ position part, parts[position]? = some part → StandsAt slots template position part) ∧
    text = parts.flatten

variable {slots : List (List Char)} {template cs rest digits digits' text text' : List Char}
  {c : Char} {position start n : Nat}

namespace IsNumeral

theorem ne_of_not_isDigit (h : IsNumeral digits) (hc : c.isDigit = false) :
    ∀ d ∈ digits, d ≠ c := by
  rintro d hd rfl
  rw [h.isDigit d hd] at hc
  cases hc

theorem takeWhile_append (h : IsNumeral digits) (rest : List Char) :
    (digits ++ '}' :: rest).takeWhile Char.isDigit = digits := by
  rw [List.takeWhile_append_of_pos h.isDigit]
  simp

end IsNumeral

/-! ## Where markers stand -/

namespace MarkerAt

theorem iff_drop : MarkerAt slots template position digits text ↔
    MarkerAt slots (template.drop position) 0 digits text := by
  constructor
  · rintro ⟨hn, hw, hs⟩
    exact ⟨hn, hw, hs⟩
  · rintro ⟨hn, hw, hs⟩
    exact ⟨hn, hw, hs⟩

theorem append_iff (front : List Char) :
    MarkerAt slots (front ++ cs) (front.length + n) digits text ↔
      MarkerAt slots cs n digits text := by
  rw [iff_drop, List.drop_length_add_append, ← iff_drop]

theorem zero_iff : MarkerAt slots template 0 digits text ↔
    IsNumeral digits ∧ slots[digitsValue digits]? = some text ∧
      ∃ rest, template = '{' :: (digits ++ '}' :: rest) := by
  constructor
  · rintro ⟨hn, ⟨rest, hrest⟩, hs⟩
    exact ⟨hn, hs, rest, by simpa [Piece.written] using hrest.symm⟩
  · rintro ⟨hn, hs, rest, rfl⟩
    exact ⟨hn, ⟨rest, by simp [Piece.written]⟩, hs⟩

theorem unique (h : MarkerAt slots template position digits text)
    (h' : MarkerAt slots template position digits' text') : digits = digits' ∧ text = text' := by
  obtain ⟨hn, hs, rest, hrest⟩ := zero_iff.mp (iff_drop.mp h)
  obtain ⟨hn', hs', rest', hrest'⟩ := zero_iff.mp (iff_drop.mp h')
  have heq : digits ++ '}' :: rest = digits' ++ '}' :: rest' :=
    (List.cons.inj (hrest.symm.trans hrest')).2
  obtain rfl : digits = digits' := by
    rw [← hn.takeWhile_append rest, heq, hn'.takeWhile_append]
  exact ⟨rfl, Option.some.inj (hs.symm.trans hs')⟩

theorem open_at (h : MarkerAt slots template position digits text) :
    template[position]? = some '{' := by
  obtain ⟨-, -, rest, hrest⟩ := zero_iff.mp (iff_drop.mp h)
  have hopen := congrArg (·[0]?) hrest
  rwa [List.getElem?_drop, Nat.add_zero, List.getElem?_cons_zero] at hopen

theorem apart (h : MarkerAt slots template start digits text)
    (h' : MarkerAt slots template position digits' text') (hlt : start < position) :
    start + digits.length + 2 ≤ position := by
  obtain ⟨hn, -, rest, hrest⟩ := zero_iff.mp (iff_drop.mp h)
  by_contra hinside
  obtain ⟨n, rfl⟩ : ∃ n, position = start + (n + 1) := ⟨position - start - 1, by omega⟩
  -- behind the opening brace stand digits and a closing brace only
  have hbrace : (digits ++ ['}'])[n]? = some '{' := by
    have hopen := h'.open_at
    rw [← List.getElem?_drop, hrest, List.getElem?_cons_succ] at hopen
    rw [← hopen, List.getElem?_append, List.getElem?_append]
    split
    · rfl
    · have hn : n - digits.length = 0 := by omega
      simp [hn]
  have hmem := List.mem_of_getElem? hbrace
  rw [List.mem_append, List.mem_singleton] at hmem
  rcases hmem with hmem | hmem
  · exact hn.ne_of_not_isDigit (by decide) _ hmem rfl
  · cases hmem

end MarkerAt

namespace StandsAt

theorem unique (h : StandsAt slots template position text)
    (h' : StandsAt slots template position text') : text = text' := by
  -- markers do not overlap, and what is kept lies outside of all of them
  cases h with
  | marker m =>
    cases h' with
    | marker m' => exact (m.unique m').2
    | inside m' after before => exact absurd (m'.apart m after) (Nat.not_le_of_lt before)
    | kept _ outside => have hout := outside _ _ _ m; omega
  | inside m after before =>
    cases h' with
    | marker m' => exact absurd (m.apart m' after) (Nat.not_le_of_lt before)
    | inside => rfl
    | kept _ outside => have hout := outside _ _ _ m; omega
  | kept char outside =>
    cases h' with
    | marker m' => have hout := outside _ _ _ m'; omega
    | inside m' => have hout := outside _ _ _ m'; omega
    | kept char' => rw [Option.some.inj (char.symm.trans char')]

/-- Behind a part of the template into whose rest no marker reaches, the rest gives way to
what it gives way to by itself. -/
theorem append {front : List Char} (hfront : ∀ start digits text,
      MarkerAt slots (front ++ cs) start digits text → start < front.length →
        start + digits.length + 2 ≤ front.length)
    (h : StandsAt slots cs n text) : StandsAt slots (front ++ cs) (front.length + n) text := by
  cases h with
  | marker m => exact .marker ((MarkerAt.append_iff front).mpr m)
  | inside m after before =>
    exact .inside ((MarkerAt.append_iff front).mpr m) (by omega) (by omega)
  | kept char outside =>
    refine .kept (by simpa [List.getElem?_append_right] using char) fun start digits text m => ?_
    rcases Nat.lt_or_ge start front.length with hlt | hge
    · exact .inr (Nat.le_trans (hfront start digits text m hlt) (Nat.le_add_right _ n))
    · obtain ⟨k, rfl⟩ := Nat.exists_eq_add_of_le hge
      have hout := outside k digits text ((MarkerAt.append_iff front).mp m)
      omega

end StandsAt

theorem Replaced.unique (h : Replaced slots template text) (h' : Replaced slots template text') :
    text = text' := by
  obtain ⟨parts, hlength, hparts, rfl⟩ := h
  obtain ⟨parts', hlength', hparts', rfl⟩ := h'
  congr 1
  refine List.ext_getElem (hlength.trans hlength'.symm) fun i hi hi' => ?_
  exact (hparts i _ (List.getElem?_eq_getElem hi)).unique
    (hparts' i _ (List.getElem?_eq_getElem hi'))

theorem Replaced.nil : Replaced slots [] [] :=
  ⟨[], rfl, fun position part h => by simp at h, rfl⟩

theorem Replaced.append (front : List Char) (parts : List (List Char))
    (hlength : parts.length = front.length)
    (hparts : ∀ position part, parts[position]? = some part →
      StandsAt slots (front ++ cs) position part)
    (hfront : ∀ start digits text, MarkerAt slots (front ++ cs) start digits text →
      start < front.length → start + digits.length + 2 ≤ front.length)
    (h : Replaced slots cs text) : Replaced slots (front ++ cs) (parts.flatten ++ text) := by
  obtain ⟨rest, hrest, hstands, rfl⟩ := h
  refine ⟨parts ++ rest, by simp [hlength, hrest], fun position part hpart => ?_, by simp⟩
  rcases Nat.lt_or_ge position parts.length with hlt | hge
  · exact hparts position part (by rwa [List.getElem?_append_left hlt] at hpart)
  · rw [List.getElem?_append_right hge] at hpart
    obtain ⟨n, rfl⟩ := Nat.exists_eq_add_of_le hge
    rw [hlength]
    exact (hstands n part (by simpa using hpart)).append hfront

theorem Replaced.kept (hc : ∀ digits text, ¬MarkerAt slots (c :: cs) 0 digits text)
    (h : Replaced slots cs text) : Replaced slots (c :: cs) (c :: text) := by
  -- no marker begins at the character or before it
  refine Replaced.append [c] [[c]] rfl ?_ ?_ h
  · intro position part hpart
    obtain ⟨rfl, rfl⟩ : position = 0 ∧ [c] = part := by
      cases position <;> simp_all
    refine .kept rfl fun start digits text m => ?_
    cases start with
    | zero => exact absurd m (hc digits text)
    | succ start => exact .inl (Nat.succ_pos start)
  · intro start digits text m hstart
    obtain rfl : start = 0 := by simpa using hstart
    exact absurd m (hc digits text)

theorem Replaced.marker (hn : IsNumeral digits) (hs : slots[digitsValue digits]? = some text')
    (h : Replaced slots cs text) :
    Replaced slots (Piece.written (.marker digits) ++ cs) (text' ++ text) := by
  have hm : MarkerAt slots (Piece.written (.marker digits) ++ cs) 0 digits text' :=
    ⟨hn, List.prefix_append _ _, hs⟩
  have hlength : (Piece.written (.marker digits)).length = digits.length + 2 := by
    simp [Piece.written]
  -- the text stands for the opening brace, nothing for the rest of the marker
  have hparts := Replaced.append (Piece.written (.marker digits))
    (text' :: List.replicate (digits.length + 1) []) (by simp [hlength]) ?_ ?_ h
  · simpa using hparts
  · intro position part hpart
    cases position with
    | zero =>
      obtain rfl := Option.some.inj hpart
      exact .marker hm
    | succ position =>
      obtain ⟨hlt, rfl⟩ : position < digits.length + 1 ∧ [] = part := by
        simpa [List.getElem?_replicate] using hpart
      exact .inside hm (Nat.succ_pos position) (by omega)
  · intro start other text m hstart
    cases start with
    | zero =>
      obtain ⟨rfl, -⟩ := hm.unique m
      omega
    | succ start =>
      have hend := hm.apart m (Nat.succ_pos start)
      omega

/-! ## Cutting a template into pieces -/

theorem scan_of_numeral (held : List Char) (rest : List Char) (hn : IsNumeral (held ++ digits)) :
    scan (some held) (digits ++ '}' :: rest) = .marker (held ++ digits) :: scan none rest := by
  induction digits generalizing held with
  | nil =>
    have hheld : held ≠ [] := by simpa using hn.nonempty
    simp [scan, hheld]
  | cons d digits ih =>
    have hd : d.isDigit = true := hn.isDigit d (by simp)
    have hrest := ih (held ++ [d]) (by simpa using hn)
    simpa [scan, hd] using hrest

theorem scan_of_not_numeral (held : List Char) (hheld : ∀ d ∈ held, d.isDigit = true)
    (h : ∀ digits rest, IsNumeral (held ++ digits) → cs ≠ digits ++ '}' :: rest) :
    scan (some held) cs = loose held ++ scan none cs := by
  -- more and more digits are held back, and no digits after them make a marker
  induction cs generalizing held with
  | nil => simp [scan]
  | cons c cs ih =>
    unfold scan
    split
    · rename_i hc
      have hbrace : c ≠ '{' := by
        rintro rfl
        exact absurd hc (by decide)
      have hlonger := ih (held ++ [c]) (by simpa [or_imp, forall_and, hc] using hheld)
        fun digits rest hn heq => h (c :: digits) rest (by simpa using hn) (by simp [heq])
      simp [hlonger, loose, hbrace]
    · split
      · rename_i hclose
        exact absurd (by simp [hclose.1]) (h [] cs ⟨by simpa using hclose.2, by simpa using hheld⟩)
      · split
        · rfl
        · rfl

theorem fill_of_numeral (slots : List (List Char)) (hn : IsNumeral digits) (rest : List Char) :
    fill slots (Piece.written (.marker digits) ++ rest) =
      Piece.fill slots (.marker digits) ++ fill slots rest := by
  have hscan := scan_of_numeral [] rest hn
  simp [fill, pieces, Piece.written, scan, hscan]

theorem fill_cons_of_ne (slots : List (List Char)) (hc : c ≠ '{') (cs : List Char) :
    fill slots (c :: cs) = c :: fill slots cs := by
  simp [fill, pieces, scan, hc, Piece.fill]

theorem fill_append_of_forall_ne (slots : List (List Char)) {front : List Char}
    (hfront : ∀ c ∈ front, c ≠ '{') (cs : List Char) :
    fill slots (front ++ cs) = front ++ fill slots cs := by
  induction front with
  | nil => rfl
  | cons c front ih =>
    rw [List.cons_append, fill_cons_of_ne slots (hfront c (by simp)),
      ih fun d hd => hfront d (by simp [hd]), List.cons_append]

theorem fill_cons_of_no_marker (hc : ∀ digits text, ¬MarkerAt slots (c :: cs) 0 digits text) :
    fill slots (c :: cs) = c :: fill slots cs := by
  by_cases hopen : c = '{'
  · subst hopen
    by_cases h : ∃ digits rest, IsNumeral digits ∧ cs = digits ++ '}' :: rest
    · -- a marker that has no slot
      obtain ⟨digits, rest, hn, rfl⟩ := h
      have hslot : slots[digitsValue digits]? = none := by
        by_contra hslot
        obtain ⟨text, htext⟩ := Option.ne_none_iff_exists'.mp hslot
        exact hc digits text (MarkerAt.zero_iff.mpr ⟨hn, htext, rest, rfl⟩)
      have hfill := fill_of_numeral slots hn rest
      have hplain : ∀ d ∈ digits ++ ['}'], d ≠ '{' := by
        intro d hd
        rcases List.mem_append.mp hd with hd | hd
        · exact hn.ne_of_not_isDigit (by decide) d hd
        · obtain rfl := List.mem_singleton.mp hd
          decide
      have hrest := fill_append_of_forall_ne slots hplain rest
      simp only [List.append_assoc, List.singleton_append] at hrest
      simpa [Piece.written, Piece.fill, hslot, hrest] using hfill
    · have hscan := scan_of_not_numeral [] (by simp)
        fun digits rest hn (heq : cs = _) => h ⟨digits, rest, by simpa using hn, heq⟩
      simp [fill, pieces, scan, hscan, loose, Piece.fill]
  · exact fill_cons_of_ne slots hopen cs

/-! ## Filling a template -/

theorem replaced_fill (slots : List (List Char)) (template : List Char) :
    Replaced slots template (fill slots template) := by
  -- a marker in front is passed over as a whole, so the induction is on the length
  induction hlength : template.length using Nat.strongRecOn generalizing template with
  | ind length ih =>
    cases template with
    | nil => exact .nil
    | cons c cs =>
      by_cases hc : ∃ digits text, MarkerAt slots (c :: cs) 0 digits text
      · obtain ⟨digits, text, hm⟩ := hc
        obtain ⟨hn, hs, rest, hrest⟩ := MarkerAt.zero_iff.mp hm
        have hwritten : c :: cs = Piece.written (.marker digits) ++ rest := by
          simpa [Piece.written] using hrest
        have hshort : rest.length < length := by
          rw [← hlength, hwritten, List.length_append]
          exact Nat.lt_add_of_pos_left (by simp [Piece.written])
        rw [hwritten, fill_of_numeral slots hn rest]
        have hfill : Piece.fill slots (.marker digits) = text := by
          simp [Piece.fill, hs]
        rw [hfill]
        exact (ih rest.length hshort rest rfl).marker hn hs
      · simp only [not_exists] at hc
        rw [fill_cons_of_no_marker hc]
        exact (ih cs.length (by simp [← hlength]) cs rfl).kept hc

theorem replaced_iff_eq_fill : Replaced slots template text ↔ text = fill slots template :=
  ⟨fun h => h.unique (replaced_fill slots template), fun h => h ▸ replaced_fill slots template⟩

theorem fillFrame_append {front : List Char} (hfront : '#' ∉ front) (token back : List Char) :
    fillFrame token (front ++ '#' :: back) = front ++ token ++ back := by
  induction front with
  | nil => simp [fillFrame]
  | cons c front ih =>
    rw [List.mem_cons, not_or] at hfront
    simp [fillFrame, Ne.symm hfront.1, ih hfront.2]

/-- Filling a template replaces all markers at once, and nothing else is a text in which they
are replaced. A rule's sentence is its template filled in this way. A placeholder reaches it
as it is, in the frame of its slot, whatever it holds. -/
theorem markers_replaced_at_once :
    (∀ slots template text, Replaced slots template text ↔ text = fill slots template) ∧
    (∀ (r : Rule) l placeholder,
      Replaced ((List.range l.entry.slotCount).map (r.slotText l placeholder)) r.template.toList
        (r.sentence l placeholder)) ∧
    ∀ (r : Rule) l p slot front back, r.formatAt slot ≠ Rule.hiddenFormat →
      (r.formatAt slot).toList = front ++ '#' :: back → '#' ∉ front →
      r.slotText l (some p) slot =
        front ++ (if r.Ranged slot (l.min slot) (l.max slot) then
          rangeToken (if l.values.isSome then some p else none) p p else p) ++ back := by
  refine ⟨fun _ _ _ => replaced_iff_eq_fill, fun r l placeholder => replaced_fill _ _, ?_⟩
  intro r l p slot front back hformat hframe hfront
  rw [Rule.slotText, if_neg hformat, hframe, fillFrame_append hfront, Rule.token_some]

/-- The placeholder looks like the marker of the other slot and is not replaced. -/
theorem markers_replaced_of_marker_text :
    let r : Rule :=
      { conditions := [], formats := ["+#%", "b"], template := "\x7b\x7b00\x7d\x7b\x7d\x7b2\x7d" }
    let l : Line := ⟨0, { ids := ["x", "y"] }, [7], [7], none⟩
    let p := "\x7b1\x7d".toList
    r.formatAt 0 ≠ Rule.hiddenFormat ∧ (r.formatAt 0).toList = ['+'] ++ '#' :: ['%'] ∧
    '#' ∉ ['+'] ∧ r.slotText l (some p) 0 = ['+'] ++ p ++ ['%'] ∧
    r.sentence l (some p) = "\x7b+\x7b1\x7d%\x7b\x7d\x7b2\x7d".toList := by
  intro r l p
  obtain ⟨-, -, hframed⟩ := markers_replaced_at_once
  have hslot := hframed r l p 0 ['+'] ['%'] (by decide) (by decide) (by decide)
  have hsingle : ¬r.Ranged 0 (l.min 0) (l.max 0) := r.not_ranged_self 0 (l.min 0)
  rw [if_neg hsingle] at hslot
  refine ⟨by decide, by decide, by decide, hslot, ?_⟩
  have hslots : (List.range l.entry.slotCount).map (r.slotText l (some p)) =
      [['+'] ++ p ++ ['%'], r.slotText l (some p) 1] := by
    rw [← hslot]
    rfl
  rw [Rule.sentence, hslots]
  decide +kernel

end Template

end StatProse
