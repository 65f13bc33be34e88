import StatProse.Content

/-!
# Loading documents

A text is what its bytes say, and a table document what its items say. A step of the loading
succeeds if both of its parts do, and fails with the fault of the first that does not.
-/

namespace StatProse

section Steps

variable {ε α β : Type} {x : ExceptT ε Id α} {f : α → ExceptT ε Id β} {b : β} {e : ε}

theorem run_bind_eq_match (x : ExceptT ε Id α) (f : α → ExceptT ε Id β) :
    (x >>= f).run = match x.run with
      | .ok a => (f a).run
      | .error e => .error e := rfl

theorem run_bind_eq_ok_iff :
    (x >>= f).run = .ok b ↔ ∃ a, x.run = .ok a ∧ (f a).run = .ok b := by
  rw [run_bind_eq_match]
  cases x.run with
  | error fault =>
    constructor
    · intro h
      cases h
    · rintro ⟨a, ha, -⟩
      cases ha
  | ok a =>
    constructor
    · intro h
      exact ⟨a, rfl, h⟩
    · rintro ⟨_, ha, h⟩
      cases ha
      exact h

theorem run_bind_eq_error_iff :
    (x >>= f).run = .error e ↔ x.run = .error e ∨ ∃ a, x.run = .ok a ∧ (f a).run = .error e := by
  rw [run_bind_eq_match]
  cases x.run with
  | error fault =>
    constructor
    · intro h
      cases h
      exact .inl rfl
    · rintro (h | ⟨a, ha, -⟩)
      · cases h
        rfl
      · cases ha
  | ok a =>
    constructor
    · intro h
      exact .inr ⟨a, rfl, h⟩
    · rintro (h | ⟨_, ha, h⟩)
      · cases h
      · cases ha
        exact h

end Steps

/-! ## Texts -/

theorem fromUTF8?_toUTF8 (text : String) : String.fromUTF8? text.toUTF8 = some text :=
  dif_pos text.isValidUTF8

theorem bytes_eq_toUTF8 {bytes : ByteArray} {text : String}
    (h : String.fromUTF8? bytes = some text) : bytes = text.toUTF8 := by
  unfold String.fromUTF8? at h
  split at h
  · cases h
    rfl
  · cases h

theorem Table.read_of_listing {text : String} {items : List Json.Value} {complete : Bool}
    (h : Json.readListing text = ⟨items, complete⟩) :
    Table.read text = match items.mapM Entry.ofValue with
      | .ok es => if complete then .ok (.ofEntries es) else .error .malformed
      | .error fault => .error fault := by
  unfold Table.read Table.ofListing
  rw [h]
  cases items.mapM Entry.ofValue <;> rfl

theorem Table.read_of_items {text : String} {es : List Entry}
    (hitems : (Json.readListing text).items.mapM Entry.ofValue = .ok es)
    (hcomplete : (Json.readListing text).complete = true) :
    Table.read text = .ok (.ofEntries es) := by
  cases hlisting : Json.readListing text with
  | mk items complete =>
    rw [hlisting] at hitems hcomplete
    obtain rfl : complete = true := hcomplete
    rw [Table.read_of_listing hlisting, show items.mapM Entry.ofValue = .ok es from hitems]
    rfl

theorem Table.items_of_read {text : String} {t : Table} (h : Table.read text = .ok t) :
    ∃ items es, Json.readListing text = ⟨items, true⟩ ∧ items.mapM Entry.ofValue = .ok es := by
  cases hlisting : Json.readListing text with
  | mk items complete =>
    rw [Table.read_of_listing hlisting] at h
    cases hes : items.mapM Entry.ofValue with
    | error fault =>
      rw [hes] at h
      cases h
    | ok es =>
      rw [hes] at h
      cases complete with
      | false => cases h
      | true => exact ⟨items, es, rfl, hes⟩

namespace Disk

variable {m : Type → Type} [Monad m] [LawfulMonad m] {d : Disk m} {path text : String}

theorem readText_of_read (h : d.read path = pure (.ok text.toUTF8)) :
    d.readText path = pure text := by
  unfold readText
  rw [h, liftM_pure, pure_bind]
  simp only [fromUTF8?_toUTF8]

theorem readTable_of_read {t : Table} (h : d.read path = pure (.ok text.toUTF8))
    (ht : Table.read text = .ok t) : d.readTable path = pure t := by
  unfold readTable
  rw [readText_of_read h, pure_bind]
  simp only [ht]

theorem gatherTable_of_file (hfile : d.isDirectory path = pure false) :
    d.gatherTable path = d.readTable path := by
  unfold gatherTable
  rw [hfile, liftM_pure, pure_bind, if_neg Bool.false_ne_true]

end Disk

/-! ## Reading a text -/

namespace Disk

variable {d : Disk Id} {path text : String} {fault : LoadFault}

/-- Why there is no text at a path: there is nothing to read, or the bytes are not text. -/
inductive Unreadable (d : Disk Id) (path : String) : LoadFault → Prop
  | unread {fault : ReadFault} :
      d.read path = pure (.error fault) → Unreadable d path (.io fault.message path)
  | notText {bytes : ByteArray} : d.read path = pure (.ok bytes) →
      String.fromUTF8? bytes = none → Unreadable d path (.io ReadFault.notText.message path)

theorem read_of_readText (h : (d.readText path).run = .ok text) :
    d.read path = pure (.ok text.toUTF8) := by
  unfold readText at h
  cases hread : d.read path with
  | error fault =>
    rw [show d.read path = pure (.error fault) from hread, liftM_pure, pure_bind] at h
    cases h
  | ok bytes =>
    rw [show d.read path = pure (.ok bytes) from hread, liftM_pure, pure_bind] at h
    cases htext : String.fromUTF8? bytes with
    | none =>
      simp only [htext] at h
      cases h
    | some text' =>
      simp only [htext] at h
      obtain rfl : text' = text := Except.ok.inj h
      rw [← bytes_eq_toUTF8 htext]
      rfl

theorem readText_eq_ok_iff :
    (d.readText path).run = .ok text ↔ d.read path = pure (.ok text.toUTF8) := by
  constructor
  · exact read_of_readText
  · intro h
    rw [readText_of_read h]
    rfl

theorem readText_eq_error_iff :
    (d.readText path).run = .error fault ↔ d.Unreadable path fault := by
  constructor
  · intro h
    unfold readText at h
    cases hread : d.read path with
    | error why =>
      rw [show d.read path = pure (.error why) from hread, liftM_pure, pure_bind] at h
      cases h
      exact .unread hread
    | ok bytes =>
      rw [show d.read path = pure (.ok bytes) from hread, liftM_pure, pure_bind] at h
      cases htext : String.fromUTF8? bytes with
      | none =>
        simp only [htext] at h
        cases h
        exact .notText hread htext
      | some text =>
        simp only [htext] at h
        cases h
  · intro h
    unfold readText
    cases h with
    | unread hread =>
      rw [hread, liftM_pure, pure_bind]
      rfl
    | notText hread htext =>
      rw [hread, liftM_pure, pure_bind]
      simp only [htext]
      rfl

end Disk

end StatProse
