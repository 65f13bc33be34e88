import StatProse.Proofs.Arguments
import StatProse.Proofs.Runs

/-!
# All or nothing

A run that describes modifiers prints all their texts, or it prints nothing and ends with one
error: the fault of the first part of the content that cannot be loaded or, if the content is
loaded, the first id in the arguments that is not a key of the modifier document.
-/

namespace StatProse.CommandLine

/-! ## Answers -/

inductive Answers (c : Content) (r : Request) : List String → Prop
  | single {m : Modifier} : r.high = none → c.modifier? r.low = some m →
      Answers c r ((c.describerIn r.language).describe m none
        (r.placeholder.or c.settings.placeholder))
  | span {id : String} {low high : Modifier} : r.high = some id →
      c.modifier? r.low = some low → c.modifier? id = some high →
      Answers c r ((c.describerIn r.language).describeRange low high)

section Answering

variable {c : Content} {r : Request} {id : String}

theorem answer_of_known (h : ∀ id ∈ r.ids, (c.modifier? id).isSome) :
    ∃ texts, answer c r = .ok texts ∧ Answers c r texts := by
  obtain ⟨low, hlow⟩ := Option.isSome_iff_exists.mp (h r.low (by simp [Request.ids]))
  cases hhigh : r.high with
  | none =>
    refine ⟨_, ?_, .single hhigh hlow⟩
    simp only [answer_of_single c hhigh, hlow]
  | some id =>
    obtain ⟨high, hid⟩ := Option.isSome_iff_exists.mp (h id (by simp [Request.ids, hhigh]))
    refine ⟨_, ?_, .span hhigh hlow hid⟩
    simp only [answer_of_span c hhigh, hlow, hid]

theorem answer_of_unknown (h : r.ids.find? (fun id => (c.modifier? id).isNone) = some id) :
    answer c r = .error (.unknownModifier id) := by
  cases hhigh : r.high with
  | none =>
    rw [answer_of_single c hhigh]
    cases hlow : c.modifier? r.low with
    | none =>
      obtain rfl : r.low = id := by simpa [Request.ids, hlow] using h
      rfl
    | some low => simp [Request.ids, hhigh, hlow] at h
  | some other =>
    rw [answer_of_span c hhigh]
    cases hlow : c.modifier? r.low with
    | none =>
      -- the low id is refused before the high one is looked up
      obtain rfl : r.low = id := by simpa [Request.ids, hlow] using h
      rfl
    | some low =>
      cases hother : c.modifier? other with
      | none =>
        obtain rfl : other = id := by simpa [Request.ids, hhigh, hlow, hother] using h
        rfl
      | some high => simp [Request.ids, hhigh, hlow, hother] at h

end Answering

/-! ## Runs -/

section Runs

variable {toml : Toml.DocumentReader} {d : Disk Id} {arguments keys : List String} {r : Request}
  {c : Content} {fault : LoadFault} {id : String}

theorem run_of_fails (h : parse? arguments = some (.describe r))
    (hfails : Content.Fails toml d r.config fault) :
    run toml d arguments = { code := 1, failure := some (.loading r.config fault) } := by
  rw [run_of_parse? h, describe_eq, Content.load_eq_error_iff.mpr hfails]

theorem run_of_parts (h : parse? arguments = some (.describe r))
    (hparts : Content.Parts toml d r.config keys c) :
    run toml d arguments = .ofAnswer (answer c r) := by
  rw [run_of_parse? h, describe_eq, Content.load_eq_ok_iff.mpr ⟨keys, hparts⟩]

theorem run_of_known (h : parse? arguments = some (.describe r))
    (hparts : Content.Parts toml d r.config keys c) (hknown : ∀ id ∈ r.ids, id ∈ keys) :
    ∃ texts, run toml d arguments = { code := 0, lines := texts } ∧ Answers c r texts := by
  obtain ⟨texts, htexts, hanswers⟩ := answer_of_known fun id hid =>
    hparts.modifier?_isSome_iff.mpr (hknown id hid)
  refine ⟨texts, ?_, hanswers⟩
  rw [run_of_parts h hparts, htexts]
  rfl

theorem run_of_unknown (h : parse? arguments = some (.describe r))
    (hparts : Content.Parts toml d r.config keys c)
    (hunknown : r.ids.find? (fun id => id ∉ keys) = some id) :
    run toml d arguments = { code := 1, failure := some (.unknownModifier id) } := by
  -- an id without a modifier is one that is no key
  have hkeys : (fun id => (c.modifier? id).isNone) = (fun id => decide (id ∉ keys)) := by
    funext id
    rw [Bool.eq_iff_iff]
    simp [← hparts.modifier?_isSome_iff]
  rw [← hkeys] at hunknown
  rw [run_of_parts h hparts, answer_of_unknown hunknown]
  rfl

theorem fails_or_unknown_or_known (toml : Toml.DocumentReader) (d : Disk Id) (r : Request) :
    (∃ fault, Content.Fails toml d r.config fault) ∨
    (∃ keys c id, Content.Parts toml d r.config keys c ∧
      r.ids.find? (fun id => id ∉ keys) = some id) ∨
    ∃ keys c, Content.Parts toml d r.config keys c ∧ ∀ id ∈ r.ids, id ∈ keys := by
  rcases Content.parts_or_fails toml d r.config with ⟨keys, c, hparts⟩ | hfails
  · cases hfind : r.ids.find? (fun id => id ∉ keys) with
    | some id => exact .inr (.inl ⟨keys, c, id, hparts, hfind⟩)
    | none =>
      refine .inr (.inr ⟨keys, c, hparts, fun id hid => ?_⟩)
      simpa using List.find?_eq_none.mp hfind id hid
  · exact .inl hfails

end Runs

/-- Whatever reads the settings, a run that describes one modifier or two tiers ends with code
zero if all parts of the content can be loaded and all ids are keys of the modifier document.
Then it prints the texts, each with a line break after it. If not it ends with code one and
prints nothing, and its failure is that of the loading or else the first unknown id in the
order of the arguments. -/
theorem run_of_request (toml : Toml.DocumentReader) (d : Disk Id) {arguments : List String}
    {r : Request} (h : parse? arguments = some (.describe r)) :
    r.ids.Sublist arguments ∧
    ((run toml d arguments).code = 0 ↔
      ∃ keys c, Content.Parts toml d r.config keys c ∧ ∀ id ∈ r.ids, id ∈ keys) ∧
    (∀ keys c, Content.Parts toml d r.config keys c → (∀ id ∈ r.ids, id ∈ keys) →
      (run toml d arguments).failure = none ∧ ∃ texts, Answers c r texts ∧
      (run toml d arguments).output.toList = texts.flatMap (fun text => text.toList ++ ['\n'])) ∧
    ((run toml d arguments).code ≠ 0 →
      (run toml d arguments).code = 1 ∧ (run toml d arguments).output = "" ∧
      ((∃ fault, Content.Fails toml d r.config fault) ∨ ∃ keys c id,
        Content.Parts toml d r.config keys c ∧ r.ids.find? (fun id => id ∉ keys) = some id)) ∧
    (∀ fault, Content.Fails toml d r.config fault → (run toml d arguments).code = 1 ∧
      (run toml d arguments).failure = some (.loading r.config fault)) ∧
    ∀ keys c id, Content.Parts toml d r.config keys c →
      r.ids.find? (fun id => id ∉ keys) = some id → (run toml d arguments).code = 1 ∧
      (run toml d arguments).failure = some (.unknownModifier id) := by
  have hcases := fails_or_unknown_or_known toml d r
  refine ⟨parse?_ids h, ⟨fun hcode => ?_, ?_⟩, ?_, fun hcode => ?_, ?_, ?_⟩
  · rcases hcases with ⟨fault, hfails⟩ | ⟨keys, c, id, hparts, hunknown⟩ | hknown
    · simp [run_of_fails h hfails] at hcode
    · simp [run_of_unknown h hparts hunknown] at hcode
    · exact hknown
  · rintro ⟨keys, c, hparts, hknown⟩
    obtain ⟨texts, hrun, -⟩ := run_of_known h hparts hknown
    simp [hrun]
  · intro keys c hparts hknown
    obtain ⟨texts, hrun, hanswers⟩ := run_of_known h hparts hknown
    exact ⟨by simp [hrun], texts, hanswers, by simp [hrun, toList_output]⟩
  · rcases hcases with ⟨fault, hfails⟩ | ⟨keys, c, id, hparts, hunknown⟩ |
      ⟨keys, c, hparts, hknown⟩
    · rw [run_of_fails h hfails]
      exact ⟨rfl, rfl, .inl ⟨fault, hfails⟩⟩
    · rw [run_of_unknown h hparts hunknown]
      exact ⟨rfl, rfl, .inr ⟨keys, c, id, hparts, hunknown⟩⟩
    · obtain ⟨texts, hrun, -⟩ := run_of_known h hparts hknown
      simp [hrun] at hcode
  · intro fault hfails
    simp [run_of_fails h hfails]
  · intro keys c id hparts hunknown
    simp [run_of_unknown h hparts hunknown]

open Life in
/-- One id, an id that is not a key after one that is, settings that are not there, and a
table that cannot be loaded beside modifiers that cannot be loaded either. -/
theorem run_of_life :
    let d := files.disk
    let single : Request := { low := "A" }
    let span : Request := { low := "A", high := some "B" }
    let astray : Request := { config := "nope", low := "A" }
    let broken : Request := { config := "broken.toml", low := "A", high := some "B" }
    let missing : LoadFault := .io ReadFault.notFound.message (some "nope")
    let malformed : LoadFault := .json (.language defaultLanguage) "u/b.json"
    parse? ["A"] = some (.describe single) ∧
    (∃ keys, Content.Parts Toml.read? d defaultConfig keys content ∧
      (∀ id ∈ single.ids, id ∈ keys) ∧ span.ids.find? (fun id => id ∉ keys) = some "B") ∧
    (run Toml.read? d ["A"]).code = 0 ∧ (run Toml.read? d ["A"]).output = "+(5-9) to Life\n" ∧
    parse? ["A", "B"] = some (.describe span) ∧ (run Toml.read? d ["A", "B"]).code = 1 ∧
    (run Toml.read? d ["A", "B"]).output = "" ∧
    (run Toml.read? d ["A", "B"]).failure = some (.unknownModifier "B") ∧
    parse? ["-c", "nope", "A"] = some (.describe astray) ∧
    Content.Fails Toml.read? d "nope" missing ∧
    (run Toml.read? d ["-c", "nope", "A"]).code = 1 ∧
    (run Toml.read? d ["-c", "nope", "A"]).failure = some (.loading "nope" missing) ∧
    parse? ["A", "B", "-cbroken.toml"] = some (.describe broken) ∧
    Content.Fails Toml.read? d "broken.toml" malformed ∧
    (run Toml.read? d ["A", "B", "-cbroken.toml"]).code = 1 ∧
    (run Toml.read? d ["A", "B", "-cbroken.toml"]).output = "" ∧
    (run Toml.read? d ["A", "B", "-cbroken.toml"]).failure =
      some (.loading "broken.toml" malformed) := by
  intro d single span astray broken missing malformed
  have hsingle : parse? ["A"] = some (.describe single) := by decide +kernel
  have hspan : parse? ["A", "B"] = some (.describe span) := by decide +kernel
  have hastray : parse? ["-c", "nope", "A"] = some (.describe astray) := by decide +kernel
  have hbroken : parse? ["A", "B", "-cbroken.toml"] = some (.describe broken) := by
    decide +kernel
  have hmissing : Content.Fails Toml.read? d "nope" missing :=
    .settings (.unreadable (.unread rfl))
  obtain ⟨keys, hparts⟩ := exists_parts
  have ha : "A" ∈ keys := hparts.modifier?_isSome_iff.mp (by simp [modifier?_content])
  have hb : "B" ∉ keys := by
    rw [← hparts.modifier?_isSome_iff]
    simp [content, Content.modifier?, Modifiers.ofMembers]
  have hknown : ∀ id ∈ single.ids, id ∈ keys := by simpa [single, Request.ids] using ha
  have hunknown : span.ids.find? (fun id => id ∉ keys) = some "B" := by
    simp [span, Request.ids, ha, hb]
  obtain ⟨-, hcode, htexts, -, -, -⟩ := run_of_request Toml.read? d hsingle
  obtain ⟨-, -, -, hspanEmpty, -, hid⟩ := run_of_request Toml.read? d hspan
  obtain ⟨-, -, -, -, hloading, -⟩ := run_of_request Toml.read? d hastray
  obtain ⟨-, -, -, hbrokenEmpty, hbrokenLoading, -⟩ := run_of_request Toml.read? d hbroken
  obtain ⟨hspanCode, hspanFailure⟩ := hid keys content "B" hparts hunknown
  obtain ⟨hastrayCode, hastrayFailure⟩ := hloading missing hmissing
  obtain ⟨hbrokenCode, hbrokenFailure⟩ := hbrokenLoading malformed fails_broken
  obtain ⟨-, hspanOutput, -⟩ := hspanEmpty (by simp [hspanCode])
  obtain ⟨-, hbrokenOutput, -⟩ := hbrokenEmpty (by simp [hbrokenCode])
  -- the general statement leaves which texts these are, and the describer tells
  have hlife : (run Toml.read? d ["A"]).output = "+(5-9) to Life\n" := by
    obtain ⟨-, texts, hanswers, htext⟩ := htexts keys content hparts hknown
    cases hanswers with
    | single _ hm =>
      obtain rfl := Option.some.inj (modifier?_content.symm.trans hm)
      have hrender : renderLines [⟨0, entry, [5], [9], none⟩] defaultLanguage none =
          ["+(5-9) to Life"] := by decide +kernel
      rw [show single.language = none from rfl, describe_content,
        show single.placeholder.or content.settings.placeholder = none from rfl, hrender] at htext
      exact String.toList_inj.mp htext
    | span hhigh => cases hhigh
  exact ⟨hsingle, ⟨keys, hparts, hknown, hunknown⟩, hcode.mpr ⟨keys, content, hparts, hknown⟩,
    hlife, hspan, hspanCode, hspanOutput, hspanFailure, hastray, hmissing, hastrayCode,
    hastrayFailure, hbroken, fails_broken, hbrokenCode, hbrokenOutput, hbrokenFailure⟩

end StatProse.CommandLine
