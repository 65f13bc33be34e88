import StatProse.Proofs.Arguments
import StatProse.Proofs.LiningUp
import StatProse.Proofs.Placeholder
import StatProse.Proofs.Runs

/-!
# One id given twice

The span from a modifier to itself reads as the modifier, but the program shows a span
without a placeholder. So it prints the same for an id given twice as for the id given
once and an empty placeholder, whatever the placeholder in the arguments or settings is.
-/

namespace StatProse

namespace Describer

variable {d : Describer} {m : Modifier}

theorem describe_of_override {lines : List String} (h : d.overrides.get? m.type = some lines)
    (values : Option (List Double)) (placeholder : Option String) :
    d.describe m values placeholder = lines := by
  simp only [describe, h]

theorem describe_of_unshown {placeholder : Option String}
    (h : effectivePlaceholder placeholder = none ∨ d.Fixes m) (values : Option (List Double)) :
    d.describe m values none = d.describe m values placeholder := by
  rcases h with hnone | hfixes
  · exact describe_of_effectivePlaceholder (effectivePlaceholder_none.trans hnone.symm)
  · obtain ⟨lines, hlines⟩ := Option.isSome_iff_exists.mp hfixes
    rw [describe_of_override hlines, describe_of_override hlines]

theorem describeRange_self (d : Describer) (m : Modifier) :
    d.describeRange m m = d.describe m none none := by
  cases h : d.overrides.get? m.type with
  | some lines =>
    rw [describe_of_override h, describeRange, override?, h, Option.some_or]
  | none => exact (describeRange_of_sameIds d rfl h h rfl (zipWith_span_self m.stats).symm).1

end Describer

namespace CommandLine

namespace Request

def twice (r : Request) : Request := { r with high := some r.low }

def unmasked (r : Request) : Request := { r with placeholder := some "" }

/-- No placeholder shows in the answer to a request: there is none, or the text is fixed. -/
def Plain (r : Request) (c : Content) : Prop :=
  effectivePlaceholder (r.placeholder.or c.settings.placeholder) = none ∨
    ∀ m, c.modifier? r.low = some m → c.describer.Fixes m

end Request

/-! ## Arguments -/

/-- No id of a draft looks like an option. Past the end of the options one may. -/
def Draft.Readable (d : Draft) : Prop := ∀ id ∈ d.ids, isValue id = true

section Reading

variable {d d' : Draft} {waiting : Option Setting} {arguments : List String} {r : Request}

theorem Draft.Readable.set? (h : d.Readable) {s : Setting} {value : String}
    (hset : d.set? s value = some d') : d'.Readable := by
  rw [Readable, ids_of_set? hset]
  exact h

theorem Draft.Readable.addId? (h : d.Readable) {id : String} (hid : isValue id = true)
    (hadd : d.addId? id = some d') : d'.Readable := by
  rw [Readable, ids_of_addId? hadd]
  intro other hother
  rcases List.mem_append.mp hother with hother | hother
  · exact h other hother
  · rw [List.mem_singleton.mp hother]
    exact hid

-- the induction is on the reading, and what it carries is that the ids so far can be read
-- again: an id that looks like an option stands only after the end of the options
theorem readArguments_append_low (hd : d.Readable)
    (h : readArguments d waiting arguments = some (.describe r)) (hhigh : r.high = none) :
    readArguments d waiting (arguments ++ [r.low]) = some (.describe r.twice) := by
  fun_induction readArguments d waiting arguments with
  | case1 | case4 | case5 | case7 | case9 | case10 | case12 | case14 => cases h
  | case2 d waiting hwaiting =>
    obtain rfl : waiting = none := Option.not_isSome_iff_eq_none.mp hwaiting
    have hlow := isValue_iff.mp (hd r.low (Draft.low_mem_ids h))
    have hagain := Draft.addId?_command? h hhigh r.low
    obtain ⟨d', hd', hcommand⟩ := Option.bind_eq_some_iff.mp hagain
    simp only [List.nil_append, readArguments, hlow, hd']
    exact hcommand
  | case3 d argument arguments s hvalue d' hset ih =>
    simpa only [List.cons_append, readArguments, hvalue, hset, if_true] using ih (hd.set? hset) h
  | case6 d argument arguments text htoken d' hadd ih =>
    obtain rfl := eq_of_token_eq_id htoken
    have hread := ih (hd.addId? (isValue_iff.mpr htoken) hadd) h
    simpa only [List.cons_append, readArguments, htoken, hadd] using hread
  | case8 d argument arguments htoken =>
    obtain ⟨d', hd', hcommand⟩ := Option.bind_eq_some_iff.mp h
    simp only [List.cons_append, readArguments, htoken, List.foldlM_append, List.foldlM_cons,
      List.foldlM_nil, bind_pure, hd']
    exact Draft.addId?_command? hcommand hhigh r.low
  | case11 d argument arguments s value htoken d' hset ih =>
    simpa only [List.cons_append, readArguments, htoken, hset] using ih (hd.set? hset) h
  | case13 d argument arguments s htoken ih =>
    simpa only [List.cons_append, readArguments, htoken] using ih hd h

theorem parse?_append_low (h : parse? arguments = some (.describe r)) (hhigh : r.high = none) :
    parse? (arguments ++ [r.low]) = some (.describe r.twice) :=
  readArguments_append_low (fun _ hid => absurd hid List.not_mem_nil) h hhigh

end Reading

/-! ## Answers -/

section Answers

variable {c : Content} {r : Request}

theorem answer_twice (c : Content) (r : Request) :
    answer c r.twice = match c.modifier? r.low with
      | some m => .ok ((c.describerIn r.language).describe m none none)
      | none => .error (.unknownModifier r.low) := by
  simp only [← Describer.describeRange_self]
  cases hlanguage : r.language <;> cases hm : c.modifier? r.low <;>
    simp only [answer, Request.twice, hlanguage, hm] <;> rfl

theorem answer_twice_eq (c : Content) (hhigh : r.high = none) :
    answer c r.twice = answer c r.unmasked := by
  have hempty : ∀ m, (c.describerIn r.language).describe m none none =
      (c.describerIn r.language).describe m none (some "") :=
    fun m => Describer.describe_of_effectivePlaceholder effectivePlaceholder_empty.symm
  rw [answer_twice, answer_of_single (r := r.unmasked) c hhigh,
    show r.unmasked.low = r.low from rfl]
  cases c.modifier? r.low with
  | none => rfl
  | some m => exact congrArg Except.ok (hempty m)

theorem answer_eq_of_plain (hhigh : r.high = none) (h : r.Plain c) :
    answer c r.twice = answer c r := by
  rw [answer_twice, answer_of_single c hhigh]
  cases hm : c.modifier? r.low with
  | none => rfl
  | some m =>
    dsimp only
    rw [Describer.describe_of_unshown (d := c.describerIn r.language)
      (h.imp_right fun hfixes => hfixes m hm)]

-- a placeholder never decides whether there is an answer
theorem ofAnswer_twice (c : Content) (hhigh : r.high = none) :
    (Outcome.ofAnswer (answer c r.twice)).code = (Outcome.ofAnswer (answer c r)).code ∧
      (Outcome.ofAnswer (answer c r.twice)).failure =
        (Outcome.ofAnswer (answer c r)).failure := by
  rw [answer_twice, answer_of_single c hhigh]
  cases c.modifier? r.low with
  | none => exact ⟨rfl, rfl⟩
  | some m => exact ⟨rfl, rfl⟩

end Answers

/-! ## Runs -/

/-- Whatever reads the settings, an id given twice ends as the id given once does, and prints
what it prints with an empty placeholder. So both print the same unless a placeholder shows
in the answer. -/
theorem run_of_repeated_id (toml : Toml.DocumentReader) (d : Disk Id) :
    (∀ arguments r, parse? arguments = some (.describe r) → r.high = none →
      parse? (arguments ++ [r.low]) = some (.describe r.twice)) ∧
    ∀ arguments arguments' r, parse? arguments = some (.describe r) → r.high = none →
      parse? arguments' = some (.describe r.twice) →
      (run toml d arguments').code = (run toml d arguments).code ∧
      (run toml d arguments').failure = (run toml d arguments).failure ∧
      run toml d arguments' = describe toml d r.unmasked ∧
      ((∀ c, (Content.load toml d r.config).run = .ok c → r.Plain c) →
        run toml d arguments' = run toml d arguments) := by
  refine ⟨fun arguments r h hhigh => parse?_append_low h hhigh, ?_⟩
  intro arguments arguments' r h hhigh h'
  rw [run_of_parse? h, run_of_parse? h', describe_eq, describe_eq, describe_eq]
  have hconfig : r.twice.config = r.config ∧ r.unmasked.config = r.config := ⟨rfl, rfl⟩
  rw [hconfig.1, hconfig.2]
  -- all runs load the same content, or fail to with the same fault
  cases hload : (Content.load toml d r.config).run with
  | error fault => exact ⟨rfl, rfl, rfl, fun _ => rfl⟩
  | ok c =>
    obtain ⟨hcode, hfailure⟩ := ofAnswer_twice c hhigh
    refine ⟨hcode, hfailure, congrArg Outcome.ofAnswer (answer_twice_eq c hhigh), fun hplain => ?_⟩
    exact congrArg Outcome.ofAnswer (answer_eq_of_plain hhigh (hplain c rfl))

open Life in
theorem run_of_life_twice :
    let d := files.disk
    let masked : Request := { placeholder := some "#", low := "A" }
    let plain : Request := { low := "A" }
    parse? ["-p", "#", "A"] = some (.describe masked) ∧ masked.high = none ∧
    parse? ["-p", "#", "A", "A"] = some (.describe masked.twice) ∧
    (run Toml.read? d ["-p", "#", "A", "A"]).code = (run Toml.read? d ["-p", "#", "A"]).code ∧
    run Toml.read? d ["-p", "#", "A", "A"] = describe Toml.read? d masked.unmasked ∧
    parse? ["A"] = some (.describe plain) ∧ plain.high = none ∧
    parse? ["A", "A"] = some (.describe plain.twice) ∧
    (∀ c, (Content.load Toml.read? d plain.config).run = .ok c → plain.Plain c) ∧
    run Toml.read? d ["A", "A"] = run Toml.read? d ["A"] := by
  intro d masked plain
  have hmasked : parse? ["-p", "#", "A"] = some (.describe masked) := by decide +kernel
  have hplain : parse? ["A"] = some (.describe plain) := by decide +kernel
  have hnone : ∀ c, (Content.load Toml.read? d plain.config).run = .ok c → plain.Plain c := by
    intro c hc
    obtain rfl := Except.ok.inj (load_files.symm.trans hc)
    exact .inl rfl
  obtain ⟨happend, hrun⟩ := run_of_repeated_id Toml.read? d
  have htwice := happend _ masked hmasked rfl
  have hplainTwice := happend _ plain hplain rfl
  obtain ⟨hcode, -, hunmasked, -⟩ := hrun _ _ masked hmasked rfl htwice
  obtain ⟨-, -, -, hequal⟩ := hrun _ _ plain hplain rfl hplainTwice
  exact ⟨hmasked, rfl, htwice, hcode, hunmasked, hplain, rfl, hplainTwice, hnone, hequal hnone⟩

open Life in
/-- The numbers show when an id is given twice with a placeholder. -/
theorem not_run_twice_eq :
    ¬∀ (d : Disk Id) arguments arguments' r, parse? arguments = some (.describe r) →
      r.high = none → parse? arguments' = some (.describe r.twice) →
      (run Toml.read? d arguments').code = (run Toml.read? d arguments).code ∧
        (run Toml.read? d arguments').output = (run Toml.read? d arguments).output := by
  intro h
  let r : Request := { placeholder := some "#", low := "A" }
  have hsingle : parse? ["-p", "#", "A"] = some (.describe r) := by decide +kernel
  have htwice : parse? ["-p", "#", "A", "A"] = some (.describe r.twice) := by decide +kernel
  have hmasked : renderLines [⟨0, entry, [5], [9], none⟩] defaultLanguage (some "#") =
      ["+(#-#) to Life"] := by decide +kernel
  have hnumbers : renderLines [⟨0, entry, [5], [9], none⟩] defaultLanguage none =
      ["+(5-9) to Life"] := by decide +kernel
  obtain ⟨-, houtput⟩ := h files.disk _ _ r hsingle rfl htwice
  rw [run_files hsingle rfl, run_files htwice rfl, answer_twice, answer_of_single content rfl]
    at houtput
  simp only [r, modifier?_content, describe_content, Option.some_or, hmasked, hnumbers] at houtput
  revert houtput
  decide +kernel

end CommandLine

end StatProse
