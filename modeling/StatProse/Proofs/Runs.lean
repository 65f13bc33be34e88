import StatProse.CommandLine
import StatProse.FileTree
import StatProse.Proofs.ContentParts
import StatProse.Toml.Reader

/-!
# Runs

A run that describes modifiers loads a content and answers from it. What it leaves follows
from the answer, and its output from the lines.
-/

namespace StatProse

namespace Content

/-- The describer of a content, in a language other than its own if one is given. -/
def describerIn (c : Content) (language : Option String) : Describer :=
  { c.describer with language := language.getD c.settings.language }

end Content

namespace CommandLine

section Answers

variable {c : Content} {r : Request} {id : String}

theorem answer_of_single (c : Content) (hhigh : r.high = none) :
    answer c r = match c.modifier? r.low with
      | some m => .ok ((c.describerIn r.language).describe m none
          (r.placeholder.or c.settings.placeholder))
      | none => .error (.unknownModifier r.low) := by
  cases hlanguage : r.language <;> cases hm : c.modifier? r.low <;>
    simp only [answer, hlanguage, hm, hhigh] <;> rfl

theorem answer_of_span (c : Content) (hhigh : r.high = some id) :
    answer c r = match c.modifier? r.low, c.modifier? id with
      | some low, some high => .ok ((c.describerIn r.language).describeRange low high)
      | some _, none => .error (.unknownModifier id)
      | none, _ => .error (.unknownModifier r.low) := by
  cases hlanguage : r.language <;> cases hlow : c.modifier? r.low <;>
    cases hid : c.modifier? id <;> simp only [answer, hlanguage, hlow, hid, hhigh] <;> rfl

def Outcome.ofAnswer : Except Failure (List String) → Outcome
  | .ok lines => { code := 0, lines }
  | .error failure => { code := 1, failure := some failure }

theorem describe_eq (toml : Toml.DocumentReader) (d : Disk Id) (r : Request) :
    describe toml d r = match (Content.load toml d r.config).run with
      | .error fault => { code := 1, failure := some (.loading r.config fault) }
      | .ok c => .ofAnswer (answer c r) := by
  unfold describe
  -- the loading is the only step that can fail before there is a content
  change (match (Content.load toml d r.config).run with
    | .error fault => _
    | .ok c => _) = _
  cases (Content.load toml d r.config).run with
  | error fault => rfl
  | ok c => cases answer c r <;> rfl

theorem run_of_parse? {arguments : List String} (h : parse? arguments = some (.describe r))
    (toml : Toml.DocumentReader) (d : Disk Id) : run toml d arguments = describe toml d r := by
  simp only [run, h]

end Answers

theorem toList_output (o : Outcome) :
    o.output.toList = o.lines.flatMap (fun text => text.toList ++ ['\n']) := by
  simp [Outcome.output, List.flatMap_map]

/-! ## A content with one modifier -/

namespace Life

def settingsText : String :=
  "version=1.5\nreleased=2024-05-27\ntranslations=\"\"\"t\"\"\"\nmods='m'"

def tableText : String :=
  "[\x7b\"ids\":[\"life\"],\"English\":[\x7b\"condition\":[\x7b\x7d]," ++
    "\"index_handlers\":[[]],\"format\":[\"+#\"],\"string\":\"\x7b0\x7d to Life\"\x7d]\x7d]"

def modifierText : String := "\x7b\"A\":\x7b\"type\":\"Life\",\"stats\":[[\"life\",5,9]]\x7d\x7d"

def brokenSettingsText : String := "translations='u'\nmods='none'"

def brokenTableText : String := "[\x7b\"ids\":[\"life\"],\"English\":5\x7d]"

/-- The files of a content with one modifier, which has one stat, and of a content whose
second table document has malformed rules and whose modifiers are missing. -/
def files : FileTree :=
  .directory [("modtext.toml", .file settingsText.toUTF8), ("t", .file tableText.toUTF8),
    ("m", .file modifierText.toUTF8), ("broken.toml", .file brokenSettingsText.toUTF8),
    ("u", .directory [("b.json", .file brokenTableText.toUTF8),
      ("a.json", .file tableText.toUTF8)])]

def rule : Rule :=
  { conditions := [{}], handlers := [[]], formats := ["+#"], template := "\x7b0\x7d to Life" }

def entry : Entry :=
  { ids := ["life"], phrases := Phrasebook.empty.insert defaultLanguage [rule] }

def modifier : Modifier := { type := "Life", stats := [⟨"life", 5, 9⟩] }

def content : Content where
  settings := { tablePath := "t", modifierPath := some "m" }
  table := .ofEntries [entry]
  modifiers := Modifiers.ofMembers [("A", modifier)]
  overrides := .builtin

theorem listsEntries_of_tableText (path : String)
    (h : files.disk.read path = pure (.ok tableText.toUTF8)) :
    files.disk.ListsEntries path [entry] := by
  have hitems : (Json.readListing tableText).items.mapM Entry.ofValue = .ok [entry] := by
    decide +kernel
  have hcomplete : (Json.readListing tableText).complete = true := by decide +kernel
  refine ⟨_, ⟨tableText, h, ?_⟩, hitems⟩
  rw [← hcomplete]

theorem exists_parts :
    ∃ keys, Content.Parts Toml.read? files.disk defaultConfig keys content := by
  have hsettings : Settings.read? Toml.read? settingsText = some content.settings := by
    decide +kernel
  have hvalid : (Table.ofEntries [entry]).invalid? = none := by decide +kernel
  have hmembers : Disk.readMembers? modifierText = some [("A", modifier)] := by decide +kernel
  obtain ⟨keys, hkeys⟩ : ∃ keys, files.disk.HoldsModifiers (Path.parent defaultConfig) (some "m")
      keys content.modifiers := by
    rw [← Disk.loadNamed_eq_ok_iff, Disk.loadNamed, Disk.loadModifiers_eq,
      Disk.readDocument_eq_ok_iff]
    exact ⟨_, ⟨modifierText, rfl, hmembers⟩, rfl⟩
  have htable : files.disk.HoldsTable (Path.join (Path.parent defaultConfig) "t") content.table :=
    ⟨.file rfl (listsEntries_of_tableText _ rfl), Table.invalid?_eq_none_iff.mp hvalid⟩
  exact ⟨keys, ⟨settingsText, rfl, hsettings⟩, htable, hkeys, rfl⟩

theorem load_files : (Content.load Toml.read? files.disk defaultConfig).run = .ok content :=
  Content.load_eq_ok_iff.mpr exists_parts

theorem fails_broken : Content.Fails Toml.read? files.disk "broken.toml"
    (.json (.language defaultLanguage) "u/b.json") := by
  have hsettings : Settings.read? Toml.read? brokenSettingsText =
      some { tablePath := "u", modifierPath := some "none" } := by decide +kernel
  have hentries : (Json.readListing brokenTableText).items.mapM Entry.ofValue =
      .error (.language defaultLanguage) := by decide +kernel
  -- the directory lists `b.json` first, but it is read second
  have harranged : Arrangement ["b.json", "a.json"] (["a.json"] ++ "b.json" :: []) := by
    refine ⟨List.pairwise_pair.mpr (utf8Bytes_le_iff.mpr (by decide)), [], .swap _ _ [], ?_, ?_⟩
    · simpa using ⟨⟨"a", by decide, rfl⟩, "b", by decide, rfl⟩
    · simp
  obtain ⟨before, item, after, es, hsplit, hbefore, hitem⟩ := mapM_eq_error_iff.mp hentries
  have hlisting : Json.readListing brokenTableText =
      ⟨before ++ item :: after, (Json.readListing brokenTableText).complete⟩ := by rw [← hsplit]
  have hreadable : ∀ earlier ∈ ["a.json"], files.disk.Readable (Path.join "u" earlier) := by
    obtain ⟨items, hitems, hes⟩ := listsEntries_of_tableText (Path.join "u" "a.json") rfl
    exact List.forall_mem_singleton.mpr ⟨items, [entry], hitems, hes⟩
  exact .table ⟨brokenSettingsText, rfl, hsettings⟩
    (.directory rfl rfl harranged hreadable (.entry rfl hlisting hbefore hitem))

theorem modifier?_content : content.modifier? "A" = some { modifier with id := "A" } := by
  simp [content, Content.modifier?, Modifiers.ofMembers]

theorem describe_content (placeholder : Option String) :
    (content.describerIn none).describe { modifier with id := "A" } none placeholder =
      renderLines [⟨0, entry, [5], [9], none⟩] defaultLanguage placeholder := by
  have hopen : content.overrides.get? "Life" = none := by
    simp [content, Overrides.builtin, Overrides.get?_insert]
  have hlife : content.table.entryFor? "life" = some (0, entry) := by
    rw [Table.entryFor?_eq]
    rfl
  have hlines : content.table.lines modifier.stats none = [⟨0, entry, [5], [9], none⟩] := by
    simp only [Table.lines, modifier, Roll.align, Option.getD_none, List.foldl_cons,
      List.foldl_nil, Table.place, Roll.id, hlife]
    rfl
  simp only [Describer.describe, Content.describerIn, Content.describer, modifier, hopen]
  exact congrArg (renderLines · defaultLanguage placeholder) hlines

theorem run_files {r : Request} {arguments : List String}
    (h : parse? arguments = some (.describe r)) (hconfig : r.config = defaultConfig) :
    run Toml.read? files.disk arguments = .ofAnswer (answer content r) := by
  rw [run_of_parse? h, describe_eq, hconfig, load_files]

end Life

end CommandLine

end StatProse
