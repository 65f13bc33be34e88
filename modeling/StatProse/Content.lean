import StatProse.Disk
import StatProse.Document.Modifier
import StatProse.Document.Table
import StatProse.Path
import StatProse.Settings

/-!
# Content

Content is everything that a describer works with: settings, a validated table, modifiers
and overrides. It is loaded from a disk, first the settings, then the table, then the
modifiers, and the first fault ends the loading. The reader of the settings is a parameter.
-/

namespace StatProse

inductive LoadFault where
  | io (text : String) (path : Option String)
  | json (fault : DocumentFault) (path : String)
  | toml (path : String)
  | invalidEntry (position : Nat) (reason : String)
deriving DecidableEq

namespace DocumentFault

def message : DocumentFault → String
  | malformed => "the document is not well formed"
  | language name => s!"rules for language '{name}'"

end DocumentFault

namespace LoadFault

def message : LoadFault → String
  | io text none => s!"IO error: {text}"
  | io text (some path) => s!"IO error in '{path}': {text}"
  | json fault path => s!"Parse error in '{path}': {fault.message}"
  | toml path => s!"Parse error in '{path}': the settings are not well formed"
  | invalidEntry position reason => s!"Invalid translation entry {position}: {reason}"

def path? : LoadFault → Option String
  | io _ path => path
  | json _ path => some path
  | toml path => some path
  | invalidEntry .. => none

def location : LoadFault → String
  | io _ none => "Unknown location"
  | io _ (some path) => s!"File: {path}"
  | json _ path => s!"File: {path}"
  | toml path => s!"File: {path}"
  | invalidEntry position _ => s!"Translation entry #{position}"

end LoadFault

namespace Table.Invalid

def loadFault (i : Table.Invalid) : LoadFault := .invalidEntry i.position i.fault.message

end Table.Invalid

namespace Disk

variable {m : Type → Type} [Monad m]

def readText (d : Disk m) (path : String) : ExceptT LoadFault m String := do
  match ← (d.read path : m _) with
  | .error fault => throw (.io fault.message path)
  | .ok bytes =>
    match String.fromUTF8? bytes with
    | some text => return text
    -- bytes that are not text are refused before any document is read
    | none => throw (.io ReadFault.notText.message path)

def readTable (d : Disk m) (path : String) : ExceptT LoadFault m Table := do
  match Table.read (← d.readText path) with
  | .ok t => return t
  | .error fault => throw (.json fault path)

/-- The names of the table documents among the members of a directory, in ascending order. -/
def documentNames (names : List String) : List String :=
  (names.filter Path.isDocument).mergeSort (fun a b => decide (a ≤ b))

def readTables (d : Disk m) : List String → ExceptT LoadFault m Table
  | paths => paths.foldlM (fun t path => return t ++ (← d.readTable path)) .empty

/-- The table at a path, not validated. A directory holds the entries of all its table
documents, in the order of their names. -/
def gatherTable (d : Disk m) (path : String) : ExceptT LoadFault m Table := do
  if ← (d.isDirectory path : m _) then
    match ← (d.list path : m _) with
    | .error fault => throw (.io fault.message path)
    | .ok names => d.readTables ((documentNames names).map (Path.join path))
  else d.readTable path

def loadTable (d : Disk m) (path : String) : ExceptT LoadFault m Table := do
  let t ← d.gatherTable path
  match t.invalid? with
  | some i => throw i.loadFault
  | none => return t

def loadModifiers (d : Disk m) (path : String) : ExceptT LoadFault m Modifiers := do
  match Json.read? (← d.readText path) >>= Modifiers.read? with
  | some members => return Modifiers.ofMembers members
  | none => throw (.json .malformed path)

def loadSettings (d : Disk m) (toml : Toml.DocumentReader) (path : String) :
    ExceptT LoadFault m Settings := do
  match Settings.read? toml (← d.readText path) with
  | some s => return s
  | none => throw (.toml path)

end Disk

structure Content where
  settings : Settings
  table : Table
  modifiers : Modifiers
  overrides : Overrides

namespace Content

variable {m : Type → Type} [Monad m]

/-- Loads the settings at a path and the content that they point to. Paths in the settings
are relative to the directory of the settings. -/
def load (toml : Toml.DocumentReader) (d : Disk m) (path : String) :
    ExceptT LoadFault m Content := do
  let settings ← d.loadSettings toml path
  let base := Path.parent path
  let table ← d.loadTable (Path.join base settings.tablePath)
  let modifiers ← match settings.modifierPath with
    | some path => d.loadModifiers (Path.join base path)
    | none => pure ∅
  return { settings, table, modifiers, overrides := Overrides.builtin.insertAll settings.overrides }

def describer (c : Content) : Describer where
  table := c.table
  overrides := c.overrides
  language := c.settings.language

def modifier? (c : Content) (id : String) : Option Modifier := c.modifiers[id]?

end Content

end StatProse
