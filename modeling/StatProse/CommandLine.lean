import StatProse.Content

/-!
# The command line

The program describes one modifier, or the span of two tiers of a modifier, from the
content that a settings file points to. Either every text is printed or none: an error in
the arguments, in the content or in a modifier id comes before any output.
-/

namespace StatProse.CommandLine

def defaultConfig : String := "modtext.toml"

structure Request where
  config : String := defaultConfig
  language : Option String := none
  placeholder : Option String := none
  low : String
  high : Option String := none
deriving DecidableEq

inductive Command where
  | describe (r : Request)
  | help
  | version
deriving DecidableEq

inductive Setting where
  | config
  | language
  | placeholder
deriving DecidableEq

inductive Flag where
  | setting (s : Setting)
  | help
  | version
deriving DecidableEq

namespace Flag

def ofLong? : String → Option Flag
  | "config" => some (.setting .config)
  | "language" => some (.setting .language)
  | "placeholder" => some (.setting .placeholder)
  | "help" => some .help
  | "version" => some .version
  | _ => none

def ofShort? : Char → Option Flag
  | 'c' => some (.setting .config)
  | 'l' => some (.setting .language)
  | 'p' => some (.setting .placeholder)
  | 'h' => some .help
  | 'V' => some .version
  | _ => none

end Flag

structure Draft where
  config : Option String := none
  language : Option String := none
  placeholder : Option String := none
  ids : List String := []

namespace Draft

def get? (d : Draft) : Setting → Option String
  | .config => d.config
  | .language => d.language
  | .placeholder => d.placeholder

def set? (d : Draft) (s : Setting) (value : String) : Option Draft :=
  -- an option may be given once
  if (d.get? s).isSome then none
  else
    match s with
    -- the settings file cannot be the empty path
    | .config => if value.isEmpty then none else some { d with config := some value }
    | .language => some { d with language := some value }
    | .placeholder => some { d with placeholder := some value }

def addId? (d : Draft) (id : String) : Option Draft :=
  if d.ids.length < 2 then some { d with ids := d.ids ++ [id] } else none

def command? (d : Draft) : Option Command :=
  match d.ids with
  | low :: rest =>
    some (.describe {
      config := d.config.getD defaultConfig
      language := d.language
      placeholder := d.placeholder
      low, high := rest.head? })
  | [] => none

end Draft

inductive Token where
  | id (text : String)
  /-- The mark after which every argument is an id. -/
  | endOfOptions
  | flag (f : Flag) (value : Option String)
  | unknown

def longToken (text : List Char) : Token :=
  let name := String.ofList (text.takeWhile (· != '='))
  let value := match text.dropWhile (· != '=') with
    | [] => none
    | _ :: value => some (String.ofList value)
  match Flag.ofLong? name, value with
  -- only options that take a value may have one attached
  | some (.setting s), value => .flag (.setting s) value
  | some f, none => .flag f none
  | _, _ => .unknown

def shortToken (letter : Char) (text : List Char) : Token :=
  match Flag.ofShort? letter with
  | some (.setting s) =>
    .flag (.setting s) (match text with
      | [] => none
      -- an equals sign between the letter and its value is dropped
      | '=' :: value => some (String.ofList value)
      | value => some (String.ofList value))
  | some f => .flag f none
  | none => .unknown

def token (argument : String) : Token :=
  match argument.toList with
  | ['-'] => .id argument
  | ['-', '-'] => .endOfOptions
  | '-' :: '-' :: text => longToken text
  | '-' :: letter :: text => shortToken letter text
  | _ => .id argument

/-- Whether an argument can be the value of the option before it. -/
def isValue (argument : String) : Bool :=
  match token argument with
  | .id _ => true
  | _ => false

def readArguments (d : Draft) (waiting : Option Setting) : List String → Option Command
  | [] => if waiting.isSome then none else d.command?
  | argument :: arguments =>
    match waiting with
    | some s =>
      if isValue argument then
        match d.set? s argument with
        | some d => readArguments d none arguments
        | none => none
      else none
    | none =>
      match token argument with
      | .id text =>
        match d.addId? text with
        | some d => readArguments d none arguments
        | none => none
      | .endOfOptions => arguments.foldlM Draft.addId? d >>= Draft.command?
      -- what follows help or version is not read
      | .flag .help _ => some .help
      | .flag .version _ => some .version
      | .flag (.setting s) (some value) =>
        match d.set? s value with
        | some d => readArguments d none arguments
        | none => none
      | .flag (.setting s) none => readArguments d (some s) arguments
      | .unknown => none

/-- The command of a list of arguments; `none` if they are not well formed. -/
def parse? (arguments : List String) : Option Command := readArguments {} none arguments

inductive Failure where
  | loading (path : String) (fault : LoadFault)
  | unknownModifier (id : String)
deriving DecidableEq

namespace Failure

def message : Failure → String
  | loading path _ => s!"loading {path}"
  | unknownModifier id => s!"unknown modifier: {id}"

end Failure

/-- What the program leaves: an exit code, the lines that it prints, and its error. -/
structure Outcome where
  code : Nat
  lines : List String := []
  failure : Option Failure := none
deriving DecidableEq

def answer (c : Content) (r : Request) : Except Failure (List String) := do
  let t := match r.language with
    | some language => { c.describer with language }
    | none => c.describer
  let find (id : String) : Except Failure Modifier :=
    match c.modifier? id with
    | some m => .ok m
    | none => .error (.unknownModifier id)
  let low ← find r.low
  match r.high with
  | some high => return t.describeRange low (← find high)
  | none => return t.describe low none (r.placeholder.or c.settings.placeholder)

def versionText : String := "modtext 0.1.0"

def usageText : String :=
  "Usage: modtext [-c FILE] [-l LANGUAGE] [-p TEXT] MOD_ID [HIGH_TIER_MOD_ID]"

variable {m : Type → Type} [Monad m]

def describe (toml : Toml.DocumentReader) (d : Disk m) (r : Request) : m Outcome := do
  match ← (Content.load toml d r.config).run with
  | .error fault => return { code := 1, failure := some (.loading r.config fault) }
  | .ok content =>
    match answer content r with
    | .ok lines => return { code := 0, lines }
    | .error failure => return { code := 1, failure := some failure }

def run (toml : Toml.DocumentReader) (d : Disk m) (arguments : List String) : m Outcome :=
  match parse? arguments with
  -- arguments that are not well formed
  | none => pure { code := 2 }
  | some .help => pure { code := 0, lines := [usageText] }
  | some .version => pure { code := 0, lines := [versionText] }
  | some (.describe r) => describe toml d r

namespace Outcome

def output (o : Outcome) : String := String.join (o.lines.map (· ++ "\n"))

end Outcome

end StatProse.CommandLine
