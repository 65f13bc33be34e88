import StatProse.Text.Split

/-!
# Paths

Paths are texts whose parts are divided by slashes. A path that starts with a slash is
absolute; all others are relative to a base.
-/

namespace StatProse.Path

def isAbsolute (path : String) : Bool := path.toList.head? == some '/'

/-- The parts of a path as they are written; empty parts stand beside doubled, leading and
trailing slashes. -/
def parts (path : String) : List String := (splitAt '/' path.toList).map String.ofList

def join (base path : String) : String :=
  if isAbsolute path || base.isEmpty then path
  else if base.toList.getLast? == some '/' then base ++ path
  else base ++ "/" ++ path

def isIdle (part : String) : Bool := part == "" || part == "."

/-- The path without its last part. Idle parts at the end are dropped before and after. An
absolute path stays absolute; what has no parent gives the empty path. -/
def parent (path : String) : String :=
  match parts path with
  | [] => ""
  | first :: rest =>
    match rest.reverse.dropWhile isIdle with
    | [] => ""
    | _ :: above =>
      match above.dropWhile isIdle with
      | [] => if first.isEmpty then "/" else first
      | above => "/".intercalate (first :: above.reverse)

def documentEnding : String := ".json"

/-- Whether a file name has the ending of documents after at least one character. -/
def isDocument (name : String) : Bool :=
  documentEnding.toList.isSuffixOf name.toList && name != documentEnding

end StatProse.Path
