import StatProse.Disk
import StatProse.Path

/-!
# File trees

A file tree is a disk held as a value: a file with its bytes, or a directory with its
members in the order in which it lists them.
-/

namespace StatProse

inductive FileTree where
  | file (bytes : ByteArray)
  | directory (members : List (String × FileTree))

namespace FileTree

def empty : FileTree := directory []

instance : Inhabited FileTree := ⟨empty⟩

/-- Follows the parts of a path, with the directories that enclose the place reached.
Outside of them there are only empty directories. -/
def walk (enclosing : List FileTree) (here : FileTree) :
    List String → Except ReadFault FileTree
  | [] => .ok here
  | part :: parts =>
    match here with
    | file _ => .error .notDirectory
    | directory members =>
      if Path.isIdle part then walk enclosing here parts
      else if part = ".." then
        match enclosing with
        | [] => walk [] empty parts
        | outer :: enclosing => walk enclosing outer parts
      else
        match members.lookup part with
        | none => .error .notFound
        | some t => walk (here :: enclosing) t parts

/-- What stands at a path. An absolute path leads outside of the tree, and the empty path
nowhere. -/
def find (t : FileTree) (path : String) : Except ReadFault FileTree :=
  if path.isEmpty then .error .notFound
  else walk [] (if Path.isAbsolute path then empty else t) (Path.parts path)

def disk (t : FileTree) : Disk Id where
  isDirectory path :=
    match t.find path with
    | .ok (directory _) => true
    | _ => false
  list path :=
    match t.find path with
    | .ok (directory members) => .ok (members.map (·.1))
    | .ok (file _) => .error .notDirectory
    | .error fault => .error fault
  read path :=
    match t.find path with
    | .ok (file bytes) => .ok bytes
    | .ok (directory _) => .error .isDirectory
    | .error fault => .error fault

end FileTree

end StatProse
