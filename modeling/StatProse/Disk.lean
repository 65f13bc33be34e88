/-!
# Disks

A disk is what content is loaded from: it tells directories from files, lists a directory
and reads a file. The operations run in a monad, so a disk can be the file system of a
machine or a value.
-/

namespace StatProse

inductive ReadFault where
  | notFound
  | isDirectory
  | notDirectory
  | notText
  | other (text : String)
deriving DecidableEq

namespace ReadFault

def message : ReadFault → String
  | notFound => "No such file or directory (os error 2)"
  | isDirectory => "Is a directory (os error 21)"
  | notDirectory => "Not a directory (os error 20)"
  | notText => "stream did not contain valid UTF-8"
  | other text => text

end ReadFault

structure Disk (m : Type → Type) where
  isDirectory : String → m Bool
  /-- The names in a directory, in any order. -/
  list : String → m (Except ReadFault (List String))
  read : String → m (Except ReadFault ByteArray)

end StatProse
