import StatProse.CommandLine
import StatProse.Toml.Reader

/-!
# The program

Runs the command line on the files of the machine.
-/

namespace StatProse

def ReadFault.ofError : IO.Error → ReadFault
  | .noFileOrDirectory .. => .notFound
  | .inappropriateType _ 20 _ => .notDirectory
  | .inappropriateType _ 21 _ => .isDirectory
  | e => .other (toString e)

def attempt {α : Type} (call : IO α) : IO (Except ReadFault α) := do
  try return .ok (← call)
  catch e => return .error (.ofError e)

/-- The file system, seen from the working directory. The empty path leads nowhere. -/
def machineDisk : Disk IO where
  isDirectory path := do
    if path.isEmpty then return false
    ((← IO.currentDir) / path).isDir
  list path := attempt do
    let members ← ((← IO.currentDir) / path).readDir
    return members.toList.map (·.fileName)
  read path := do
    if path.isEmpty then return .error .notFound
    if ← ((← IO.currentDir) / path).isDir then return .error .isDirectory
    attempt (IO.FS.readBinFile path)

def CommandLine.Failure.report (f : CommandLine.Failure) : String :=
  match f with
  | .loading _ fault => s!"Error: {f.message}\n\nCaused by:\n    {fault.message}\n"
  | .unknownModifier _ => s!"Error: {f.message}\n"

end StatProse

open StatProse in
def main (arguments : List String) : IO UInt32 := do
  let outcome ← CommandLine.run Toml.read? machineDisk arguments
  (← IO.getStdout).putStr outcome.output
  match outcome.failure with
  | some f => (← IO.getStderr).putStr f.report
  | none =>
    if outcome.code != 0 then (← IO.getStderr).putStrLn CommandLine.usageText
  return outcome.code.toUInt32
