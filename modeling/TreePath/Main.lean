import TreePath.CommandLine.Run

/-! # The program

Reads the arguments, the configuration in the home directory and what the arguments name as the
source of a tree, and writes the outcome. -/

namespace TreePath

/-- What stands at a path. -/
def readState (path : String) : IO FileState := do
  match ← (IO.FS.Handle.mk path .read).toBaseIO with
  | .error _ => return .missing
  | .ok handle =>
    match ← handle.readBinToEnd.toBaseIO with
    | .error _ => return .directory
    | .ok bytes => return .file bytes.toList

/-- What stands at the path of the configuration. -/
def readConfig : IO FileState := do
  match ← IO.getEnv "HOME" with
  | some home => readState (home ++ "/" ++ Config.homePath)
  | none => return .missing

/-- The bytes of the standard input. -/
partial def readInputFrom (stream : IO.FS.Stream) (bytes : ByteArray) : IO ByteArray := do
  let more ← stream.read 65536
  if more.isEmpty then return bytes else readInputFrom stream (bytes ++ more)

/-- Reads what arguments need. -/
def readEnvironment (args : List String) : IO Environment := do
  let config ← readConfig
  match (Command.ofArguments args).toOption.bind Command.source? with
  | some .input => do
    let bytes ← readInputFrom (← IO.getStdin) .empty
    return ⟨bytes.toList, config, fun _ => .missing⟩
  | some (.file path) => do
    let state ← readState path
    return ⟨[], config, fun _ => state⟩
  | none => return ⟨[], config, fun _ => .missing⟩

end TreePath

/-- Runs the arguments. -/
def main (args : List String) : IO UInt32 := do
  let outcome := TreePath.runArguments (← TreePath.readEnvironment args) args
  (← IO.getStdout).putStr outcome.output
  (← IO.getStderr).putStr outcome.errors
  return outcome.code.toUInt32
