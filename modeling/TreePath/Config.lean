import TreePath.Cache.Generation
import TreePath.FileSystem
import TreePath.Toml.Document

/-! # Configurations

A configuration holds the capacities of the caches and whether resolving is strict. It is kept in a
file as a TOML document with a line for each of the three.

* `Config.load`: the configuration of a file. A key that is not there has its default, keys of other
  names do not count, and a file that cannot be read has all defaults.
* `Config.save`: makes the directories on the way to the file and writes it, unless a capacity is no
  TOML integer. -/

namespace TreePath

/-- A configuration. -/
structure Config where
  artifactCapacity : Nat := defaultArtifactCapacity
  contextCapacity : Nat := defaultContextCapacity
  isStrict : Bool := false
  deriving DecidableEq, Repr, Inhabited

namespace Config

/-! ### Keys -/

def artifactKey : String := "artifact_cache_capacity"

def contextKey : String := "context_cache_capacity"

def strictKey : String := "strict_mode"

/-- Where the file stands in the home directory. -/
def homePath : String := ".config/fixturepath/config.toml"

/-! ### Loading -/

/-- The capacity of a key, or its default; there is none if the value is of another kind. -/
def capacity? (entries : Toml.Entries) (key : String) (default : Nat) : Option Nat :=
  match entries.get? key with
  | none => some default
  | some (.integer n) => if 0 ≤ n then some n.toNat else none
  | some _ => none

/-- The truth value of a key, or false; there is none if the value is of another kind. -/
def switch? (entries : Toml.Entries) (key : String) : Option Bool :=
  match entries.get? key with
  | none => some false
  | some (.boolean b) => some b
  | some _ => none

/-- The configuration of a table. -/
def ofEntries? (entries : Toml.Entries) : Option Config :=
  match capacity? entries artifactKey defaultArtifactCapacity,
    capacity? entries contextKey defaultContextCapacity, switch? entries strictKey with
  | some artifacts, some contexts, some isStrict => some ⟨artifacts, contexts, isStrict⟩
  | _, _, _ => none

/-- The configuration of a document. -/
def ofText? (text : String) : Option Config := (Toml.Entries.ofText? text).bind ofEntries?

/-- The configuration of a file. -/
def load (state : FileState) : Config := (state.text?.bind ofText?).getD {}

/-- The configuration of the file at a path. -/
def loadFrom (fs : FileSystem) (path : String) : Config := load (fs.stateAt path)

/-! ### Saving -/

/-- Whether both capacities are integers of TOML. -/
def fits (c : Config) : Bool :=
  c.artifactCapacity < Toml.integerBound && c.contextCapacity < Toml.integerBound

/-- The document of a configuration. -/
def text (c : Config) : String :=
  artifactKey ++ " = " ++ Nat.repr c.artifactCapacity ++ "\n" ++
    contextKey ++ " = " ++ Nat.repr c.contextCapacity ++ "\n" ++
    strictKey ++ " = " ++ (if c.isStrict then "true" else "false") ++ "\n"

/-- Why a configuration is not saved. -/
inductive SaveError where
  /-- The directory of the file cannot be made. -/
  | noDirectory
  /-- A capacity is larger than the largest integer. -/
  | tooLarge
  /-- A directory stands at the path, or the path names no file. -/
  | notWritten
  deriving DecidableEq, Repr

/-- Saves a configuration at a path. The directories on the way are made first, and stay even if the
file is not written. -/
def save (c : Config) (fs : FileSystem) (path : String) : Except SaveError Unit × FileSystem :=
  match fs.makeParents path with
  | (false, fs) => (.error .noDirectory, fs)
  | (true, fs) =>
    if !c.fits then (.error .tooLarge, fs)
    else match fs.write? path (bytesOfText c.text) with
      | some fs => (.ok (), fs)
      | none => (.error .notWritten, fs)

/-! ### Use -/

/-- The empty cache of a configuration. -/
def generation {α σ : Type} (c : Config) : Generation α σ :=
  .new c.artifactCapacity c.contextCapacity

end Config

end TreePath
