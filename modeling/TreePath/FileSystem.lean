import TreePath.Text.Split

/-! # Files

A path is text. It is cut at its slashes into steps, which are followed from the root or from the
directory where the process is. What stands where a path leads is a file or a directory; links are
left out.

* `FilePath.steps`: the steps of a path. Empty parts and dots are none, and two dots lead up.
* `FileState`: a file with its bytes, or one of two ways to have none, and the text of bytes.
* `FileSystem`: which files and directories there are. Above everything stand directories.
* `FileSystem.stateAt`: what stands at a path, if all its steps start in directories.
* `FileSystem.makeDirectories`: makes the directories that steps lead through.
* `FileSystem.write?`: writes a file. -/

namespace TreePath

/-! ### Paths -/

/-- A step of a path. -/
inductive Step where
  /-- To the directory above. -/
  | up
  /-- To what has a name. -/
  | into (name : String)
  deriving DecidableEq, Repr

namespace FilePath

/-- The parts of a path between its slashes. -/
def parts (path : String) : List (List Char) := Text.split '/' path.toList

/-- The step of a part. -/
def stepOf? (part : List Char) : Option Step :=
  if part = [] ∨ part = ['.'] then none
  else if part = ['.', '.'] then some .up
  else some (.into (String.ofList part))

/-- The steps of a path. -/
def steps (path : String) : List Step := (parts path).filterMap stepOf?

/-- The steps to the directory that a path names something in. -/
def parentSteps (path : String) : List Step := (steps path).dropLast

/-- Whether a path starts at the root. -/
def isAbsolute (path : String) : Bool := path.toList.head? == some '/'

/-- Whether a path can only name a directory, since it ends in a slash or a dot. -/
def isDirectoryPath (path : String) : Bool :=
  (parts path).getLast?.any fun part => part = [] ∨ part = ['.']

/-- The name that a path ends in. -/
def fileName? (path : String) : Option String :=
  match (steps path).getLast? with
  | some (.into name) => some name
  | _ => none

end FilePath

/-! ### Bytes of files -/

/-- What stands at a path. -/
inductive FileState where
  | missing
  | directory
  | file (bytes : List UInt8)
  deriving DecidableEq, Repr, Inhabited

/-- The text that bytes are in UTF-8. -/
def textOfBytes? (bytes : List UInt8) : Option String := String.fromUTF8? ⟨bytes.toArray⟩

/-- The bytes of a text in UTF-8. -/
def bytesOfText (text : String) : List UInt8 := text.toUTF8.data.toList

/-- The text of a file, if there is one and it holds text. -/
def FileState.text? : FileState → Option String
  | .file bytes => textOfBytes? bytes
  | _ => none

/-! ### File systems -/

/-- Where something stands: the names that lead there from the root, the last one first. -/
abbrev Location := List String

/-- Where a step leads; the root is above itself. -/
def Step.lead (location : Location) : Step → Location
  | .up => location.tail
  | .into name => name :: location

/-- What can stand at a location. -/
inductive Entry where
  | directory
  | file (bytes : List UInt8)
  deriving DecidableEq, Repr

def FileState.ofEntry : Option Entry → FileState
  | none => .missing
  | some .directory => .directory
  | some (.file bytes) => .file bytes

/-- Files and directories, and the directory where the process is. -/
structure FileSystem where
  lookup : Location → Option Entry
  here : Location
  lookup_root : lookup [] = some .directory
  lookup_here : lookup here = some .directory
  /-- Above everything stand directories. -/
  lookup_above {name : String} {location : Location} :
    lookup (name :: location) ≠ none → lookup location = some .directory

namespace FileSystem

/-- Nothing but the root. -/
def empty : FileSystem where
  lookup := fun location => if location = [] then some .directory else none
  here := []
  lookup_root := rfl
  lookup_here := rfl
  lookup_above h := absurd rfl h

/-! ### Reading -/

/-- Where the steps of a path start. -/
def start (fs : FileSystem) (path : String) : Location :=
  if FilePath.isAbsolute path then [] else fs.here

/-- Follows steps, each of which has to start in a directory. -/
def follow? (fs : FileSystem) : Location → List Step → Option Location
  | location, [] => some location
  | location, step :: steps =>
    if fs.lookup location = some .directory then fs.follow? (step.lead location) steps else none

/-- Where a path leads. The empty path leads nowhere. -/
def locate? (fs : FileSystem) (path : String) : Option Location :=
  if path = "" then none else fs.follow? (fs.start path) (FilePath.steps path)

/-- What stands at a path. -/
def stateAt (fs : FileSystem) (path : String) : FileState :=
  let state := FileState.ofEntry ((fs.locate? path).bind fs.lookup)
  if FilePath.isDirectoryPath path && state != .directory then .missing else state

/-! ### Writing -/

/-- Puts an entry under a name in a directory, in place of nothing or a file. -/
def put (fs : FileSystem) (name : String) (location : Location) (entry : Entry)
    (hdirectory : fs.lookup location = some .directory)
    (hopen : fs.lookup (name :: location) ≠ some .directory) : FileSystem where
  lookup := fun l => if l = name :: location then some entry else fs.lookup l
  here := fs.here
  lookup_root := by
    rw [if_neg (List.cons_ne_nil name location).symm]
    exact fs.lookup_root
  lookup_here := by
    have hne : fs.here ≠ name :: location := fun h => hopen (h ▸ fs.lookup_here)
    rw [if_neg hne]
    exact fs.lookup_here
  lookup_above {n l} h := by
    have hdirectory' : fs.lookup l = some .directory := by
      by_cases heq : n :: l = name :: location
      · rw [(List.cons.inj heq).2]
        exact hdirectory
      · rw [if_neg heq] at h
        exact fs.lookup_above h
    have hne : l ≠ name :: location := fun heq => hopen (heq ▸ hdirectory')
    rw [if_neg hne]
    exact hdirectory'

/-- Makes a directory, unless something stands there or there is none to make it in. -/
def makeDirectory? (fs : FileSystem) (name : String) (location : Location) : Option FileSystem :=
  if h : fs.lookup location = some .directory ∧ fs.lookup (name :: location) = none then
    some (fs.put name location .directory h.1 (by rw [h.2]; exact (Option.some_ne_none _).symm))
  else none

/-- Makes the directories that steps lead through, from a directory on. It fails at a file, and what
was made until then stays. -/
def makeDirectories (fs : FileSystem) : Location → List Step → Bool × FileSystem
  | _, [] => (true, fs)
  | location, .up :: steps => fs.makeDirectories location.tail steps
  | location, .into name :: steps =>
    match fs.makeDirectory? name location with
    | some fs => fs.makeDirectories (name :: location) steps
    | none =>
      if fs.lookup (name :: location) = some .directory then
        fs.makeDirectories (name :: location) steps
      else (false, fs)

/-- Makes the directories on the way to what a path names. -/
def makeParents (fs : FileSystem) (path : String) : Bool × FileSystem :=
  fs.makeDirectories (fs.start path) (FilePath.parentSteps path)

/-- Writes a file, over the one that is there or anew. -/
def write? (fs : FileSystem) (path : String) (bytes : List UInt8) : Option FileSystem :=
  match fs.locate? path with
  | some (name :: location) =>
    if h : fs.lookup location = some .directory ∧ fs.lookup (name :: location) ≠ some .directory then
      if FilePath.isDirectoryPath path then none
      else some (fs.put name location (.file bytes) h.1 h.2)
    else none
  | _ => none

end FileSystem

end TreePath
