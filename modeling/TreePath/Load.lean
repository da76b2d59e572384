import TreePath.FileSystem
import TreePath.Gzip.Member
import TreePath.Tree.Document

/-! # Loading trees

A tree is loaded from a file or from the standard input. A file whose name has the extension `gz` is
decompressed, whatever it holds; the standard input is if it starts like a gzip member, whatever
comes after. Text has to be UTF-8, and YAML.

* `Reader`: what gzip members are decompressed with, and what YAML is read with; `Reader.standard` is
  the one of the program.
* `loadFile` and `loadInput`: the tree of a file and of the standard input. -/

namespace TreePath

/-- Why no tree is loaded. -/
inductive LoadError where
  /-- The text is no YAML. -/
  | notYaml
  | cannotOpen (file : String)
  | cannotRead (file : String)
  | cannotDecompress (file : String)
  /-- The standard input starts like a gzip member and is none. -/
  | cannotDecompressInput
  /-- The standard input is not UTF-8. -/
  | inputNotText
  deriving DecidableEq, Repr

def LoadError.message : LoadError → String
  | notYaml => "Failed to parse YAML"
  | cannotOpen file => "Failed to open file " ++ file
  | cannotRead file => "Failed to read file " ++ file
  | cannotDecompress file => "Failed to decompress " ++ file
  | cannotDecompressInput => "Failed to decompress stdin"
  | inputNotText => "Input is not valid UTF-8"

/-! ### Readers -/

/-- A decoder of gzip members and a reader of YAML. -/
structure Reader where
  /-- The bytes that a gzip member holds. -/
  decompress : List UInt8 → Option (List UInt8)
  /-- The tree of a YAML text. -/
  tree? : String → Option Node

/-- What the program reads with. -/
def Reader.standard : Reader := ⟨Gzip.decompress, Node.ofYaml?⟩

/-- The text that compressed bytes hold. -/
def Reader.textOfGzip? (reader : Reader) (bytes : List UInt8) : Option String :=
  (reader.decompress bytes).bind textOfBytes?

/-! ### Names -/

/-- The text behind the last dot of a name, unless the name starts with that dot. -/
def extension? (path : String) : Option String :=
  (FilePath.fileName? path).bind fun name =>
    let tail := (name.toList.reverse.takeWhile (· ≠ '.')).reverse
    if tail.length + 1 < name.toList.length then some (String.ofList tail) else none

/-- Whether a file of this name is decompressed. -/
def isGzipName (path : String) : Bool := extension? path == some "gz"

/-! ### Loading -/

section Loading

variable (reader : Reader)

/-- The text of a file. -/
def readFile (path : String) (state : FileState) : Except LoadError String :=
  if isGzipName path then
    match state with
    | .missing => .error (.cannotOpen path)
    | .directory => .error (.cannotDecompress path)
    | .file bytes =>
      match reader.textOfGzip? bytes with
      | some text => .ok text
      | none => .error (.cannotDecompress path)
  else
    match state.text? with
    | some text => .ok text
    | none => .error (.cannotRead path)

/-- The text of the standard input. -/
def readInput (bytes : List UInt8) : Except LoadError String :=
  if Gzip.magic.isPrefixOf bytes then
    match reader.textOfGzip? bytes with
    | some text => .ok text
    | none => .error .cannotDecompressInput
  else
    match textOfBytes? bytes with
    | some text => .ok text
    | none => .error .inputNotText

/-- The tree of a text. -/
def loadText (text : String) : Except LoadError Node :=
  match reader.tree? text with
  | some n => .ok n
  | none => .error .notYaml

/-- The tree of a file. -/
def loadFile (path : String) (state : FileState) : Except LoadError Node :=
  match readFile reader path state with
  | .ok text => loadText reader text
  | .error e => .error e

/-- The tree of the standard input. -/
def loadInput (bytes : List UInt8) : Except LoadError Node :=
  match readInput reader bytes with
  | .ok text => loadText reader text
  | .error e => .error e

end Loading

end TreePath
