import TreePath.CommandLine.Arguments
import TreePath.CommandLine.Help
import TreePath.Config
import TreePath.Expression.Order
import TreePath.Load
import TreePath.Resolver.Query
import TreePath.Resolver.Structure

/-! # Running commands

What a command writes depends on its arguments and on what it reads: the configuration, and for
`resolve` the standard input or a file. A tree is loaded before the expression is read, so of two
faults that of the tree is told.

* `Environment` and `Outcome`: what a command reads, and what it leaves.
* `Command.run`: a command. It fails with the outermost message of the error, on one line unless the
  message holds breaks.
* `runArguments`: arguments, which may name no command. -/

namespace TreePath

/-- What a command can read. -/
structure Environment where
  /-- The bytes of the standard input. -/
  input : List UInt8
  /-- What stands at the path of the configuration. -/
  config : FileState
  /-- What stands at a path. -/
  file : String → FileState

/-- What a command leaves: its exit code, and what it writes to the standard output and the standard
error. -/
structure Outcome where
  code : UInt8
  output : String
  errors : String
  deriving DecidableEq, Repr

namespace Outcome

/-- A success with lines of output. -/
def success (lines : List String) : Outcome := ⟨0, textOfLines lines, ""⟩

/-- A failure with a message. -/
def failure (message : String) : Outcome := ⟨1, "", "Error: " ++ message ++ "\n"⟩

end Outcome

/-- The tree of a source. -/
def Source.load (env : Environment) : Source → Except LoadError Node
  | .input => loadInput .standard env.input
  | .file path => loadFile .standard path (env.file path)

namespace Command

/-- Shows an expression and its resolver. -/
def runParse (text : String) : Outcome :=
  match Expression.parse text with
  | .error e => .failure e.message
  | .ok e => .success [e.text, (Resolver.compile e).structureText]

/-- Shows expressions in canonical order, if all are expressions. -/
def runSort (texts : List String) : Outcome :=
  match texts.mapM Expression.parse with
  | .error e => .failure e.message
  | .ok es => .success ((Expression.sortCanonical es).map (·.text))

/-- The message that an expression selects nothing where it has to. -/
def unresolvedMessage (e : Expression) (source : Source) : String :=
  "Failed to resolve '" ++ e.text ++ "' in " ++ source.text

/-- Shows the nodes that an expression selects from a tree, and then their number. -/
def runResolve (root : Node) (source : Source) (text : String) (isStrict : Bool) : Outcome :=
  match Expression.parse text with
  | .error e => .failure e.message
  | .ok e =>
    match (Resolver.ofExpression e isStrict).resolve (.root root) with
    | .error _ => .failure (unresolvedMessage e source)
    | .ok found =>
      ⟨0, textOfLines (found.map (·.node.summary)), Nat.repr found.length ++ " match(es)\n"⟩

/-- Runs a command. Resolving is strict if the command or the configuration says so. -/
def run (env : Environment) : Command → Outcome
  | .parse text => runParse text
  | .sort texts => runSort texts
  | .resolve source text isStrict =>
    match source.load env with
    | .error e => .failure e.message
    | .ok root => runResolve root source text (isStrict || (Config.load env.config).isStrict)

/-- What a command reads its tree from. -/
def source? : Command → Option Source
  | .resolve source _ _ => some source
  | _ => none

end Command

/-- What is left where arguments name no command. -/
def Refusal.outcome : Refusal → Outcome
  | usage => ⟨2, "", helpText none⟩
  | help command => ⟨0, helpText command, ""⟩
  | version => ⟨0, versionText, ""⟩

/-- Runs arguments. -/
def runArguments (env : Environment) (args : List String) : Outcome :=
  match Command.ofArguments args with
  | .error refusal => refusal.outcome
  | .ok command => command.run env

end TreePath
