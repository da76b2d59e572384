/-! # Arguments

The arguments name a command, with flags before or after its name. A flag is a word behind two
hyphens or a letter behind one; letters may stand together. Behind an argument of two hyphens alone,
and for a single hyphen, nothing is a flag.

* `Argument.ofText`: an argument on its own.
* `readOperands`: the flags and operands of a command. A flag that the command does not know, a flag
  given twice and an operand too many are refused where they stand.
* `Command.ofArguments`: the command that arguments name. -/

namespace TreePath

/-- Where a tree comes from. -/
inductive Source where
  /-- The standard input. -/
  | input
  | file (path : String)
  deriving DecidableEq, Repr

namespace Source

/-- The operand that names the standard input. -/
def inputText : String := "-"

/-- The source that an operand names. -/
def ofText (text : String) : Source := if text = inputText then .input else .file text

/-- The operand that names a source. -/
def text : Source → String
  | input => inputText
  | file path => path

end Source

/-- A command. -/
inductive Command where
  /-- Shows an expression and its resolver. -/
  | parse (expression : String)
  /-- Shows expressions in canonical order. -/
  | sort (expressions : List String)
  /-- Shows the nodes that an expression selects. -/
  | resolve (source : Source) (expression : String) (isStrict : Bool)
  deriving DecidableEq, Repr

/-- Why arguments name no command. -/
inductive Refusal where
  /-- The arguments are wrong. -/
  | usage
  /-- They ask for help, in general or on the command of a name. -/
  | help (command : Option String)
  /-- They ask for the version. -/
  | version
  deriving DecidableEq, Repr

/-! ### Flags -/

/-- A flag. -/
inductive Flag where
  | verbose
  | strict
  | help
  | version
  deriving DecidableEq, Repr

namespace Flag

/-- The flag of a word. -/
def ofWord? (word : String) : Option Flag :=
  match word with
  | "verbose" => some verbose
  | "strict" => some strict
  | "help" => some help
  | "version" => some version
  | _ => none

/-- The flag of a letter. -/
def ofLetter? (c : Char) : Option Flag :=
  match c with
  | 'v' => some verbose
  | 's' => some strict
  | 'h' => some help
  | 'V' => some version
  | _ => none

end Flag

/-- An argument on its own. -/
inductive Argument where
  /-- Two hyphens alone. -/
  | separator
  /-- Flags, some of which may not exist. -/
  | flags (flags : List (Option Flag))
  | operand (text : String)
  deriving DecidableEq, Repr

/-- An argument. -/
def Argument.ofText (text : String) : Argument :=
  match text.toList with
  | ['-', '-'] => .separator
  | '-' :: '-' :: word => .flags [Flag.ofWord? (String.ofList word)]
  | '-' :: c :: cs => .flags ((c :: cs).map Flag.ofLetter?)
  | _ => .operand text

/-- Adds a flag to those seen, for a command of a name with some flags. -/
def addFlag (command : Option String) (allowed seen : List Flag) :
    Option Flag → Except Refusal (List Flag)
  | none => .error .usage
  | some f =>
    if f ∉ allowed then .error .usage
    else match f with
      | .help => .error (.help command)
      | .version => .error .version
      | f => if f ∈ seen then .error .usage else .ok (seen ++ [f])

/-- Adds flags in turn. -/
def addFlags (command : Option String) (allowed seen : List Flag) (flags : List (Option Flag)) :
    Except Refusal (List Flag) :=
  flags.foldlM (addFlag command allowed) seen

/-! ### Operands -/

/-- A command's name, its flags, and the most operands it takes, if there is a limit. -/
structure Signature where
  name : String
  allowed : List Flag
  limit : Option Nat
  deriving DecidableEq, Repr

namespace Signature

def parse : Signature := ⟨"parse", [.verbose, .help], some 1⟩

def sort : Signature := ⟨"sort", [.verbose, .help], none⟩

def resolve : Signature := ⟨"resolve", [.strict, .verbose, .help], some 2⟩

/-- Whether so many operands are too many. -/
def isExceeded (s : Signature) (count : Nat) : Bool := s.limit.any (· < count)

end Signature

/-- The flags and the operands of a command. -/
def readOperands (s : Signature) (seen : List Flag) (operands : List String) :
    List String → Except Refusal (List Flag × List String)
  | [] => .ok (seen, operands)
  | arg :: args =>
    match Argument.ofText arg with
    | .separator =>
      if s.isExceeded (operands.length + args.length) then .error .usage
      else .ok (seen, operands ++ args)
    | .flags flags =>
      match addFlags (some s.name) s.allowed seen flags with
      | .error e => .error e
      | .ok seen => readOperands s seen operands args
    | .operand text =>
      if s.isExceeded (operands.length + 1) then .error .usage
      else readOperands s seen (operands ++ [text]) args

/-! ### Commands -/

namespace Command

/-- The names of the commands. -/
def names : List String := [Signature.parse.name, Signature.sort.name, Signature.resolve.name]

/-- The command of a name, with the arguments behind it. -/
def ofName (name : String) (args : List String) : Except Refusal Command :=
  if name = Signature.parse.name then
    match readOperands .parse [] [] args with
    | .error e => .error e
    | .ok (_, [expression]) => .ok (.parse expression)
    | .ok _ => .error .usage
  else if name = Signature.sort.name then
    match readOperands .sort [] [] args with
    | .error e => .error e
    | .ok (_, []) => .error .usage
    | .ok (_, expressions) => .ok (.sort expressions)
  else if name = Signature.resolve.name then
    match readOperands .resolve [] [] args with
    | .error e => .error e
    | .ok (flags, [source, expression]) =>
      .ok (.resolve (.ofText source) expression (.strict ∈ flags))
    | .ok _ => .error .usage
  else if name = "help" then
    match args with
    | [] => .error (.help none)
    | [topic] => .error (if topic ∈ names then .help (some topic) else .usage)
    | _ => .error .usage
  else .error .usage

/-- The command that arguments name, after some flags. -/
def ofArgumentsAfter (seen : List Flag) : List String → Except Refusal Command
  | [] => .error .usage
  | arg :: args =>
    match Argument.ofText arg with
    | .separator => .error .usage
    | .flags flags =>
      match addFlags none [.verbose, .help, .version] seen flags with
      | .error e => .error e
      | .ok seen => ofArgumentsAfter seen args
    | .operand name => ofName name args

/-- The command that arguments name. -/
def ofArguments (args : List String) : Except Refusal Command := ofArgumentsAfter [] args

end Command

end TreePath
