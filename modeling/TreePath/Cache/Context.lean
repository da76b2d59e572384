import TreePath.Expression.Basic

/-! # Contexts

A context keeps a state for each of some paths. It is a map from expressions to states, kept as a
list in increasing order of the texts of the expressions, by code points.

* `Context.find?`, `Context.insert`, `Context.remove`, `Context.getOrInsert`: the operations.
* `Context.Op` and `Context.step`: the operations as data, with their answers. -/

namespace TreePath

/-- States by path text, in increasing order of the texts. -/
structure Context (σ : Type) where
  entries : List (String × σ)
  deriving DecidableEq, Repr

namespace Context

variable {σ : Type}

/-- The context without states. -/
def empty : Context σ := ⟨[]⟩

def size (c : Context σ) : Nat := c.entries.length

def isEmpty (c : Context σ) : Bool := c.entries.isEmpty

/-- The texts of the paths that have a state, in order. -/
def paths (c : Context σ) : List String := c.entries.map (·.1)

/-- The state that a list of entries holds for a text. -/
def lookup (key : String) : List (String × σ) → Option σ
  | [] => none
  | e :: es => if e.1 = key then some e.2 else lookup key es

/-- Sets the state of a text in an ordered list. -/
def set (key : String) (state : σ) : List (String × σ) → List (String × σ)
  | [] => [(key, state)]
  | e :: es =>
    if e.1 = key then (key, state) :: es
    else if key < e.1 then (key, state) :: e :: es
    else e :: set key state es

/-- The state of a path. -/
def find? (c : Context σ) (path : Expression) : Option σ := lookup path.text c.entries

/-- Sets the state of a path. -/
def insert (c : Context σ) (path : Expression) (state : σ) : Context σ :=
  ⟨set path.text state c.entries⟩

/-- Forgets the state of a path. -/
def remove (c : Context σ) (path : Expression) : Context σ :=
  ⟨c.entries.filter fun e => e.1 ≠ path.text⟩

/-- The state of a path, or else `state`, which is then set. Tells whether `state` was taken. -/
def getOrInsert (c : Context σ) (path : Expression) (state : σ) : (σ × Bool) × Context σ :=
  match c.find? path with
  | some s => ((s, false), c)
  | none => ((state, true), c.insert path state)

/-! ### Runs -/

/-- An operation on a context. -/
inductive Op (σ : Type) where
  | insert (path : Expression) (state : σ)
  | get (path : Expression)
  | remove (path : Expression)
  | getOrInsert (path : Expression) (state : σ)
  | paths
  deriving DecidableEq, Repr

/-- The answer to an operation. -/
inductive Answer (σ : Type) where
  /-- The state before the operation, if there was one. -/
  | state (state : Option σ)
  /-- The state stored or made, and whether it was made. -/
  | obtained (state : σ) (created : Bool)
  /-- The texts of the paths. -/
  | paths (texts : List String)
  deriving DecidableEq, Repr

/-- Performs an operation. -/
def step (c : Context σ) : Op σ → Answer σ × Context σ
  | .insert p s => (.state (c.find? p), c.insert p s)
  | .get p => (.state (c.find? p), c)
  | .remove p => (.state (c.find? p), c.remove p)
  | .getOrInsert p s => let ((t, created), c) := c.getOrInsert p s; (.obtained t created, c)
  | .paths => (.paths c.paths, c)

/-- Performs operations in turn. -/
def run (c : Context σ) (ops : List (Op σ)) : Context σ :=
  ops.foldl (fun c op => (c.step op).2) c

/-- The answers to operations performed in turn. -/
def answers (c : Context σ) : List (Op σ) → List (Answer σ)
  | [] => []
  | op :: ops => (c.step op).1 :: answers (c.step op).2 ops

end Context

end TreePath
