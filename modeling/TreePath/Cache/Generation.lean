import TreePath.Cache.Context
import TreePath.Cache.Lru
import TreePath.Cache.PropertyKey

/-! # The cache of a generation

Two bounded stores: artifacts by property key, and contexts by root key. A context is an object with
an identity of its own: it lives on for those who hold it when its root is evicted or the cache is
cleared, and a context made later for that root is another one. So the cache numbers the contexts
that it makes, stores their numbers, and keeps all of them in `contexts`, in order of their making.

* `Generation.putArtifact`, `Generation.getArtifact`: the store of artifacts.
* `Generation.retrieve`: the number of the context of a root, made if there is none.
* `Generation.Op` and `Generation.step`: the operations as data, with their answers. -/

namespace TreePath

/-- How many artifacts are kept unless told otherwise. -/
def defaultArtifactCapacity : Nat := 2048

/-- How many contexts are kept unless told otherwise. -/
def defaultContextCapacity : Nat := 1000

/-- The cache: the two stores, and every context made so far. -/
structure Generation (α σ : Type) where
  artifacts : Lru PropertyKey α
  roots : Lru RootKey Nat
  contexts : List (Context σ)
  deriving DecidableEq, Repr

namespace Generation

variable {α σ : Type}

/-- The empty cache of two capacities. -/
def new (artifactCapacity contextCapacity : Nat) : Generation α σ :=
  ⟨.new artifactCapacity, .new contextCapacity, []⟩

/-- Looks an artifact up. -/
def getArtifact (g : Generation α σ) (k : PropertyKey) : Option α × Generation α σ :=
  let (v, artifacts) := g.artifacts.get k.identity
  (v, ⟨artifacts, g.roots, g.contexts⟩)

/-- Stores an artifact. -/
def putArtifact (g : Generation α σ) (k : PropertyKey) (v : α) : Generation α σ :=
  ⟨g.artifacts.put k.identity v, g.roots, g.contexts⟩

/-- The number of the context of a root; if none is stored, that of a new empty context. -/
def retrieve (g : Generation α σ) (k : RootKey) : Nat × Generation α σ :=
  let ((id, created), roots) := g.roots.getOrInsert k.identity g.contexts.length
  (id, ⟨g.artifacts, roots, if created then g.contexts ++ [.empty] else g.contexts⟩)

/-- The context of a number. -/
def context (g : Generation α σ) (id : Nat) : Context σ := g.contexts.getD id .empty

/-- Performs an operation on the context of a number. -/
def within (g : Generation α σ) (id : Nat) (op : Context.Op σ) :
    Context.Answer σ × Generation α σ :=
  let (answer, c) := (g.context id).step op
  (answer, ⟨g.artifacts, g.roots, g.contexts.set id c⟩)

/-- Forgets the entries of both stores; contexts stay as they are for those who hold them. -/
def clear (g : Generation α σ) : Generation α σ := ⟨g.artifacts.clear, g.roots.clear, g.contexts⟩

/-! ### Runs -/

/-- An operation on the cache. -/
inductive Op (α σ : Type) where
  | put (key : PropertyKey) (value : α)
  | get (key : PropertyKey)
  | retrieve (root : RootKey)
  /-- An operation on the context of a number. -/
  | within (id : Nat) (op : Context.Op σ)
  | clear
  deriving DecidableEq, Repr

/-- The answer to an operation. -/
inductive Answer (α σ : Type) where
  /-- Nothing to tell. -/
  | done
  /-- The artifact found, if any. -/
  | artifact (value : Option α)
  /-- The number of the context. -/
  | context (id : Nat)
  /-- The answer of the context. -/
  | within (answer : Context.Answer σ)
  deriving DecidableEq, Repr

/-- Performs an operation. -/
def step (g : Generation α σ) : Op α σ → Answer α σ × Generation α σ
  | .put k v => (.done, g.putArtifact k v)
  | .get k => let (v, g) := g.getArtifact k; (.artifact v, g)
  | .retrieve k => let (id, g) := g.retrieve k; (.context id, g)
  | .within id op => let (answer, g) := g.within id op; (.within answer, g)
  | .clear => (.done, g.clear)

/-- Performs operations in turn. -/
def run (g : Generation α σ) (ops : List (Op α σ)) : Generation α σ :=
  ops.foldl (fun g op => (g.step op).2) g

/-- The answers to operations performed in turn. -/
def answers (g : Generation α σ) : List (Op α σ) → List (Answer α σ)
  | [] => []
  | op :: ops => (g.step op).1 :: answers (g.step op).2 ops

end Generation

end TreePath
