/-! # Bounded stores that forget what was used least recently

A store holds at most `capacity` entries, listed from the most to the least recently used. Putting
an entry and finding one are uses of its key; an entry that does not fit any more is evicted from
the end of the list. The store counts its hits, misses and evictions.

* `Lru.put`, `Lru.get`, `Lru.getOrInsert`, `Lru.contains`, `Lru.clear`: the operations. Only the
  lookups `get` and `getOrInsert` count as hits or misses, and `clear` keeps the counts.
* `Lru.Op` and `Lru.step`: the operations as data, so that a run of them is a list, with their
  answers.
* `Stats.hitRatio`: the share of lookups that found their key. -/

namespace TreePath

/-- Counts of a store since it was made. -/
structure Stats where
  hits : Nat
  misses : Nat
  evictions : Nat
  deriving DecidableEq, Repr, Inhabited

namespace Stats

def zero : Stats := ⟨0, 0, 0⟩

def hit (s : Stats) : Stats := ⟨s.hits + 1, s.misses, s.evictions⟩

def miss (s : Stats) : Stats := ⟨s.hits, s.misses + 1, s.evictions⟩

def evict (s : Stats) (n : Nat) : Stats := ⟨s.hits, s.misses, s.evictions + n⟩

/-- The share of lookups that were hits, and zero before the first lookup. -/
def hitRatio (s : Stats) : Float :=
  let total := s.hits + s.misses
  if total = 0 then 0 else Float.ofNat s.hits / Float.ofNat total

end Stats

/-- A bounded store; `entries` is in order of use, the most recent first. -/
structure Lru (κ α : Type) where
  capacity : Nat
  entries : List (κ × α)
  stats : Stats
  deriving DecidableEq, Repr

namespace Lru

variable {κ α : Type} [DecidableEq κ]

/-- The empty store of a capacity. -/
def new (capacity : Nat) : Lru κ α := ⟨capacity, [], .zero⟩

def size (c : Lru κ α) : Nat := c.entries.length

def isEmpty (c : Lru κ α) : Bool := c.entries.isEmpty

/-- The keys, the most recently used first. -/
def keys (c : Lru κ α) : List κ := c.entries.map (·.1)

/-- The value that a list of entries holds for a key. -/
def find? (k : κ) : List (κ × α) → Option α
  | [] => none
  | e :: es => if e.1 = k then some e.2 else find? k es

/-- The entries with other keys. -/
def without (k : κ) (es : List (κ × α)) : List (κ × α) := es.filter fun e => e.1 ≠ k

/-- Whether the key is stored; this is no use of it. -/
def contains (c : Lru κ α) (k : κ) : Bool := (find? k c.entries).isSome

/-- Drops entries beyond the capacity from the end, and counts them. -/
def evictOverflow (c : Lru κ α) : Lru κ α :=
  ⟨c.capacity, c.entries.take c.capacity, c.stats.evict (c.entries.length - c.capacity)⟩

/-- Puts an entry in front, in the place of any with its key. -/
def put (c : Lru κ α) (k : κ) (v : α) : Lru κ α :=
  evictOverflow ⟨c.capacity, (k, v) :: without k c.entries, c.stats⟩

/-- Looks a key up; a hit is a use of it. -/
def get (c : Lru κ α) (k : κ) : Option α × Lru κ α :=
  match find? k c.entries with
  | some v => (some v, ⟨c.capacity, (k, v) :: without k c.entries, c.stats.hit⟩)
  | none => (none, ⟨c.capacity, c.entries, c.stats.miss⟩)

/-- The stored value of a key, or else `v`, which is then put in front. Tells whether `v` was
taken. -/
def getOrInsert (c : Lru κ α) (k : κ) (v : α) : (α × Bool) × Lru κ α :=
  match find? k c.entries with
  | some w => ((w, false), ⟨c.capacity, (k, w) :: without k c.entries, c.stats.hit⟩)
  | none => ((v, true), evictOverflow ⟨c.capacity, (k, v) :: c.entries, c.stats.miss⟩)

/-- Forgets every entry and keeps the counts. -/
def clear (c : Lru κ α) : Lru κ α := ⟨c.capacity, [], c.stats⟩

/-! ### Runs -/

/-- An operation on a store. -/
inductive Op (κ α : Type) where
  | put (key : κ) (value : α)
  | get (key : κ)
  | getOrInsert (key : κ) (value : α)
  | contains (key : κ)
  | clear
  deriving DecidableEq, Repr

/-- The answer to an operation. -/
inductive Answer (α : Type) where
  /-- Nothing to tell. -/
  | done
  /-- The value found, if any. -/
  | found (value : Option α)
  /-- The value stored or made, and whether it was made. -/
  | obtained (value : α) (created : Bool)
  /-- Whether the key is stored. -/
  | present (answer : Bool)
  deriving DecidableEq, Repr

/-- Performs an operation. -/
def step (c : Lru κ α) : Op κ α → Answer α × Lru κ α
  | .put k v => (.done, c.put k v)
  | .get k => let (v, c) := c.get k; (.found v, c)
  | .getOrInsert k v => let ((w, created), c) := c.getOrInsert k v; (.obtained w created, c)
  | .contains k => (.present (c.contains k), c)
  | .clear => (.done, c.clear)

/-- Performs operations in turn. -/
def run (c : Lru κ α) (ops : List (Op κ α)) : Lru κ α :=
  ops.foldl (fun c op => (c.step op).2) c

/-- The answers to operations performed in turn. -/
def answers (c : Lru κ α) : List (Op κ α) → List (Answer α)
  | [] => []
  | op :: ops => (c.step op).1 :: answers (c.step op).2 ops

end Lru

end TreePath
