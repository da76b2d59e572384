import TreePath.Proofs.Cache.Inclusion
import Mathlib.Algebra.Ring.Nat

/-! # The accounts of a store

The counts of a store explain its entries: whatever was added to it is still there, was evicted, or
was dropped when it was cleared. A key is added by a `put` or a `getOrInsert` that finds it absent.

* `Lru.finds`, `Lru.lacks`, `Lru.adds`, `Lru.drops`: what an operation meets in the store that it is
  performed on.
* `Lru.Accounts`: the counts and the size after an operation, from those before it.
* `Lru.Step.accounts`: every operation on a valid store accounts for its entries.
* `Lru.visits`: the operations of a run, each with the store that it is performed on.
* `Lru.run_accounts`: the counts after a run are the numbers of such operations in it. -/

namespace TreePath.Lru

variable {κ α : Type} [DecidableEq κ]

/-! ### One operation -/

/-- The key that an operation looks up. -/
def Op.lookup? : Op κ α → Option κ
  | .get k => some k
  | .getOrInsert k _ => some k
  | _ => none

/-- The key that an operation adds if it is absent. -/
def Op.stores? : Op κ α → Option κ
  | .put k _ => some k
  | .getOrInsert k _ => some k
  | _ => none

/-- The operation looks up a key that is stored. -/
def finds (c : Lru κ α) (op : Op κ α) : Bool := op.lookup?.any fun k => decide (k ∈ c.keys)

/-- The operation looks up a key that is absent. -/
def lacks (c : Lru κ α) (op : Op κ α) : Bool := op.lookup?.any fun k => decide (k ∉ c.keys)

/-- The operation stores a key that was absent. -/
def adds (c : Lru κ α) (op : Op κ α) : Bool := op.stores?.any fun k => decide (k ∉ c.keys)

/-- The number of entries that the operation clears away. -/
def drops (c : Lru κ α) (op : Op κ α) : Nat := if op.isClear then c.size else 0

/-- Whether a value was made for the answer. -/
def Answer.isMade : Answer α → Bool
  | .obtained _ created => created
  | _ => false

/-- **The account of an operation** on `c` that answers `a` and leaves `d` behind. -/
structure Accounts (c : Lru κ α) (op : Op κ α) (a : Answer α) (d : Lru κ α) : Prop where
  hits_eq : d.stats.hits = c.stats.hits + (c.finds op).toNat
  misses_eq : d.stats.misses = c.stats.misses + (c.lacks op).toNat
  isMade_iff : a.isMade ↔ ∃ k v, op = .getOrInsert k v ∧ k ∉ c.keys
  evictions_ge : c.stats.evictions ≤ d.stats.evictions
  /-- One entry is evicted at most, and none unless a key is added. -/
  evictions_le : d.stats.evictions ≤ c.stats.evictions + (c.adds op).toNat
  balance : c.size + (c.adds op).toNat + c.stats.evictions =
    d.size + d.stats.evictions + c.drops op

theorem length_without_add_one {c : Lru κ α} (hc : c.IsValid) (k : κ) :
    (without k c.entries).length + 1 = c.size + (decide (k ∉ c.keys)).toNat := by
  by_cases hk : k ∈ c.keys
  · have hlt : (without k c.entries).length < c.size := length_without_lt hk
    have hge := length_le_length_filter_ne (k := k) hc.nodup
    rw [← length_without, ← size_eq_length_keys] at hge
    rw [decide_eq_false (not_not_intro hk), Bool.toNat_false]
    omega
  · rw [without_eq_self hk, decide_eq_true hk]
    rfl

section Use
variable {c : Lru κ α} (hc : c.IsValid) (k : κ)
include hc

/-- A use of a key overflows by one entry at most, and only if the key was absent. -/
theorem overflow_le : (without k c.entries).length + 1 - c.capacity ≤ (decide (k ∉ c.keys)).toNat := by
  have hlength := length_without_add_one hc k
  have hsize := hc.size_le
  omega

theorem length_used_add_overflow (v : α) :
    (used c.capacity k v c.entries).length + ((without k c.entries).length + 1 - c.capacity) =
      c.size + (decide (k ∉ c.keys)).toNat := by
  have hlength := length_without_add_one hc k
  rw [used, List.length_take, List.length_cons]
  omega

theorem length_used_of_mem (hk : k ∈ c.keys) (v : α) :
    (used c.capacity k v c.entries).length = c.size := by
  have hlength := length_used_add_overflow hc k v
  have hover := overflow_le hc k
  rw [decide_eq_false (not_not_intro hk), Bool.toNat_false] at hlength hover
  omega

end Use

/-- A lookup that finds its key only counts as a hit and moves the entry to the front. -/
theorem accounts_hit {c : Lru κ α} (hc : c.IsValid) {op : Op κ α} {k : κ}
    (hlookup : op.lookup? = some k) (hk : k ∈ c.keys)
    (hstores : op.stores? = none ∨ op.stores? = some k) (hclear : op.isClear = false) {a : Answer α}
    (hmade : a.isMade = false) (v : α) :
    Accounts c op a ⟨c.capacity, used c.capacity k v c.entries, c.stats.hit⟩ := by
  have hfinds : c.finds op = true := by rw [finds, hlookup]; exact decide_eq_true hk
  have hlacks : c.lacks op = false := by
    rw [lacks, hlookup]
    exact decide_eq_false (not_not_intro hk)
  have hadds : c.adds op = false := by
    rcases hstores with h | h
    · rw [adds, h]; rfl
    · rw [adds, h]; exact decide_eq_false (not_not_intro hk)
  have hdrops : c.drops op = 0 := by rw [drops, hclear]; rfl
  have hlength : (used c.capacity k v c.entries).length = c.size := length_used_of_mem hc k hk v
  refine ⟨by rw [hfinds]; rfl, by rw [hlacks]; rfl, ?_, Nat.le_refl _, Nat.le_add_right _ _, ?_⟩
  · rw [hmade]
    refine iff_of_false Bool.false_ne_true ?_
    rintro ⟨l, w, rfl, hl⟩
    cases hlookup
    exact hl hk
  · rw [hadds, hdrops]
    show c.size + 0 + c.stats.evictions = (used c.capacity k v c.entries).length + c.stats.evictions + 0
    omega

/-- **Every operation accounts for its entries.** -/
theorem Step.accounts {c d : Lru κ α} {op : Op κ α} {a : Answer α} (hc : c.IsValid)
    (h : Step c op a d) : Accounts c op a d := by
  cases h with
  | put k v =>
    have hlength := length_used_add_overflow hc k v
    refine ⟨rfl, rfl, by simp [Answer.isMade], Nat.le_add_right _ _,
      Nat.add_le_add_left (overflow_le hc k) _, ?_⟩
    simp only [size, adds, drops, Op.stores?, Op.isClear, Stats.evict, Option.any_some] at hlength ⊢
    simp only [Bool.false_eq_true, if_false]
    omega
  | @getHit k v hm => exact accounts_hit hc rfl (mem_keysOf hm) (.inl rfl) rfl rfl v
  | @getMiss k hk =>
    have hfinds : c.finds (.get k) = false := decide_eq_false hk
    have hlacks : c.lacks (.get k) = true := decide_eq_true hk
    exact ⟨by rw [hfinds]; rfl, by rw [hlacks]; rfl, by simp [Answer.isMade], Nat.le_refl _,
      Nat.le_refl _, rfl⟩
  | @held k v w hm => exact accounts_hit hc rfl (mem_keysOf hm) (.inr rfl) rfl rfl v
  | @made k v hk =>
    have hfinds : c.finds (.getOrInsert k v) = false := decide_eq_false hk
    have hlacks : c.lacks (.getOrInsert k v) = true := decide_eq_true hk
    have hover := overflow_le hc k
    have hlength := length_used_add_overflow hc k v
    rw [without_eq_self hk] at hover hlength
    refine ⟨by rw [hfinds]; rfl, by rw [hlacks]; rfl, by simp [Answer.isMade, hk],
      Nat.le_add_right _ _, Nat.add_le_add_left hover _, ?_⟩
    simp only [size, adds, drops, Op.stores?, Op.isClear, Stats.evict, Stats.miss, Option.any_some]
      at hlength ⊢
    simp only [Bool.false_eq_true, if_false]
    omega
  | contains k =>
    exact ⟨rfl, rfl, by simp [Answer.isMade], Nat.le_refl _, Nat.le_refl _, rfl⟩
  | clear =>
    refine ⟨rfl, rfl, by simp [Answer.isMade], Nat.le_refl _, Nat.le_refl _, ?_⟩
    show c.size + 0 + c.stats.evictions = 0 + c.stats.evictions + c.size
    omega

/-! ### Runs -/

/-- The operations of a run, each with the store that it is performed on. -/
def visits (c : Lru κ α) : List (Op κ α) → List (Lru κ α × Op κ α)
  | [] => []
  | op :: ops => (c, op) :: visits (c.step op).2 ops

theorem map_visits : ∀ (c : Lru κ α) (ops : List (Op κ α)), (c.visits ops).map (·.2) = ops
  | _, [] => rfl
  | c, op :: ops => congrArg (op :: ·) (map_visits (c.step op).2 ops)

theorem getElem?_visits : ∀ (c : Lru κ α) (ops : List (Op κ α)) (i : Nat),
    (c.visits ops)[i]? = ops[i]?.map fun op => (c.run (ops.take i), op)
  | _, [], _ => rfl
  | _, _ :: _, 0 => rfl
  | c, op :: ops, i + 1 => getElem?_visits (c.step op).2 ops i

theorem countP_cons_eq {β : Type} (p : β → Bool) (x : β) (xs : List β) :
    (x :: xs).countP p = (p x).toNat + xs.countP p := by
  rw [List.countP_cons]
  rcases p x with _ | _
  · simp
  · simp [Nat.add_comm]

/-- What each operation accounts for, runs account for. -/
theorem IsValid.run_balance : ∀ {c : Lru κ α} (ops : List (Op κ α)), c.IsValid →
    (c.run ops).stats.hits = c.stats.hits + (c.visits ops).countP (fun v => v.1.finds v.2) ∧
    (c.run ops).stats.misses = c.stats.misses + (c.visits ops).countP (fun v => v.1.lacks v.2) ∧
    c.size + (c.visits ops).countP (fun v => v.1.adds v.2) + c.stats.evictions =
      (c.run ops).size + (c.run ops).stats.evictions +
        ((c.visits ops).map fun v => v.1.drops v.2).sum
  | c, [], _ => ⟨rfl, rfl, rfl⟩
  | c, op :: ops, hc => by
    have hstep := step_spec hc op
    obtain ⟨hhits, hmisses, -, -, -, hbalance⟩ := hstep.accounts hc
    obtain ⟨hhits', hmisses', hbalance'⟩ := (hstep.isValid hc).run_balance ops
    have hrun : c.run (op :: ops) = (c.step op).2.run ops := rfl
    simp only [hrun, visits, countP_cons_eq, List.map_cons, List.sum_cons]
    refine ⟨?_, ?_, ?_⟩ <;> omega

/-- Lookups either find their key or lack it. -/
theorem countP_finds_add_countP_lacks (c : Lru κ α) (ops : List (Op κ α)) :
    (c.visits ops).countP (fun v => v.1.finds v.2) + (c.visits ops).countP (fun v => v.1.lacks v.2) =
      ops.countP fun op => op.lookup?.isSome := by
  induction ops generalizing c with
  | nil => rfl
  | cons op ops ih =>
    have hone : (c.finds op).toNat + (c.lacks op).toNat = op.lookup?.isSome.toNat := by
      unfold finds lacks
      rcases op.lookup? with _ | k
      · rfl
      · by_cases hk : k ∈ c.keys <;> simp [hk]
    have hrest := ih (c.step op).2
    simp only [visits, countP_cons_eq]
    omega

/-- **The counts account for every entry**, in every run of every store. The hits and the misses are
the lookups of keys that were stored or absent just before, and together all lookups. The keys that
were added are as many as the entries evicted, those still there, and those there at the moments of
clearing. No count exceeds the number of operations. On any store of a run, an operation makes a
value exactly if it asks for one and its key is absent, and evicts at most one entry, and none unless
it adds a key. -/
theorem run_accounts (capacity : Nat) (ops : List (Op κ α)) :
    let start : Lru κ α := new capacity
    let c := start.run ops
    let visits := start.visits ops
    (∀ i, visits[i]? = ops[i]?.map fun op => (start.run (ops.take i), op)) ∧
    (c.stats.hits = visits.countP (fun v => v.1.finds v.2) ∧
      c.stats.misses = visits.countP (fun v => v.1.lacks v.2) ∧
      c.stats.hits + c.stats.misses = ops.countP fun op => op.lookup?.isSome) ∧
    visits.countP (fun v => v.1.adds v.2) =
      c.stats.evictions + c.size + (visits.map fun v => v.1.drops v.2).sum ∧
    (c.stats.hits + c.stats.misses ≤ ops.length ∧ c.stats.evictions ≤ ops.length) ∧
    ∀ op, Accounts c op (c.step op).1 (c.step op).2 := by
  intro start c visits
  have hstart : start.IsValid := isValid_new capacity
  obtain ⟨hhits, hmisses, hbalance⟩ := hstart.run_balance ops
  have hlookups := countP_finds_add_countP_lacks start ops
  -- The new store is empty and has counted nothing.
  have hhits' : c.stats.hits = visits.countP fun v => v.1.finds v.2 := hhits.trans (Nat.zero_add _)
  have hmisses' : c.stats.misses = visits.countP fun v => v.1.lacks v.2 :=
    hmisses.trans (Nat.zero_add _)
  have hbalance' : 0 + visits.countP (fun v => v.1.adds v.2) + 0 =
      c.size + c.stats.evictions + (visits.map fun v => v.1.drops v.2).sum := hbalance
  have hlength : visits.length = ops.length := by
    rw [← List.length_map (·.2), map_visits]
  have hadds : visits.countP (fun v => v.1.adds v.2) ≤ visits.length := List.countP_le_length
  have hall : ops.countP (fun op => op.lookup?.isSome) ≤ ops.length := List.countP_le_length
  have hsum : c.stats.hits + c.stats.misses = ops.countP fun op => op.lookup?.isSome := by
    rw [hhits', hmisses', hlookups]
  refine ⟨getElem?_visits start ops, ⟨hhits', hmisses', hsum⟩, by omega, ⟨by omega, by omega⟩,
    fun op => ?_⟩
  have hc : c.IsValid := isValid_run hstart ops
  exact (step_spec hc op).accounts hc

/-- Room for one: of three keys added, one is evicted, one cleared away and one still there. -/
example :
    let start : Lru Nat Nat := new 1
    let ops : List (Op Nat Nat) := [.put 1 10, .put 1 11, .put 2 20, .get 2, .get 1, .clear,
      .getOrInsert 3 30]
    (start.run ops).stats = ⟨1, 2, 1⟩ ∧ (start.run ops).size = 1 ∧
      (start.visits ops).countP (fun v => v.1.adds v.2) = 3 ∧
      ((start.visits ops).map fun v => v.1.drops v.2) = [0, 0, 0, 0, 0, 1, 0] := by
  decide

end TreePath.Lru
