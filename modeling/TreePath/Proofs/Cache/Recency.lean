import TreePath.Proofs.Cache.Part
import TreePath.Proofs.Cache.Step
import Mathlib.Data.List.Induction

/-! # The store as a view of what happened

A store is told by the history of its operations and their answers, without its entries. Putting a
key, finding one and getting or inserting one are *uses* of the key. The keys stored are the first
distinct keys of the uses since the last clearing, read backwards, and each has the value that was
last given to it.

* `Lru.Op.use?`, `Lru.Op.gives?`: what an operation, with its answer, uses and gives.
* `Lru.history`, `Lru.uses`, `Lru.latest`: the history of a run, the latest operation first, and what
  is read off it.
* `Lru.Reflects`: a store is what its history says; every step keeps this.
* `Lru.run_reflects_history`: the store after any run is what its history says, and the next
  operation is answered from it. -/

namespace TreePath.Lru

variable {κ α : Type} [DecidableEq κ]

/-! ### Distinct keys -/

theorem eraseDups_filter (p : κ → Bool) : ∀ ks : List κ,
    (ks.filter p).eraseDups = ks.eraseDups.filter p
  | [] => rfl
  | k :: ks => by
    have hlt : (ks.filter fun l => !l == k).length < ks.length + 1 :=
      Nat.lt_succ_of_le (List.length_filter_le _ _)
    rw [List.eraseDups_cons]
    by_cases hk : p k = true
    -- The tail loses the copies of `k` before its duplicates, so the recursion is on its length.
    · rw [List.filter_cons_of_pos hk, List.filter_cons_of_pos hk, List.eraseDups_cons,
        ← eraseDups_filter p (ks.filter fun l => !l == k), List.filter_comm]
    · rw [List.filter_cons_of_neg hk, List.filter_cons_of_neg hk,
        ← eraseDups_filter p (ks.filter fun l => !l == k), List.filter_filter]
      congr 1
      refine List.filter_congr fun l _ => ?_
      by_cases hl : l = k
      · subst hl; simp [hk]
      · simp [hl]
termination_by ks => ks.length

theorem nodup_eraseDups : ∀ ks : List κ, ks.eraseDups.Nodup
  | [] => List.nodup_nil
  | k :: ks => by
    have hlt : (ks.filter fun l => !l == k).length < ks.length + 1 :=
      Nat.lt_succ_of_le (List.length_filter_le _ _)
    rw [List.eraseDups_cons, List.nodup_cons]
    exact ⟨by simp, nodup_eraseDups (ks.filter fun l => !l == k)⟩
termination_by ks => ks.length

/-- Of the first `n + 1` distinct keys at most one is dropped, so that `n` remain as before. -/
theorem take_filter_take {k : κ} : ∀ {ks : List κ} {n : Nat}, ks.Nodup →
    ((ks.take (n + 1)).filter (· ≠ k)).take n = (ks.filter (· ≠ k)).take n
  | [], n, _ => by simp
  | l :: ks, n, h => by
    obtain ⟨hl, hks⟩ := List.nodup_cons.mp h
    rw [List.take_succ_cons]
    by_cases hk : l = k
    · subst hk
      have hall : ∀ m ∈ ks, decide (m ≠ l) = true := by
        intro m hm
        rw [decide_eq_true_eq]
        rintro rfl
        exact hl hm
      rw [List.filter_cons_of_neg (by simp), List.filter_cons_of_neg (by simp),
        List.filter_eq_self.mpr hall,
        List.filter_eq_self.mpr fun m hm => hall m (List.mem_of_mem_take hm), List.take_take,
        Nat.min_self]
    · rw [List.filter_cons_of_pos (by simpa using hk), List.filter_cons_of_pos (by simpa using hk)]
      rcases n with _ | n
      · rfl
      · rw [List.take_succ_cons, List.take_succ_cons, take_filter_take hks]

/-- A use of a key puts it in front of the distinct keys. -/
theorem take_cons_filter_take_eraseDups (n : Nat) (k : κ) (ks : List κ) :
    (k :: (ks.eraseDups.take n).filter (· ≠ k)).take n = ((k :: ks).eraseDups).take n := by
  have hfun : (fun l => !l == k) = fun l => decide (l ≠ k) := by
    funext l
    by_cases hl : l = k <;> simp [hl]
  rw [List.eraseDups_cons, eraseDups_filter, hfun]
  rcases n with _ | n
  · rfl
  · rw [List.take_succ_cons, List.take_succ_cons, take_filter_take (nodup_eraseDups ks)]

/-- If the keys are the first of the keys used before, as many as fit, then so they are after a
use. -/
theorem keys_used_of_eraseDups {c : Lru κ α} {ks : List κ}
    (h : c.keys = ks.eraseDups.take c.capacity) (k : κ) (v : α) (s : Stats) :
    keys ⟨c.capacity, used c.capacity k v c.entries, s⟩ =
      (k :: ks).eraseDups.take c.capacity := by
  rw [keys_used, h]
  exact take_cons_filter_take_eraseDups c.capacity k ks

theorem isValid_of_keys_eq {c : Lru κ α} {ks : List κ} (h : c.keys = ks.eraseDups.take c.capacity) :
    c.IsValid := by
  refine ⟨?_, ?_⟩
  · rw [h]
    exact (nodup_eraseDups ks).sublist (List.take_sublist _ _)
  · rw [size_eq_length_keys, h]
    exact List.length_take_le _ _

/-! ### Histories -/

/-- The key that an operation with its answer uses. -/
def Op.use? : Op κ α → Answer α → Option κ
  | .put k _, _ => some k
  | .get k, .found (some _) => some k
  | .getOrInsert k _, _ => some k
  | _, _ => none

/-- The value that an operation with its answer gives to a key: one that is put, or one made for an
absent key. -/
def Op.gives? (k : κ) : Op κ α → Answer α → Option α
  | .put l v, _ => if l = k then some v else none
  | .getOrInsert l v, .obtained _ true => if l = k then some v else none
  | _, _ => none

def Op.isClear : Op κ α → Bool
  | .clear => true
  | _ => false

/-- The operations of a run with their answers, the latest first. -/
def history (c : Lru κ α) (ops : List (Op κ α)) : List (Op κ α × Answer α) :=
  (ops.zip (c.answers ops)).reverse

/-- The keys used since the last clearing, the latest first. -/
def uses (h : List (Op κ α × Answer α)) : List κ :=
  (h.takeWhile fun e => !e.1.isClear).filterMap fun e => e.1.use? e.2

/-- The value last given to a key. -/
def latest (k : κ) (h : List (Op κ α × Answer α)) : Option α :=
  h.findSome? fun e => e.1.gives? k e.2

omit [DecidableEq κ] in
theorem uses_cons {op : Op κ α} {a : Answer α} {h : List (Op κ α × Answer α)}
    (hop : op.isClear = false) : uses ((op, a) :: h) = (op.use? a).toList ++ uses h := by
  unfold uses
  rw [List.takeWhile_cons_of_pos (by rw [hop]; rfl), List.filterMap_cons]
  rcases op.use? a with _ | k <;> rfl

theorem latest_cons {k : κ} {op : Op κ α} {a : Answer α} {h : List (Op κ α × Answer α)} :
    latest k ((op, a) :: h) = (op.gives? k a).or (latest k h) := by
  unfold latest
  rw [List.findSome?_cons]
  rcases op.gives? k a with _ | v <;> rfl

theorem run_append (c : Lru κ α) (ops : List (Op κ α)) (op : Op κ α) :
    c.run (ops ++ [op]) = ((c.run ops).step op).2 := by
  unfold run
  rw [List.foldl_append]
  rfl

theorem answers_append (op : Op κ α) (c : Lru κ α) (ops : List (Op κ α)) :
    c.answers (ops ++ [op]) = c.answers ops ++ [((c.run ops).step op).1] := by
  rw [answers_eq_answersWith, answers_eq_answersWith, answersWith_append]
  rfl

theorem length_answers (c : Lru κ α) (ops : List (Op κ α)) :
    (c.answers ops).length = ops.length := by
  rw [answers_eq_answersWith, length_answersWith]

theorem history_append (c : Lru κ α) (ops : List (Op κ α)) (op : Op κ α) :
    c.history (ops ++ [op]) = (op, ((c.run ops).step op).1) :: c.history ops := by
  unfold history
  rw [answers_append, List.zip_append (length_answers c ops).symm, List.reverse_append]
  rfl

/-! ### The invariant -/

/-- The entries are what the history says: the first distinct keys used, as many as fit, each with
the value last given to it. -/
structure Reflects (c : Lru κ α) (h : List (Op κ α × Answer α)) : Prop where
  keys_eq : c.keys = (uses h).eraseDups.take c.capacity
  value_eq : ∀ k v, (k, v) ∈ c.entries → latest k h = some v

theorem Reflects.isValid {c : Lru κ α} {h : List (Op κ α × Answer α)} (hc : c.Reflects h) :
    c.IsValid :=
  isValid_of_keys_eq hc.keys_eq

/-- A use brings its key to the front. Its value is the latest, and no other key is given one. -/
theorem Reflects.use {c : Lru κ α} {h : List (Op κ α × Answer α)} (hc : c.Reflects h) {k : κ} {v : α}
    {op : Op κ α} {a : Answer α} (s : Stats) (hop : op.isClear = false) (huse : op.use? a = some k)
    (hself : latest k ((op, a) :: h) = some v) (hother : ∀ l, l ≠ k → op.gives? l a = none) :
    Reflects ⟨c.capacity, used c.capacity k v c.entries, s⟩ ((op, a) :: h) := by
  refine ⟨?_, fun l w hm => ?_⟩
  · rw [uses_cons hop, huse]
    exact keys_used_of_eraseDups hc.keys_eq k v s
  · rcases mem_used hm with ⟨rfl, rfl⟩ | ⟨hl, hm⟩
    · exact hself
    · rw [latest_cons, hother l hl]
      exact hc.value_eq l w hm

/-- What uses nothing and gives nothing leaves the entries as they are. -/
theorem Reflects.keep {c : Lru κ α} {h : List (Op κ α × Answer α)} (hc : c.Reflects h)
    {op : Op κ α} {a : Answer α} (s : Stats) (hop : op.isClear = false) (huse : op.use? a = none)
    (hgives : ∀ k, op.gives? k a = none) :
    Reflects ⟨c.capacity, c.entries, s⟩ ((op, a) :: h) := by
  refine ⟨?_, fun k v hm => ?_⟩
  · rw [uses_cons hop, huse]
    exact hc.keys_eq
  · rw [latest_cons, hgives k]
    exact hc.value_eq k v hm

/-- **Every operation keeps a store what its history says.** -/
theorem Reflects.step {c d : Lru κ α} {h : List (Op κ α × Answer α)} (hc : c.Reflects h)
    {op : Op κ α} {a : Answer α} (hs : Step c op a d) : d.Reflects ((op, a) :: h) := by
  cases hs with
  | put k v =>
    refine hc.use _ rfl rfl ?_ fun l hl => ?_
    · rw [latest_cons, Op.gives?, if_pos rfl]; rfl
    · rw [Op.gives?, if_neg (Ne.symm hl)]
  | getHit hm =>
    refine hc.use _ rfl rfl ?_ fun _ _ => rfl
    rw [latest_cons]
    exact hc.value_eq _ _ hm
  | getMiss hk => exact hc.keep _ rfl rfl fun _ => rfl
  | held w hm =>
    refine hc.use _ rfl rfl ?_ fun _ _ => rfl
    rw [latest_cons]
    exact hc.value_eq _ _ hm
  | made v hk =>
    refine hc.use _ rfl rfl ?_ fun l hl => ?_
    · rw [latest_cons, Op.gives?, if_pos rfl]; rfl
    · rw [Op.gives?, if_neg (Ne.symm hl)]
  | contains k => exact hc.keep _ rfl rfl fun _ => rfl
  | clear => exact ⟨(List.take_nil).symm, fun k v hm => absurd hm List.not_mem_nil⟩

theorem isValid_run {c : Lru κ α} (hc : c.IsValid) (ops : List (Op κ α)) : (c.run ops).IsValid := by
  induction ops using List.reverseRecOn with
  | nil => exact hc
  | append_singleton ops op ih =>
    rw [run_append]
    exact (step_spec ih op).isValid ih

theorem capacity_run {c : Lru κ α} (hc : c.IsValid) (ops : List (Op κ α)) :
    (c.run ops).capacity = c.capacity := by
  induction ops using List.reverseRecOn with
  | nil => rfl
  | append_singleton ops op ih =>
    rw [run_append, (step_spec (isValid_run hc ops) op).capacity_eq, ih]

/-- The store after a run is what the history of the run says. -/
theorem reflects_run (capacity : Nat) (ops : List (Op κ α)) :
    ((new capacity).run ops).Reflects ((new capacity).history ops) := by
  induction ops using List.reverseRecOn with
  | nil => exact ⟨(List.take_nil).symm, fun k v hm => absurd hm List.not_mem_nil⟩
  | append_singleton ops op ih =>
    rw [run_append, history_append]
    exact ih.step (step_spec ih.isValid op)

/-- **The store is the ideal one** after every run. Its keys, the most recent first, are the first
distinct keys used since the last clearing, as many as fit, and each has the value last given to it.
A key is found if it is stored, and only then; a value is made for a key that is not stored, and
answered whether it is kept or not. Asking for a key and missing one change no entries. -/
theorem run_reflects_history (capacity : Nat) (ops : List (Op κ α)) :
    let c := (new capacity : Lru κ α).run ops
    let h := (new capacity : Lru κ α).history ops
    (c.keys = (uses h).eraseDups.take capacity ∧ c.keys.Nodup ∧ c.size ≤ capacity) ∧
    (∀ k v, (k, v) ∈ c.entries → latest k h = some v) ∧
    (∀ k, (c.step (.contains k)).1 = .present (decide (k ∈ c.keys)) ∧
      (c.step (.contains k)).2 = c) ∧
    (∀ k, k ∉ c.keys →
      (c.step (.get k)).1 = .found none ∧ (c.step (.get k)).2.entries = c.entries) ∧
    (∀ k v, (k, v) ∈ c.entries → (c.step (.get k)).1 = .found (some v)) ∧
    (∀ k v, k ∉ c.keys → (c.step (.getOrInsert k v)).1 = .obtained v true) ∧
    ∀ k v w, (k, v) ∈ c.entries → (c.step (.getOrInsert k w)).1 = .obtained v false := by
  intro c h
  have hr : c.Reflects h := reflects_run capacity ops
  have hv : c.IsValid := isValid_run (isValid_new capacity) ops
  have hcap : c.capacity = capacity := capacity_run (isValid_new capacity) ops
  refine ⟨⟨?_, hv.nodup, ?_⟩, hr.value_eq, fun k => (step_spec hv _).contains_eq,
    fun k => (step_spec hv _).get_absent, fun k v => (step_spec hv _).get_stored hv,
    fun k v => (step_spec hv _).getOrInsert_absent,
    fun k v w => (step_spec hv _).getOrInsert_stored hv⟩
  · rw [hr.keys_eq, hcap]
  · rw [← hcap]; exact hv.size_le

/-- Room for two, and a third key put after the first was found: the second is evicted. -/
theorem run_reflects_history_evicted :
    let c := (new 2 : Lru Nat Nat).run [.put 1 10, .put 2 20, .get 1, .put 3 30]
    let h := (new 2 : Lru Nat Nat).history [.put 1 10, .put 2 20, .get 1, .put 3 30]
    (1, 10) ∈ c.entries ∧ 2 ∉ c.keys ∧ latest 1 h = some 10 ∧ (c.step (.get 1)).1 = .found (some 10) ∧
      (c.step (.get 2)).1 = .found none ∧ (c.step (.getOrInsert 2 21)).1 = .obtained 21 true ∧
      (c.step (.getOrInsert 1 11)).1 = .obtained 10 false := by
  obtain ⟨-, hlatest, -, hmiss, hhit, hmade, hheld⟩ :=
    run_reflects_history 2 [.put 1 10, .put 2 20, .get 1, .put (3 : Nat) (30 : Nat)]
  have h1 : (1, 10) ∈ ((new 2 : Lru Nat Nat).run [.put 1 10, .put 2 20, .get 1, .put 3 30]).entries := by
    decide
  have h2 : 2 ∉ ((new 2 : Lru Nat Nat).run [.put 1 10, .put 2 20, .get 1, .put 3 30]).keys := by
    decide
  exact ⟨h1, h2, hlatest 1 10 h1, hhit 1 10 h1, (hmiss 2 h2).1, hmade 2 21 h2, hheld 1 10 11 h1⟩

end TreePath.Lru
