import TreePath.Cache.Lru
import Mathlib.Data.List.Nodup
import Mathlib.Tactic.SplitIfs

/-! # One operation on a store

What a single operation does to a store that holds no key twice and no more entries than fit.

* `Lru.IsValid`: such a store; every operation keeps it so.
* `Lru.used`: the entries after a use of a key, whether it was stored or not.
* `Lru.Step`: what an operation answers and leaves behind, a case for each way that it can go.
* `Lru.step_spec`: operations do just that. -/

namespace TreePath.Lru

variable {κ α : Type} [DecidableEq κ]

/-! ### Entries -/

def keysOf (es : List (κ × α)) : List κ := es.map (·.1)

omit [DecidableEq κ] in
theorem mem_keysOf {k : κ} {v : α} {es : List (κ × α)} (h : (k, v) ∈ es) : k ∈ keysOf es :=
  List.mem_map_of_mem (f := (·.1)) h

theorem find?_eq_none_iff {k : κ} : ∀ {es : List (κ × α)}, find? k es = none ↔ k ∉ keysOf es
  | [] => by simp [find?, keysOf]
  | e :: es => by
    have ih : find? k es = none ↔ k ∉ keysOf es := find?_eq_none_iff
    unfold keysOf at ih ⊢
    rw [find?, List.map_cons, List.mem_cons, not_or]
    split_ifs with h
    · simp [h]
    · rw [ih]; exact ⟨fun hm => ⟨Ne.symm h, hm⟩, fun hm => hm.2⟩

theorem mem_of_find?_eq_some {k : κ} {v : α} : ∀ {es : List (κ × α)},
    find? k es = some v → (k, v) ∈ es
  | e :: es, h => by
    rw [find?] at h
    split_ifs at h with he
    · subst he; cases h; exact List.mem_cons_self
    · exact List.mem_cons_of_mem _ (mem_of_find?_eq_some h)

theorem find?_eq_some_iff {k : κ} {v : α} {es : List (κ × α)} (hn : (keysOf es).Nodup) :
    find? k es = some v ↔ (k, v) ∈ es := by
  refine ⟨mem_of_find?_eq_some, fun hm => ?_⟩
  induction es with
  | nil => simp at hm
  | cons e es ih =>
    obtain ⟨hne, hn⟩ := List.nodup_cons.mp hn
    rw [find?]
    rcases List.mem_cons.mp hm with rfl | hm
    · rw [if_pos rfl]
    · have hk : e.1 ≠ k := by
        rintro rfl
        exact hne (mem_keysOf hm)
      rw [if_neg hk]
      exact ih hn hm

theorem keysOf_without (k : κ) (es : List (κ × α)) :
    keysOf (without k es) = (keysOf es).filter (· ≠ k) := by
  unfold keysOf without
  rw [List.filter_map]
  rfl

theorem without_eq_self {k : κ} {es : List (κ × α)} (h : k ∉ keysOf es) : without k es = es := by
  unfold without
  rw [List.filter_eq_self]
  intro e he
  simp only [ne_eq, decide_eq_true_eq]
  rintro rfl
  exact h (mem_keysOf he)

theorem length_without_lt {k : κ} {es : List (κ × α)} (h : k ∈ keysOf es) :
    (without k es).length < es.length := by
  unfold without
  rw [List.length_filter_lt_length_iff_exists]
  obtain ⟨e, he, rfl⟩ := List.mem_map.mp h
  exact ⟨e, he, by simp⟩

/-! ### Uses -/

/-- The entries after a use of `k`, which then has the value `v`. -/
def used (capacity : Nat) (k : κ) (v : α) (es : List (κ × α)) : List (κ × α) :=
  ((k, v) :: without k es).take capacity

theorem keysOf_used (capacity : Nat) (k : κ) (v : α) (es : List (κ × α)) :
    keysOf (used capacity k v es) = (k :: (keysOf es).filter (· ≠ k)).take capacity := by
  rw [← keysOf_without]
  simp [keysOf, used, List.map_take]

theorem keys_used (c : Lru κ α) (k : κ) (v : α) (s : Stats) :
    keys ⟨c.capacity, used c.capacity k v c.entries, s⟩ =
      (k :: c.keys.filter (· ≠ k)).take c.capacity :=
  keysOf_used c.capacity k v c.entries

theorem nodup_keysOf_used {capacity : Nat} {k : κ} {v : α} {es : List (κ × α)}
    (h : (keysOf es).Nodup) : (keysOf (used capacity k v es)).Nodup := by
  rw [keysOf_used]
  refine ((List.nodup_cons.mpr ⟨?_, h.filter _⟩)).sublist (List.take_sublist _ _)
  simp

/-- After a use of `k` each entry is that of `k` or was there before. -/
theorem mem_used {capacity : Nat} {k l : κ} {v w : α} {es : List (κ × α)}
    (h : (l, w) ∈ used capacity k v es) : (l = k ∧ w = v) ∨ (l ≠ k ∧ (l, w) ∈ es) := by
  rcases List.mem_cons.mp (List.mem_of_mem_take h) with he | hm
  · cases he
    exact .inl ⟨rfl, rfl⟩
  · obtain ⟨hm, hl⟩ := List.mem_filter.mp hm
    exact .inr ⟨by simpa using hl, hm⟩

/-- A use of a stored key evicts nothing. -/
theorem used_of_mem {capacity : Nat} {k : κ} {v : α} {es : List (κ × α)} (hk : k ∈ keysOf es)
    (hs : es.length ≤ capacity) : used capacity k v es = (k, v) :: without k es := by
  have hlt := length_without_lt hk
  exact List.take_of_length_le (by rw [List.length_cons]; omega)

/-! ### Valid stores -/

/-- No key is stored twice, and no more entries than fit. -/
structure IsValid (c : Lru κ α) : Prop where
  nodup : c.keys.Nodup
  size_le : c.size ≤ c.capacity

omit [DecidableEq κ] in
theorem size_eq_length_keys (c : Lru κ α) : c.size = c.keys.length := (List.length_map _).symm

omit [DecidableEq κ] in
theorem isValid_new (capacity : Nat) : (new capacity : Lru κ α).IsValid :=
  ⟨List.nodup_nil, Nat.zero_le _⟩

/-- What an operation answers and what store it leaves behind. -/
inductive Step (c : Lru κ α) : Op κ α → Answer α → Lru κ α → Prop
  | put (k : κ) (v : α) :
    Step c (.put k v) .done ⟨c.capacity, used c.capacity k v c.entries,
      c.stats.evict ((without k c.entries).length + 1 - c.capacity)⟩
  | getHit {k : κ} {v : α} : (k, v) ∈ c.entries →
    Step c (.get k) (.found (some v))
      ⟨c.capacity, used c.capacity k v c.entries, c.stats.hit⟩
  | getMiss {k : κ} : k ∉ c.keys →
    Step c (.get k) (.found none) ⟨c.capacity, c.entries, c.stats.miss⟩
  | held {k : κ} {v : α} (w : α) : (k, v) ∈ c.entries →
    Step c (.getOrInsert k w) (.obtained v false)
      ⟨c.capacity, used c.capacity k v c.entries, c.stats.hit⟩
  | made {k : κ} (v : α) : k ∉ c.keys →
    Step c (.getOrInsert k v) (.obtained v true)
      ⟨c.capacity, used c.capacity k v c.entries,
        c.stats.miss.evict (c.entries.length + 1 - c.capacity)⟩
  | contains (k : κ) : Step c (.contains k) (.present (decide (k ∈ c.keys))) c
  | clear : Step c .clear .done ⟨c.capacity, [], c.stats⟩

/-- **Operations step as described.** -/
theorem step_spec {c : Lru κ α} (hc : c.IsValid) (op : Op κ α) :
    Step c op (c.step op).1 (c.step op).2 := by
  cases op with
  | put k v => exact .put k v
  | get k =>
    rcases hf : find? k c.entries with _ | v
    · have h := Step.getMiss (find?_eq_none_iff.mp hf)
      simpa only [step, get, hf] using h
    · have hm : (k, v) ∈ c.entries := mem_of_find?_eq_some hf
      have h := Step.getHit hm
      rw [used_of_mem (mem_keysOf hm) hc.size_le] at h
      simpa only [step, get, hf] using h
  | getOrInsert k w =>
    rcases hf : find? k c.entries with _ | v
    · have hk := find?_eq_none_iff.mp hf
      have h := Step.made w hk
      rw [used, without_eq_self hk] at h
      simpa only [step, getOrInsert, hf, evictOverflow, List.length_cons] using h
    · have hm : (k, v) ∈ c.entries := mem_of_find?_eq_some hf
      have h := Step.held w hm
      rw [used_of_mem (mem_keysOf hm) hc.size_le] at h
      simpa only [step, getOrInsert, hf] using h
  | contains k =>
    have hd : c.contains k = decide (k ∈ c.keys) := by
      rw [Lru.contains, Bool.eq_iff_iff, decide_eq_true_eq, Option.isSome_iff_ne_none, Ne,
        find?_eq_none_iff, not_not]
      exact Iff.rfl
    rw [step, hd]
    exact .contains k
  | clear => exact .clear

/-! ### Answers -/

section Answers
variable {c d : Lru κ α} {k : κ} {v w : α} {a : Answer α}

theorem IsValid.value_unique (hc : c.IsValid) (hv : (k, v) ∈ c.entries) (hw : (k, w) ∈ c.entries) :
    v = w := by
  rw [← find?_eq_some_iff hc.nodup] at hv hw
  exact Option.some.inj (hv.symm.trans hw)

theorem Step.contains_eq (h : Step c (.contains k) a d) :
    a = .present (decide (k ∈ c.keys)) ∧ d = c := by
  cases h; exact ⟨rfl, rfl⟩

theorem Step.get_absent (h : Step c (.get k) a d) (hk : k ∉ c.keys) :
    a = .found none ∧ d.entries = c.entries := by
  cases h with
  | getHit hm => exact absurd (mem_keysOf hm) hk
  | getMiss => exact ⟨rfl, rfl⟩

theorem Step.get_stored (hc : c.IsValid) (h : Step c (.get k) a d) (hv : (k, v) ∈ c.entries) :
    a = .found (some v) := by
  cases h with
  | getHit hm => rw [hc.value_unique hv hm]
  | getMiss hk => exact absurd (mem_keysOf hv) hk

theorem Step.getOrInsert_absent (h : Step c (.getOrInsert k w) a d) (hk : k ∉ c.keys) :
    a = .obtained w true := by
  cases h with
  | held _ hm => exact absurd (mem_keysOf hm) hk
  | made => rfl

theorem Step.getOrInsert_stored (hc : c.IsValid) (h : Step c (.getOrInsert k w) a d)
    (hv : (k, v) ∈ c.entries) : a = .obtained v false := by
  cases h with
  | held _ hm => rw [hc.value_unique hv hm]
  | made _ hk => exact absurd (mem_keysOf hv) hk

end Answers

/-! ### What operations keep -/

theorem Step.capacity_eq {c d : Lru κ α} {op : Op κ α} {a : Answer α} (h : Step c op a d) :
    d.capacity = c.capacity := by
  cases h <;> rfl

/-- **Every operation keeps a store valid.** -/
theorem Step.isValid {c d : Lru κ α} {op : Op κ α} {a : Answer α} (h : Step c op a d)
    (hc : c.IsValid) : d.IsValid := by
  have hused : ∀ k v s, (⟨c.capacity, used c.capacity k v c.entries, s⟩ : Lru κ α).IsValid :=
    fun k v s => ⟨nodup_keysOf_used hc.nodup, List.length_take_le _ _⟩
  cases h with
  | put k v => exact hused k v _
  | getHit hm => exact hused _ _ _
  | getMiss hk => exact ⟨hc.nodup, hc.size_le⟩
  | held w hm => exact hused _ _ _
  | made v hk => exact hused _ v _
  | contains k => exact hc
  | clear => exact ⟨List.nodup_nil, Nat.zero_le _⟩

end TreePath.Lru
