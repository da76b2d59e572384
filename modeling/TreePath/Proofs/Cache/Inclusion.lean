import TreePath.Proofs.Cache.Recency
import Mathlib.Data.List.Forall2

/-! # Larger stores

Two stores of different capacities take the same operations. Their orders of use part as soon as a
key is found in the larger one only, which then moves it to the front. But the keys of the smaller
store stay a subsequence of those of the larger one, since the smaller store is full as soon as it
lacks a key of the other, and so evicts whenever the other does.

* `Lru.Includes`: the keys of the smaller store are a subsequence of those of the larger one, and the
  smaller store is full or has the same keys.
* `Includes.overflow_le`: for the use of a key the smaller store evicts at least as much.
* `Includes.step`: every operation keeps the inclusion, and the larger store finds what the smaller
  one finds.
* `Lru.larger_never_worse`: a larger store hits more, misses less and evicts less, in every run. -/

namespace TreePath

/-- The hits of the first are at most those of the second, and its misses and evictions at least. -/
structure Stats.NoBetter (s t : Stats) : Prop where
  hits_le : s.hits ≤ t.hits
  misses_le : t.misses ≤ s.misses
  evictions_le : t.evictions ≤ s.evictions

section Stats
variable {s t : Stats} (h : s.NoBetter t)
include h

theorem Stats.NoBetter.hit : s.hit.NoBetter t.hit :=
  ⟨Nat.succ_le_succ h.hits_le, h.misses_le, h.evictions_le⟩

theorem Stats.NoBetter.miss : s.miss.NoBetter t.miss :=
  ⟨h.hits_le, Nat.succ_le_succ h.misses_le, h.evictions_le⟩

theorem Stats.NoBetter.missHit : s.miss.NoBetter t.hit :=
  ⟨Nat.le_succ_of_le h.hits_le, Nat.le_succ_of_le h.misses_le, h.evictions_le⟩

theorem Stats.NoBetter.evict {m n : Nat} (hnm : n ≤ m) : (s.evict m).NoBetter (t.evict n) :=
  ⟨h.hits_le, h.misses_le, Nat.add_le_add h.evictions_le hnm⟩

end Stats

namespace Lru

variable {κ α : Type} [DecidableEq κ]

/-- Whether the answer tells that the key was stored. -/
def Answer.isHit : Answer α → Bool
  | .found v => v.isSome
  | .obtained _ created => !created
  | .present answer => answer
  | .done => false

/-! ### Lists of keys -/

omit [DecidableEq κ] in
/-- Cutting off the end keeps a subsequence one, if the longer list loses no more than the other. -/
theorem sublist_take {s l : List κ} {m n : Nat} (h : s.Sublist l)
    (hmn : l.length - n ≤ s.length - m) : (s.take m).Sublist (l.take n) := by
  have hdrop : (s.reverse.drop (s.length - m)).Sublist (l.reverse.drop (l.length - n)) :=
    ((List.reverse_sublist.mpr h).drop _).trans (List.drop_sublist_drop_left _ hmn)
  rwa [← List.reverse_take, ← List.reverse_take, List.reverse_sublist] at hdrop

theorem length_le_length_filter_ne {k : κ} {ks : List κ} (h : ks.Nodup) :
    ks.length ≤ (ks.filter (· ≠ k)).length + 1 := by
  have hfilter : ks.filter (· ≠ k) = ks.erase k := by
    rw [h.erase_eq_filter]
    exact List.filter_congr fun l _ => by by_cases hl : l = k <;> simp [hl]
  rw [hfilter, List.length_erase]
  split_ifs <;> omega

/-! ### Inclusion -/

/-- **Inclusion of stores.** The smaller store lacks keys of the larger one only if it is full. -/
structure Includes (small large : Lru κ α) : Prop where
  capacity_le : small.capacity ≤ large.capacity
  sublist : small.keys.Sublist large.keys
  full_or_eq : small.size = small.capacity ∨ small.keys = large.keys

theorem length_without (c : Lru κ α) (k : κ) :
    (without k c.entries).length = (c.keys.filter (· ≠ k)).length := by
  have hkeys := congrArg List.length (keysOf_without k c.entries)
  rwa [keysOf, List.length_map] at hkeys

section Uses
variable {small large : Lru κ α} (h : Includes small large) (hs : small.IsValid)
  (hl : large.IsValid) (k : κ)
include h hl

/-- A store that evicts for a new key is full, and then so is every smaller one. -/
theorem Includes.overflow_le : (without k large.entries).length + 1 - large.capacity ≤
    (without k small.entries).length + 1 - small.capacity := by
  have hsize := hl.size_le
  by_cases hk : k ∈ large.keys
  · have hlt : (without k large.entries).length < large.size := length_without_lt hk
    omega
  · have hk' : k ∉ small.keys := fun hm => hk (h.sublist.subset hm)
    rw [without_eq_self hk, without_eq_self hk']
    show large.size + 1 - large.capacity ≤ small.size + 1 - small.capacity
    rcases h.full_or_eq with hfull | heq
    · omega
    · rw [size_eq_length_keys, size_eq_length_keys, heq]
      exact Nat.sub_le_sub_left h.capacity_le _

include hs

/-- A use of one key in both stores keeps the inclusion. -/
theorem Includes.use (v w : α) (s t : Stats) :
    Includes (⟨small.capacity, used small.capacity k v small.entries, s⟩ : Lru κ α)
      ⟨large.capacity, used large.capacity k w large.entries, t⟩ := by
  have hover := h.overflow_le hl k
  rw [length_without, length_without] at hover
  have hsub : (k :: small.keys.filter (· ≠ k)).Sublist (k :: large.keys.filter (· ≠ k)) :=
    (h.sublist.filter _).cons_cons k
  have hlen := length_le_length_filter_ne (k := k) hs.nodup
  rw [← size_eq_length_keys] at hlen
  refine ⟨h.capacity_le, ?_, ?_⟩
  · rw [keys_used, keys_used]
    exact sublist_take hsub (by simpa only [List.length_cons] using hover)
  · rw [size_eq_length_keys, keys_used, keys_used]
    rcases Nat.lt_or_ge ((small.keys.filter (· ≠ k)).length + 1) small.capacity with hlt | hge
    -- The smaller store is not full afterwards, and so it was not full before.
    · have heq : small.keys = large.keys := h.full_or_eq.resolve_left (by omega)
      have hcap := h.capacity_le
      right
      rw [← heq, List.take_of_length_le (by rw [List.length_cons]; omega),
        List.take_of_length_le (by rw [List.length_cons]; omega)]
    · left
      rw [List.length_take, List.length_cons]
      exact Nat.min_eq_left hge

omit hs in
/-- A key that only the larger store holds may be moved to its front. -/
theorem Includes.useLarge (hk : k ∉ small.keys) (hk' : k ∈ large.keys) (w : α) (s t : Stats) :
    Includes (⟨small.capacity, small.entries, s⟩ : Lru κ α)
      ⟨large.capacity, used large.capacity k w large.entries, t⟩ := by
  refine ⟨h.capacity_le, ?_, .inl ?_⟩
  · have hsub : ((keysOf small.entries).filter (· ≠ k)).Sublist
        ((keysOf large.entries).filter (· ≠ k)) := h.sublist.filter _
    rw [← keysOf_without, ← keysOf_without, without_eq_self hk] at hsub
    rw [used_of_mem hk' hl.size_le]
    exact hsub.cons k
  · refine h.full_or_eq.resolve_right fun heq => ?_
    rw [heq] at hk
    exact hk hk'

end Uses

/-! ### Runs of two stores -/

/-- **Every operation keeps the inclusion**, the larger store finds what the smaller one finds, and
its counts stay the better ones. -/
theorem Includes.step {small large small' large' : Lru κ α} (h : Includes small large)
    (hs : small.IsValid) (hl : large.IsValid) {op : Op κ α} {a b : Answer α}
    (hsmall : Step small op a small') (hlarge : Step large op b large')
    (hstats : small.stats.NoBetter large.stats) :
    Includes small' large' ∧ (a.isHit → b.isHit) ∧ small'.stats.NoBetter large'.stats := by
  have hmem : ∀ {k}, k ∈ small.keys → k ∈ large.keys := fun hk => h.sublist.subset hk
  cases hsmall with
  | put k v =>
    cases hlarge
    exact ⟨h.use hs hl k v v _ _, id, hstats.evict (h.overflow_le hl k)⟩
  | @getHit k v hm =>
    cases hlarge with
    | getHit hm' => exact ⟨h.use hs hl k v _ _ _, id, hstats.hit⟩
    | getMiss hk' => exact absurd (hmem (mem_keysOf hm)) hk'
  | @getMiss k hk =>
    cases hlarge with
    -- Here the orders of use part.
    | getHit hm' => exact ⟨h.useLarge hl k hk (mem_keysOf hm') _ _ _, fun _ => rfl, hstats.missHit⟩
    | getMiss => exact ⟨⟨h.capacity_le, h.sublist, h.full_or_eq⟩, id, hstats.miss⟩
  | @held k v _ hm =>
    cases hlarge with
    | held _ hm' => exact ⟨h.use hs hl k v _ _ _, id, hstats.hit⟩
    | made _ hk' => exact absurd (hmem (mem_keysOf hm)) hk'
  | @made k v hk =>
    have hover := h.overflow_le hl k
    rw [without_eq_self hk] at hover
    cases hlarge with
    | held _ hm' =>
      exact ⟨h.use hs hl k v _ _ _, fun _ => rfl, hstats.missHit.evict (Nat.zero_le _)⟩
    | made _ hk' =>
      rw [without_eq_self hk'] at hover
      exact ⟨h.use hs hl k v v _ _, id, hstats.miss.evict hover⟩
  | contains k =>
    cases hlarge
    exact ⟨h, fun ha => decide_eq_true (hmem (of_decide_eq_true ha)), hstats⟩
  | clear =>
    cases hlarge
    exact ⟨⟨h.capacity_le, List.Sublist.refl _, .inr rfl⟩, id, hstats⟩

omit [DecidableEq κ] in
theorem includes_new {m n : Nat} (hmn : m ≤ n) : Includes (new m : Lru κ α) (new n) :=
  ⟨hmn, List.Sublist.refl _, .inr rfl⟩

/-- What each operation keeps, runs keep. -/
theorem Includes.run : ∀ (ops : List (Op κ α)) {small large : Lru κ α}, Includes small large →
    small.IsValid → large.IsValid → small.stats.NoBetter large.stats →
    Includes (small.run ops) (large.run ops) ∧
      List.Forall₂ (fun a b => a.isHit → b.isHit) (small.answers ops) (large.answers ops) ∧
      (small.run ops).stats.NoBetter (large.run ops).stats
  | [], _, _, h, _, _, hstats => ⟨h, .nil, hstats⟩
  | op :: ops, small, large, h, hs, hl, hstats => by
    have hsmall := step_spec hs op
    have hlarge := step_spec hl op
    obtain ⟨hstep, hhit, hstats'⟩ := h.step hs hl hsmall hlarge hstats
    obtain ⟨hrun, hhits, hcounts⟩ :=
      Includes.run ops hstep (hsmall.isValid hs) (hlarge.isValid hl) hstats'
    exact ⟨hrun, .cons hhit hhits, hcounts⟩

/-- **A larger store never does worse.** After any run the keys of the smaller store, the most recent
first, are a subsequence of those of the larger store. Every lookup that finds its key in the smaller
store finds it in the larger one, which counts no fewer hits, no more misses and no more evictions. -/
theorem larger_never_worse {m n : Nat} (hmn : m ≤ n) (ops : List (Op κ α)) :
    let small : Lru κ α := new m
    let large : Lru κ α := new n
    (small.run ops).keys.Sublist (large.run ops).keys ∧
    List.Forall₂ (fun a b => a.isHit → b.isHit) (small.answers ops) (large.answers ops) ∧
    (small.run ops).stats.hits ≤ (large.run ops).stats.hits ∧
    (large.run ops).stats.misses ≤ (small.run ops).stats.misses ∧
    (large.run ops).stats.evictions ≤ (small.run ops).stats.evictions := by
  intro small large
  obtain ⟨hrun, hhits, hcounts⟩ := Includes.run ops (includes_new hmn) (isValid_new m)
    (isValid_new n) ⟨Nat.le_refl _, Nat.le_refl _, Nat.le_refl _⟩
  exact ⟨hrun.sublist, hhits, hcounts.hits_le, hcounts.misses_le, hcounts.evictions_le⟩

/-- The lookup of `1` hits in the larger store only, and moves it in front of `2`. -/
theorem larger_never_worse_diverging :
    let ops : List (Op Nat Nat) := [.put 1 10, .put 2 20, .get 1]
    let small : Lru Nat Nat := new 1
    let large : Lru Nat Nat := new 2
    1 ≤ 2 ∧ (small.run ops).keys = [2] ∧ (large.run ops).keys = [1, 2] ∧
      [2].Sublist [1, 2] ∧ (small.run ops).stats = ⟨0, 1, 1⟩ ∧ (large.run ops).stats = ⟨1, 0, 0⟩ ∧
      (small.run ops).stats.hits ≤ (large.run ops).stats.hits := by
  intro ops small large
  obtain ⟨hsub, -, hhits, -, -⟩ := larger_never_worse (m := 1) (n := 2) (by decide) ops
  exact ⟨by decide, by decide, by decide, hsub, by decide, by decide, hhits⟩

end Lru

end TreePath
