import TreePath.Cache.Generation
import TreePath.Proofs.Cache.Recency
import Mathlib.Data.List.GetD

/-! # Runs of the cache of a generation

What a run does to the store of roots, and which numbers of contexts it gives out.

* `Generation.Retrieves`: how a retrieval goes: the root is stored, or a context is made.
* `Generation.Op.recent`, `Generation.Tracks`: the roots retrieved since the last clearing, the latest
  first. As many different ones of them as fit are stored, with numbers of contexts made before.
  Every operation keeps this.
* `Generation.lt_of_answered`: the numbers answered are below the number of contexts. -/

namespace TreePath.Generation

variable {α σ : Type}

/-! ### Retrievals -/

/-- What a retrieval answers and what it leaves behind. -/
inductive Retrieves (g : Generation α σ) (k : RootKey) : Nat → Generation α σ → Prop
  | held {id : Nat} : (k.identity, id) ∈ g.roots.entries →
    Retrieves g k id ⟨g.artifacts, ⟨g.roots.capacity,
      Lru.used g.roots.capacity k.identity id g.roots.entries, g.roots.stats.hit⟩, g.contexts⟩
  | made : k.identity ∉ g.roots.keys →
    Retrieves g k g.contexts.length ⟨g.artifacts, ⟨g.roots.capacity,
      Lru.used g.roots.capacity k.identity g.contexts.length g.roots.entries,
      g.roots.stats.miss.evict (g.roots.entries.length + 1 - g.roots.capacity)⟩,
      g.contexts ++ [.empty]⟩

/-- **Retrievals go as described.** -/
theorem retrieve_spec {g : Generation α σ} (hg : g.roots.IsValid) (k : RootKey) :
    Retrieves g k (g.retrieve k).1 (g.retrieve k).2 := by
  have h := Lru.step_spec hg (.getOrInsert k.identity g.contexts.length)
  rw [Lru.step] at h
  unfold retrieve
  generalize g.roots.getOrInsert k.identity g.contexts.length = r at h ⊢
  obtain ⟨⟨id, created⟩, roots⟩ := r
  cases h with
  | held _ hm => exact .held hm
  | made _ hk => exact .made hk

/-- A context made anew is empty, and so is every context that is not made yet. -/
theorem getD_append_empty (cs : List (Context σ)) (id : Nat) :
    (cs ++ [Context.empty]).getD id .empty = cs.getD id .empty := by
  rcases Nat.lt_or_ge id cs.length with hlt | hge
  · rw [List.getD_append _ _ _ _ hlt]
  · rw [List.getD_append_right _ _ _ _ hge, List.getD_eq_default _ _ hge]
    rcases id - cs.length with _ | n <;> rfl

section Retrieves
variable {g g' : Generation α σ} {k : RootKey} {id : Nat} (h : Retrieves g k id g')
include h

theorem Retrieves.capacity_eq : g'.roots.capacity = g.roots.capacity := by
  cases h <;> rfl

theorem Retrieves.context_eq (i : Nat) : g'.context i = g.context i := by
  cases h with
  | held => rfl
  | made => exact getD_append_empty g.contexts i

theorem Retrieves.mem_entries {l : RootKey} {i : Nat} (hl : l ≠ k.identity)
    (hm : (l, i) ∈ g'.roots.entries) : (l, i) ∈ g.roots.entries := by
  cases h with
  | held => exact ((Lru.mem_used hm).resolve_left fun hlk => hl hlk.1).2
  | made => exact ((Lru.mem_used hm).resolve_left fun hlk => hl hlk.1).2

theorem Retrieves.id_eq {i : Nat} (hm : (k.identity, i) ∈ g'.roots.entries) : i = id := by
  cases h with
  | held => exact ((Lru.mem_used hm).resolve_right fun hne => hne.1 rfl).2
  | made => exact ((Lru.mem_used hm).resolve_right fun hne => hne.1 rfl).2

theorem Retrieves.mem_of_stored (hk : k.identity ∈ g.roots.keys) :
    (k.identity, id) ∈ g.roots.entries := by
  cases h with
  | held hm => exact hm
  | made hk' => exact absurd hk hk'

theorem Retrieves.eq_length (hk : k.identity ∉ g.roots.keys) : id = g.contexts.length := by
  cases h with
  | held hm => exact absurd (Lru.mem_keysOf hm) hk
  | made => rfl

end Retrieves

/-! ### The roots of a run -/

/-- The roots retrieved since the last clearing, the latest first, after one more operation. Roots
count up to sequence numbers. -/
def Op.recent (ks : List RootKey) : Op α σ → List RootKey
  | .retrieve k => k.identity :: ks
  | .clear => []
  | _ => ks

/-- **What holds along a run** in which `ks` are the roots retrieved since the last clearing: as many
different ones as fit are stored, with numbers of contexts that exist, and each miss has made a
context. -/
structure Tracks (g : Generation α σ) (ks : List RootKey) : Prop where
  keys_eq : g.roots.keys = ks.eraseDups.take g.roots.capacity
  id_lt : ∀ k id, (k, id) ∈ g.roots.entries → id < g.contexts.length
  length_eq : g.contexts.length = g.roots.stats.misses

theorem tracks_new (artifactCapacity contextCapacity : Nat) :
    (new artifactCapacity contextCapacity : Generation α σ).Tracks [] :=
  ⟨List.take_nil.symm, fun _ _ hm => absurd hm List.not_mem_nil, rfl⟩

section Tracks
variable {g : Generation α σ} {ks : List RootKey} (h : g.Tracks ks)
include h

theorem Tracks.isValid : g.roots.IsValid := Lru.isValid_of_keys_eq h.keys_eq

/-- A retrieval puts its root in front. -/
theorem Tracks.retrieves {k : RootKey} {id : Nat} {g' : Generation α σ}
    (hstep : Retrieves g k id g') : g'.Tracks (k.identity :: ks) := by
  cases hstep with
  | held hm =>
    refine ⟨Lru.keys_used_of_eraseDups h.keys_eq k.identity id _, fun l i hi => ?_, h.length_eq⟩
    rcases Lru.mem_used hi with ⟨-, rfl⟩ | ⟨-, hi⟩
    · exact h.id_lt _ _ hm
    · exact h.id_lt l i hi
  | made hk =>
    have hlength : (g.contexts ++ [Context.empty]).length = g.contexts.length + 1 :=
      List.length_append
    refine ⟨Lru.keys_used_of_eraseDups h.keys_eq k.identity _ _, fun l i hi => ?_, ?_⟩
    · rw [hlength]
      rcases Lru.mem_used hi with ⟨-, rfl⟩ | ⟨-, hi⟩
      · exact Nat.lt_succ_self _
      · exact Nat.lt_succ_of_lt (h.id_lt l i hi)
    · rw [hlength, h.length_eq]
      rfl

/-- **Every operation is tracked.** -/
theorem Tracks.step (op : Op α σ) : (g.step op).2.Tracks (op.recent ks) := by
  cases op with
  | put k v => exact ⟨h.keys_eq, h.id_lt, h.length_eq⟩
  | get k => exact ⟨h.keys_eq, h.id_lt, h.length_eq⟩
  | retrieve k => exact h.retrieves (retrieve_spec h.isValid k)
  | within id op =>
    have hlength : (g.step (.within id op)).2.contexts.length = g.contexts.length :=
      List.length_set
    exact ⟨h.keys_eq, fun k i hi => hlength ▸ h.id_lt k i hi, hlength.trans h.length_eq⟩
  | clear => exact ⟨List.take_nil.symm, fun _ _ hm => absurd hm List.not_mem_nil, h.length_eq⟩

theorem Tracks.capacity_step (op : Op α σ) :
    (g.step op).2.roots.capacity = g.roots.capacity := by
  cases op with
  | retrieve k => exact (retrieve_spec h.isValid k).capacity_eq
  | _ => rfl

theorem Tracks.run (ops : List (Op α σ)) : (g.run ops).Tracks (ops.foldl Op.recent ks) := by
  induction ops generalizing g ks with
  | nil => exact h
  | cons op ops ih => exact ih (h.step op)

theorem Tracks.capacity_run (ops : List (Op α σ)) :
    (g.run ops).roots.capacity = g.roots.capacity := by
  induction ops generalizing g ks with
  | nil => rfl
  | cons op ops ih => exact (ih (h.step op)).trans (h.capacity_step op)

end Tracks

/-! ### Answers of a run -/

theorem run_append (g : Generation α σ) (before after : List (Op α σ)) :
    g.run (before ++ after) = (g.run before).run after :=
  List.foldl_append

theorem answers_append (g : Generation α σ) (before after : List (Op α σ)) :
    g.answers (before ++ after) = g.answers before ++ (g.run before).answers after := by
  rw [answers_eq_answersWith, answers_eq_answersWith, answers_eq_answersWith, answersWith_append]
  rfl

/-- A retrieval drops no context and answers the number of one. -/
theorem Retrieves.length_le {g g' : Generation α σ} {ks : List RootKey} (h : g.Tracks ks)
    {k : RootKey} {id : Nat} (hstep : Retrieves g k id g') :
    g.contexts.length ≤ g'.contexts.length ∧ id < g'.contexts.length := by
  cases hstep with
  | held hm => exact ⟨Nat.le_refl _, h.id_lt _ _ hm⟩
  | made hk =>
    rw [List.length_append]
    exact ⟨Nat.le_add_right _ _, Nat.lt_succ_self _⟩

theorem length_le_step {g : Generation α σ} {ks : List RootKey} (h : g.Tracks ks) (op : Op α σ) :
    g.contexts.length ≤ (g.step op).2.contexts.length := by
  cases op with
  | put k v => exact Nat.le_refl _
  | get k => exact Nat.le_refl _
  | retrieve k => exact ((retrieve_spec h.isValid k).length_le h).1
  | within id op => exact Nat.le_of_eq List.length_set.symm
  | clear => exact Nat.le_refl _

theorem length_le_run {g : Generation α σ} {ks : List RootKey} (h : g.Tracks ks)
    (ops : List (Op α σ)) : g.contexts.length ≤ (g.run ops).contexts.length := by
  induction ops generalizing g ks with
  | nil => exact Nat.le_refl _
  | cons op ops ih => exact Nat.le_trans (length_le_step h op) (ih (h.step op))

/-- **The numbers answered in a run are those of contexts made in it or before.** -/
theorem lt_of_answered {g : Generation α σ} {ks : List RootKey} (h : g.Tracks ks) {id : Nat} :
    ∀ {ops : List (Op α σ)}, .context id ∈ g.answers ops → id < (g.run ops).contexts.length := by
  intro ops hid
  induction ops generalizing g ks with
  | nil => exact absurd hid List.not_mem_nil
  | cons op ops ih =>
    rw [answers] at hid
    rcases List.mem_cons.mp hid with hid | hid
    · have hlt : id < (g.step op).2.contexts.length := by
        cases op with
        | retrieve k =>
          have hid : id = (g.retrieve k).1 := Answer.context.inj hid
          have hlt := ((retrieve_spec h.isValid k).length_le h).2
          rw [hid]
          exact hlt
        | _ => cases hid
      exact Nat.lt_of_lt_of_le hlt (length_le_run (h.step op) ops)
    · exact ih (h.step op) hid

end TreePath.Generation
