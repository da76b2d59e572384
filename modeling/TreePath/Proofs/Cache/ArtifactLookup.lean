import TreePath.Proofs.Cache.Isolation
import TreePath.Proofs.Cache.PropertyKey

/-! # Artifacts by the identity of their keys

An artifact that was stored for a key is found for every key that is the same, and what is found for
any other key stays what it was, unless storing the artifact evicts it.

* `Lru.Evicts`: putting a key evicts another one.
* `Lru.entries_put`: the entries after a put.
* `Lru.find?_put_self`, `Lru.find?_put_of_evicts`, `Lru.find?_put_of_not_evicts`: what is found in
  them.
* `Generation.identity_of_mem_artifacts`: stored keys are erased ones.
* `Generation.Evicts`: storing an artifact for a key evicts that of another.
* `Generation.artifacts_shared_by_same`: being the same is a lawful comparison of keys, and the store
  of artifacts keeps to it. -/

namespace TreePath

namespace Lru

variable {κ α : Type} [DecidableEq κ]

/-! ### What is found -/

theorem find?_append (k : κ) : ∀ es fs : List (κ × α),
    find? k (es ++ fs) = (find? k es).or (find? k fs)
  | [], _ => rfl
  | e :: es, fs => by
    rw [List.cons_append, find?, find?]
    split_ifs
    · rfl
    · exact find?_append k es fs

theorem find?_without_of_ne {k l : κ} (h : l ≠ k) : ∀ es : List (κ × α),
    find? l (without k es) = find? l es
  | [] => rfl
  | e :: es => by
    have ih := find?_without_of_ne h es
    unfold without at ih ⊢
    by_cases hk : e.1 = k
    · have hl : e.1 ≠ l := fun hl => h (hl.symm.trans hk)
      rw [List.filter_cons_of_neg (by simpa using hk), ih, find?, if_neg hl]
    · rw [List.filter_cons_of_pos (by simpa using hk), find?, find?, ih]

theorem get_fst (c : Lru κ α) (k : κ) : (c.get k).1 = find? k c.entries := by
  unfold get
  rcases find? k c.entries with _ | v <;> rfl

/-- Putting `k` evicts `l`, which was used least recently in a full store without `k`. -/
structure Evicts (c : Lru κ α) (k l : κ) : Prop where
  full : c.size = c.capacity
  absent : k ∉ c.keys
  last : c.keys.getLast? = some l

section Put
variable {c : Lru κ α} (hc : c.IsValid) (hpos : 0 < c.capacity) (k : κ) (v : α)
include hc hpos

theorem entries_put : (c.put k v).entries = (k, v) ::
    if k ∈ c.keys then without k c.entries
    else if c.size = c.capacity then c.entries.dropLast else c.entries := by
  have hput : (c.put k v).entries = used c.capacity k v c.entries := rfl
  have hsize : c.entries.length ≤ c.capacity := hc.size_le
  obtain ⟨n, hn⟩ := Nat.exists_eq_add_of_lt hpos
  rw [hput]
  split_ifs with hk hfull
  · exact used_of_mem hk hsize
  · have hlength : c.entries.length = n + 1 := by
      have h : c.entries.length = c.capacity := hfull
      omega
    rw [used, without_eq_self hk, hn, Nat.zero_add, List.take_succ_cons, List.dropLast_eq_take,
      hlength]
    rfl
  · have hlt : c.entries.length < c.capacity := Nat.lt_of_le_of_ne hsize hfull
    rw [used, without_eq_self hk, List.take_of_length_le (by rw [List.length_cons]; omega)]

theorem find?_put_self : find? k (c.put k v).entries = some v := by
  rw [entries_put hc hpos, find?, if_pos rfl]

variable {l : κ} (hl : l ≠ k)
include hl

theorem find?_put_of_evicts (h : c.Evicts k l) : find? l (c.put k v).entries = none := by
  have hkeys : c.keys = keysOf c.entries.dropLast ++ [l] := by
    have hlast := List.dropLast_append_getLast? l h.last
    rw [keysOf, List.map_dropLast]
    exact hlast.symm
  have hnotMem : l ∉ keysOf c.entries.dropLast := by
    have hnodup := hc.nodup
    rw [hkeys, List.nodup_append] at hnodup
    exact fun hm => hnodup.2.2 l hm l (List.mem_singleton_self l) rfl
  rw [entries_put hc hpos, find?, if_neg (Ne.symm hl), if_neg h.absent, if_pos h.full,
    find?_eq_none_iff]
  exact hnotMem

theorem find?_put_of_not_evicts (h : ¬ c.Evicts k l) :
    find? l (c.put k v).entries = find? l c.entries := by
  rw [entries_put hc hpos, find?, if_neg (Ne.symm hl)]
  split_ifs with hk hfull
  · exact find?_without_of_ne hl c.entries
  · rcases List.eq_nil_or_concat' c.entries with hnil | ⟨front, e, hentries⟩
    · rw [hnil]
      rfl
    have hlast : e.1 ≠ l := by
      rintro rfl
      exact h ⟨hfull, hk, by rw [keys, hentries, List.map_append]; simp⟩
    rw [hentries, List.dropLast_concat, find?_append, find?, if_neg hlast, find?, Option.or_none]
  · rfl

end Put

/-- Every key that is stored after a run was used in it. -/
theorem exists_use_of_mem_keys {capacity : Nat} {ops : List (Op κ α)} {k : κ}
    (h : k ∈ ((new capacity : Lru κ α).run ops).keys) : ∃ op ∈ ops, ∃ a, op.use? a = some k := by
  rw [(reflects_run capacity ops).keys_eq] at h
  have huses : k ∈ uses ((new capacity).history ops) :=
    List.mem_eraseDups.mp (List.mem_of_mem_take h)
  obtain ⟨⟨op, a⟩, he, huse⟩ := List.mem_filterMap.mp huses
  have hmem := (List.takeWhile_sublist _).subset he
  exact ⟨op, (List.of_mem_zip (List.mem_reverse.mp hmem)).1, a, huse⟩

end Lru

namespace Generation

variable {α σ : Type}

/-! ### Artifacts -/

theorem exists_identity_of_use {op : Op α σ} {storeOp : Lru.Op PropertyKey α} {a : Lru.Answer α}
    {k : PropertyKey} (hop : op.artifact? = some storeOp) (huse : storeOp.use? a = some k) :
    ∃ l : PropertyKey, k = l.identity := by
  cases op with
  | put l v =>
    cases hop
    exact ⟨l, (Option.some.inj huse).symm⟩
  | get l =>
    cases hop
    -- Only a lookup that finds its key uses it.
    cases a with
    | found v =>
      rcases v with _ | v
      · cases huse
      · exact ⟨l, (Option.some.inj huse).symm⟩
    | _ => cases huse
  | clear =>
    cases hop
    cases huse
  | _ => cases hop

/-- Stored keys are erased ones. -/
theorem identity_of_mem_artifacts {m n : Nat} {ops : List (Op α σ)} {k : PropertyKey}
    (h : k ∈ ((new m n : Generation α σ).run ops).artifacts.keys) : k.identity = k := by
  rw [(artifacts_run (new m n) ops).1] at h
  obtain ⟨storeOp, hmem, a, huse⟩ := Lru.exists_use_of_mem_keys h
  obtain ⟨op, -, hop⟩ := List.mem_filterMap.mp hmem
  obtain ⟨l, rfl⟩ := exists_identity_of_use hop huse
  exact l.identity_identity

theorem isValid_artifacts_run (m n : Nat) (ops : List (Op α σ)) :
    ((new m n : Generation α σ).run ops).artifacts.IsValid := by
  rw [(artifacts_run (new m n) ops).1]
  exact Lru.isValid_run (Lru.isValid_new m) _

theorem capacity_artifacts_run (m n : Nat) (ops : List (Op α σ)) :
    ((new m n : Generation α σ).run ops).artifacts.capacity = m := by
  rw [(artifacts_run (new m n) ops).1]
  exact Lru.capacity_run (Lru.isValid_new m) _

/-- Storing an artifact for `a` evicts that of `b`: the store is full, holds no key that is the same
as `a`, and of its keys the one used least recently is the same as `b`. -/
structure Evicts (g : Generation α σ) (a b : PropertyKey) : Prop where
  full : g.artifacts.size = g.artifacts.capacity
  absent : ∀ k ∈ g.artifacts.keys, ¬ k.same a
  last : ∃ k, g.artifacts.keys.getLast? = some k ∧ k.same b

theorem evicts_iff {m n : Nat} {ops : List (Op α σ)} {a b : PropertyKey} :
    ((new m n : Generation α σ).run ops).Evicts a b ↔
      ((new m n : Generation α σ).run ops).artifacts.Evicts a.identity b.identity := by
  have hsame : ∀ k ∈ ((new m n : Generation α σ).run ops).artifacts.keys, ∀ l : PropertyKey,
      k.same l ↔ k = l.identity := fun k hk l => by
    rw [PropertyKey.same_iff, identity_of_mem_artifacts hk]
  constructor
  · rintro ⟨hfull, habsent, k, hlast, hk⟩
    have hmem := List.mem_of_getLast? hlast
    refine ⟨hfull, fun ha => ?_, ?_⟩
    · exact habsent _ ha ((hsame _ ha a).mpr rfl)
    · rw [hlast, (hsame k hmem b).mp hk]
  · rintro ⟨hfull, habsent, hlast⟩
    have hmem := List.mem_of_getLast? hlast
    refine ⟨hfull, fun k hk hka => ?_, b.identity, hlast, (hsame _ hmem b).mpr rfl⟩
    rw [(hsame k hk a).mp hka] at hk
    exact habsent hk

theorem getArtifact_fst (g : Generation α σ) (k : PropertyKey) :
    (g.getArtifact k).1 = Lru.find? k.identity g.artifacts.entries :=
  g.artifacts.get_fst k.identity

/-- **Artifacts are shared by the same keys.** Keys are the same if and only if they are equal up to
sequence numbers, which is an equivalence and depends on type, name and annotations in their order,
at every level; the same keys feed the same data to a hash.

So in a cache with room for an artifact, after any run, an artifact just stored is found for every
key that is the same as its own. For any other key there is found what was there before, unless
that was evicted. -/
theorem artifacts_shared_by_same :
    (∀ a b : PropertyKey, a.same b ↔ a.identity = b.identity) ∧
    (Equivalence fun a b : PropertyKey => a.same b = true) ∧
    (∀ a b : PropertyKey, a.same b ↔ a.levels = b.levels) ∧
    (∀ a b : PropertyKey, a.same b → a.digest = b.digest) ∧
    ∀ (m n : Nat) (ops : List (Op α σ)) (a b : PropertyKey) (v : α), 1 ≤ m →
      let g := (new m n : Generation α σ).run ops
      let found := ((g.putArtifact a v).getArtifact b).1
      (a.same b → found = some v) ∧
      (¬ a.same b → g.Evicts a b → found = none) ∧
      (¬ a.same b → ¬ g.Evicts a b → found = (g.getArtifact b).1) := by
  refine ⟨fun _ _ => PropertyKey.same_iff, PropertyKey.equivalence_same,
    fun _ _ => PropertyKey.same_iff_levels, fun _ _ => PropertyKey.digest_eq_of_same,
    fun m n ops a b v hm => ?_⟩
  intro g found
  have hvalid : g.artifacts.IsValid := isValid_artifacts_run m n ops
  have hpos : 0 < g.artifacts.capacity := by
    have hcapacity : g.artifacts.capacity = m := capacity_artifacts_run m n ops
    omega
  have hfound : found = Lru.find? b.identity (g.artifacts.put a.identity v).entries :=
    getArtifact_fst (g.putArtifact a v) b
  have hne : ¬ a.same b → b.identity ≠ a.identity := fun hab hid =>
    hab (PropertyKey.same_iff.mpr hid.symm)
  rw [hfound]
  refine ⟨fun hab => ?_, fun hab hevicts => ?_, fun hab hevicts => ?_⟩
  · rw [← PropertyKey.same_iff.mp hab]
    exact Lru.find?_put_self hvalid hpos _ v
  · exact Lru.find?_put_of_evicts hvalid hpos _ v (hne hab) (evicts_iff.mp hevicts)
  · rw [getArtifact_fst]
    exact Lru.find?_put_of_not_evicts hvalid hpos _ v (hne hab) fun h => hevicts (evicts_iff.mpr h)

/-- Values of the map of a value of a map share an artifact. With room for one it evicts that of
another property, with room for two that stays. -/
theorem artifacts_shared_by_same_nested :
    let score (i j : UInt64) : PropertyKey :=
      .mapValue "Int" ["Min"] (.mapValue "Map" [] (.named "Map" "scores") i) j
    let title := PropertyKey.named "String" "title"
    let g (m : Nat) := (new m 0 : Generation Nat Nat).run [.put title 7]
    (score 0 1).same (score 5 6) ∧ (score 0 1).levels = (score 5 6).levels ∧
      (score 0 1).digest = (score 5 6).digest ∧ (score 5 6).same (score 0 1) ∧
      ¬ (score 0 1).same title ∧ (g 1).Evicts (score 0 1) title ∧ ¬ (g 2).Evicts (score 0 1) title ∧
      (((g 1).putArtifact (score 0 1) 8).getArtifact (score 5 6)).1 = some 8 ∧
      (((g 1).putArtifact (score 0 1) 8).getArtifact title).1 = none ∧
      (((g 2).putArtifact (score 0 1) 8).getArtifact title).1 = some 7 := by
  intro score title g
  obtain ⟨hidentity, hequivalence, hlevels, hdigest, hfound⟩ := @artifacts_shared_by_same Nat Nat
  have hsame : (score 0 1).same (score 5 6) := (hidentity _ _).mpr rfl
  have hother : ¬ (score 0 1).same title := by decide
  have hevicts : (g 1).Evicts (score 0 1) title :=
    ⟨by decide, by decide, title, by decide, by decide⟩
  have hkeeps : ¬ (g 2).Evicts (score 0 1) title := fun h => absurd h.full (by decide)
  obtain ⟨hshared, -, -⟩ := hfound 1 0 [.put title 7] (score 0 1) (score 5 6) 8 (by decide)
  obtain ⟨-, hevicted, -⟩ := hfound 1 0 [.put title 7] (score 0 1) title 8 (by decide)
  obtain ⟨-, -, hkept⟩ := hfound 2 0 [.put title 7] (score 0 1) title 8 (by decide)
  exact ⟨hsame, (hlevels _ _).mp hsame, hdigest _ _ hsame, hequivalence.symm hsame, hother, hevicts,
    hkeeps, hshared hsame, hevicted hother hevicts, (hkept hother hkeeps).trans (by decide)⟩

end Generation

end TreePath
