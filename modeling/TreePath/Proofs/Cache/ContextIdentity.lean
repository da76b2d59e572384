import TreePath.Proofs.Cache.Generation
import TreePath.Proofs.Cache.PropertyKey
import Mathlib.Data.Finset.Card
import Mathlib.Data.Finset.Dedup

/-! # When a root keeps its context

Two retrievals of one root with no other of it in between get the same context exactly if the cache
was not cleared between them and fewer different roots were retrieved than contexts fit. Artifacts
and what is done in contexts do not count, and a root retrieved often counts once. Otherwise the
second retrieval makes a new context.

* `Generation.distinctRoots`: the roots that operations retrieve, each once.
* `Generation.mem_keys_run_iff`: a root just retrieved is still stored after further operations.
* `Generation.MakesNew`: a retrieval makes a context that was not known before.
* `Generation.retrieve_same_iff`: the exact condition, for every run. -/

namespace TreePath.Generation

variable {α σ : Type}

/-! ### Roots of operations -/

/-- The root that an operation retrieves, up to sequence numbers. -/
def Op.root? : Op α σ → Option RootKey
  | .retrieve k => some k.identity
  | _ => none

/-- The roots that operations retrieve, in order. -/
def rootsOf (ops : List (Op α σ)) : List RootKey := ops.filterMap Op.root?

/-- The different roots that operations retrieve. -/
def distinctRoots (ops : List (Op α σ)) : Finset RootKey := (rootsOf ops).toFinset

theorem rootsOf_cons (op : Op α σ) (ops : List (Op α σ)) :
    rootsOf (op :: ops) = op.root?.toList ++ rootsOf ops := by
  unfold rootsOf
  rw [List.filterMap_cons]
  rcases op.root? with _ | k <;> rfl

theorem mem_rootsOf {l : RootKey} {ops : List (Op α σ)} :
    l ∈ rootsOf ops ↔ ∃ k, .retrieve k ∈ ops ∧ k.identity = l := by
  unfold rootsOf
  rw [List.mem_filterMap]
  constructor
  · rintro ⟨op, hop, hl⟩
    cases op with
    | retrieve k => exact ⟨k, hop, Option.some.inj hl⟩
    | _ => cases hl
  · rintro ⟨k, hk, rfl⟩
    exact ⟨.retrieve k, hk, rfl⟩

/-- Without a clearing all roots stay recent. -/
theorem foldl_recent : ∀ {ops : List (Op α σ)} {ks : List RootKey}, .clear ∉ ops →
    ops.foldl Op.recent ks = (rootsOf ops).reverse ++ ks
  | [], _, _ => rfl
  | op :: ops, ks, h => by
    obtain ⟨hop, hops⟩ := not_or.mp (List.mem_cons.not.mp h)
    rw [List.foldl_cons, foldl_recent hops, rootsOf_cons, List.reverse_append, List.append_assoc]
    cases op with
    | clear => exact absurd rfl hop
    | _ => rfl

/-- After a clearing only the roots retrieved since are recent. -/
theorem mem_rootsOf_of_mem_foldl_recent {l : RootKey} : ∀ {ops : List (Op α σ)} {ks : List RootKey},
    .clear ∈ ops → l ∈ ops.foldl Op.recent ks → l ∈ rootsOf ops
  | op :: ops, ks, hclear, hl => by
    rw [rootsOf_cons]
    refine List.mem_append_right _ ?_
    by_cases hops : .clear ∈ ops
    · exact mem_rootsOf_of_mem_foldl_recent hops hl
    · have hop : .clear = op := (List.mem_cons.mp hclear).resolve_right hops
      subst hop
      rwa [List.foldl_cons, foldl_recent hops, Op.recent, List.append_nil, List.mem_reverse] at hl

/-! ### Roots that are still stored -/

theorem length_eraseDups_reverse (ks : List RootKey) :
    ks.reverse.eraseDups.length = ks.toFinset.card := by
  rw [← List.toFinset_card_of_nodup (Lru.nodup_eraseDups ks.reverse)]
  congr 1
  ext l
  simp

/-- Of some keys and older ones, the first of the older ones is among the first `n` distinct keys
exactly if the newer ones do not fill them. -/
theorem mem_take_eraseDups_iff {k : RootKey} {news olds : List RootKey} (hk : k ∉ news) (n : Nat) :
    k ∈ (news ++ k :: olds).eraseDups.take n ↔ news.eraseDups.length < n := by
  have hk' : k ∉ news.eraseDups := fun hm => hk (List.mem_eraseDups.mp hm)
  have hremove : (k :: olds).removeAll news = k :: olds.removeAll news := by
    rw [List.cons_removeAll, if_pos (by simpa using hk)]
  -- The distinct keys are those of `news`, then `k`, then the others.
  rw [List.eraseDups_append, hremove, List.eraseDups_cons]
  rcases Nat.lt_or_ge news.eraseDups.length n with hlt | hge
  · refine iff_of_true ?_ hlt
    obtain ⟨m, rfl⟩ := Nat.exists_eq_add_of_lt hlt
    rw [List.take_append, Nat.add_assoc, Nat.add_sub_cancel_left, List.take_succ_cons]
    exact List.mem_append_right _ List.mem_cons_self
  · refine iff_of_false (fun hm => ?_) (Nat.not_lt.mpr hge)
    rw [List.take_append_of_le_length hge] at hm
    exact hk' (List.mem_of_mem_take hm)

/-- **A root just retrieved is still stored** after operations that do not retrieve it exactly if they
do not clear the cache and retrieve fewer different roots than fit. -/
theorem mem_keys_run_iff {g : Generation α σ} {k : RootKey} {ks : List RootKey}
    (h : g.Tracks (k :: ks)) {ops : List (Op α σ)} (hk : k ∉ rootsOf ops) :
    k ∈ (g.run ops).roots.keys ↔
      .clear ∉ ops ∧ (distinctRoots ops).card < g.roots.capacity := by
  rw [(h.run ops).keys_eq, h.capacity_run ops]
  by_cases hclear : .clear ∈ ops
  · refine iff_of_false (fun hm => hk ?_) fun hno => hno.1 hclear
    exact mem_rootsOf_of_mem_foldl_recent hclear (List.mem_eraseDups.mp (List.mem_of_mem_take hm))
  · have hnews : k ∉ (rootsOf ops).reverse := fun hm => hk (List.mem_reverse.mp hm)
    rw [foldl_recent hclear, mem_take_eraseDups_iff hnews, length_eraseDups_reverse]
    exact ⟨fun hlt => ⟨hclear, hlt⟩, fun hlt => hlt.2⟩

/-- Operations that do not retrieve a root give it no other context. -/
theorem mem_entries_of_step {g : Generation α σ} {ks : List RootKey} (h : g.Tracks ks)
    {op : Op α σ} {k : RootKey} {id : Nat} (hop : op.root? ≠ some k)
    (hm : (k, id) ∈ (g.step op).2.roots.entries) : (k, id) ∈ g.roots.entries := by
  cases op with
  | retrieve l =>
    have hne : k ≠ l.identity := fun hkl => hop (congrArg some hkl.symm)
    exact (retrieve_spec h.isValid l).mem_entries hne hm
  | clear => exact absurd hm List.not_mem_nil
  | _ => exact hm

theorem mem_entries_of_run {g : Generation α σ} {ks : List RootKey} (h : g.Tracks ks)
    {ops : List (Op α σ)} {k : RootKey} {id : Nat} (hk : k ∉ rootsOf ops)
    (hm : (k, id) ∈ (g.run ops).roots.entries) : (k, id) ∈ g.roots.entries := by
  induction ops generalizing g ks with
  | nil => exact hm
  | cons op ops ih =>
    rw [rootsOf_cons, List.mem_append, Option.mem_toList, not_or] at hk
    exact mem_entries_of_step h hk.1 (ih (h.step op) hk.2 hm)

/-! ### New contexts -/

/-- The retrieval of a root after a run makes a new context: one whose number was not answered in the
run, and which is empty. -/
def MakesNew (g : Generation α σ) (ops : List (Op α σ)) (k : RootKey) : Prop :=
  .context ((g.run ops).retrieve k).1 ∉ g.answers ops ∧
    ((g.run ops).retrieve k).2.context ((g.run ops).retrieve k).1 = .empty

/-- A root that is not stored gets a new context. -/
theorem makesNew_of_notMem {g : Generation α σ} {ks : List RootKey} (h : g.Tracks ks)
    {ops : List (Op α σ)} {k : RootKey} (hk : k.identity ∉ (g.run ops).roots.keys) :
    g.MakesNew ops k := by
  have hstep := retrieve_spec (h.run ops).isValid k
  have hid := hstep.eq_length hk
  refine ⟨fun hanswered => ?_, ?_⟩
  · rw [hid] at hanswered
    exact Nat.lt_irrefl _ (lt_of_answered h hanswered)
  · rw [hstep.context_eq, hid]
    exact List.getD_eq_default _ _ (Nat.le_refl _)

/-- A root that is still stored gets the context that it got before. -/
theorem retrieve_eq_of_stored {g g' : Generation α σ} {ks : List RootKey} {k k' : RootKey} {id : Nat}
    {ops : List (Op α σ)} (h : g'.Tracks ks) (hfirst : Retrieves g k id g')
    (hidentity : k'.identity = k.identity) (hother : k.identity ∉ rootsOf ops)
    (hk : k.identity ∈ (g'.run ops).roots.keys) : ((g'.run ops).retrieve k').1 = id := by
  have hsecond := retrieve_spec (h.run ops).isValid k'
  rw [← hidentity] at hk
  have hm := hsecond.mem_of_stored hk
  rw [hidentity] at hm
  exact hfirst.id_eq (mem_entries_of_run h hother hm)

theorem run_retrieve (g : Generation α σ) (before between : List (Op α σ)) (k : RootKey) :
    g.run (before ++ .retrieve k :: between) = ((g.run before).retrieve k).2.run between :=
  run_append g before _

section TwoRetrievals
variable {g : Generation α σ} {ks : List RootKey} (h : g.Tracks ks) (before : List (Op α σ))
  {between : List (Op α σ)} {k k' : RootKey} (hother : k.identity ∉ rootsOf between)
include h hother

/-- A root retrieved before is stored at its next retrieval exactly if there was room for it all the
time. -/
theorem stored_iff : k.identity ∈ (g.run (before ++ .retrieve k :: between)).roots.keys ↔
    .clear ∉ between ∧ (distinctRoots between).card < g.roots.capacity := by
  have hbefore := h.run before
  have hmid := hbefore.retrieves (retrieve_spec hbefore.isValid k)
  have hcapacity : ((g.run before).retrieve k).2.roots.capacity = g.roots.capacity :=
    (hbefore.capacity_step (.retrieve k)).trans (h.capacity_run before)
  have hstored := mem_keys_run_iff hmid hother
  rwa [hcapacity, ← run_retrieve] at hstored

/-- The second retrieval of a root answers the context of the first exactly if the root is stored. -/
theorem retrieve_eq_iff_stored (hidentity : k'.identity = k.identity) :
    ((g.run (before ++ .retrieve k :: between)).retrieve k').1 = ((g.run before).retrieve k).1 ↔
      k.identity ∈ (g.run (before ++ .retrieve k :: between)).roots.keys := by
  have hbefore := h.run before
  have hfirst := retrieve_spec hbefore.isValid k
  constructor
  -- A new context would have a number that was not answered before, but the first one was.
  · intro heq
    by_contra hk
    rw [← hidentity] at hk
    have hanswered : .context ((g.run before).retrieve k).1 ∈
        g.answers (before ++ .retrieve k :: between) := by
      rw [answers_append]
      exact List.mem_append_right _ List.mem_cons_self
    rw [← heq] at hanswered
    exact (makesNew_of_notMem h hk).1 hanswered
  · intro hk
    rw [run_retrieve] at hk ⊢
    exact retrieve_eq_of_stored (hbefore.retrieves hfirst) hfirst hidentity hother hk

end TwoRetrievals

/-- **When two retrievals get the same context.** Of two retrievals of one root in a run, with no
other of that root between them, the second answers the context of the first exactly if the cache was
not cleared between them and fewer different roots were retrieved than contexts fit. Otherwise it
answers a new context, which is empty. Without room for contexts every retrieval does. -/
theorem retrieve_same_iff (artifactCapacity contextCapacity : Nat) (before between : List (Op α σ))
    {k k' : RootKey} (hsame : k.same k') (hbetween : ∀ l, .retrieve l ∈ between → ¬ k.same l) :
    let start : Generation α σ := new artifactCapacity contextCapacity
    let first := ((start.run before).retrieve k).1
    let second := ((start.run (before ++ .retrieve k :: between)).retrieve k').1
    (second = first ↔ .clear ∉ between ∧ (distinctRoots between).card < contextCapacity) ∧
    (second ≠ first → start.MakesNew (before ++ .retrieve k :: between) k') ∧
    (contextCapacity = 0 → ∀ ops l, start.MakesNew ops l) := by
  intro start first second
  have hidentity : k'.identity = k.identity := (RootKey.same_iff.mp hsame).symm
  have hother : k.identity ∉ rootsOf between := fun hm => by
    obtain ⟨l, hl, hlk⟩ := mem_rootsOf.mp hm
    exact hbetween l hl (RootKey.same_iff.mpr hlk.symm)
  have hstart : start.Tracks [] := tracks_new artifactCapacity contextCapacity
  have hiff := retrieve_eq_iff_stored hstart before hother hidentity
  refine ⟨hiff.trans (stored_iff hstart before hother), fun hne => ?_, fun hzero ops l => ?_⟩
  · have hk := mt hiff.mpr hne
    rw [← hidentity] at hk
    exact makesNew_of_notMem hstart hk
  · have hkeys := (hstart.run ops).keys_eq
    rw [hstart.capacity_run ops, show start.roots.capacity = 0 from hzero, List.take_zero] at hkeys
    exact makesNew_of_notMem hstart (by rw [hkeys]; exact List.not_mem_nil)

/-- Room for two contexts: another root retrieved twice counts once, and so the value of a map keeps
its context, whatever its sequence number. -/
theorem retrieve_same_iff_repeated :
    let map : PropertyKey := .named "Map" "scores"
    let k : RootKey := ⟨.ofMap map "Int" 0⟩
    let k' : RootKey := ⟨.ofMap map "Int" 7⟩
    let user := RootKey.ofType "User"
    let between : List (Op Nat Nat) := [.retrieve user, .put map 1, .within 0 .paths, .retrieve user]
    let start : Generation Nat Nat := new 1 2
    k.same k' ∧ (∀ l, .retrieve l ∈ between → ¬ k.same l) ∧ .clear ∉ between ∧
      (distinctRoots between).card = 1 ∧
      ((start.run (.get map :: .retrieve k :: between)).retrieve k').1 =
        ((start.run [.get map]).retrieve k).1 := by
  intro map k k' user between start
  have hsame : k.same k' := by decide
  have hbetween : ∀ l, .retrieve l ∈ between → ¬ k.same l := by
    intro l hl
    have hl : l = user := by simpa [between] using hl
    rw [hl]
    decide
  have hclear : .clear ∉ between := by decide
  have hcard : (distinctRoots between).card = 1 := by decide
  have hiff := (retrieve_same_iff 1 2 [.get map] between hsame hbetween).1
  exact ⟨hsame, hbetween, hclear, hcard, hiff.mpr ⟨hclear, by rw [hcard]; decide⟩⟩

end TreePath.Generation
