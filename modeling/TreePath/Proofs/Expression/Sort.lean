import TreePath.Proofs.Expression.Order

/-! # Sorting by the canonical order

The canonical order has cycles, so it sorts only lists among whose expressions it is transitive. On
such a list the sort puts nothing behind something larger and leaves in place what ties.

* `pairwise_mergeSort_of_mem`, `filter_mergeSort_of_mem`: it is enough that an order is transitive
  among the elements of the list.
* `Expression.AgreeOnNames`: expressions of one length have the same names in the same places. Among
  these the order is transitive, and an expression ties with itself only.
* `Expression.sortCanonical_eq_of_perm`: their sorted list does not depend on how they are given. -/

namespace TreePath

/-! ### Orders that are transitive on a list -/

section Merge
variable {α : Type} {le : α → α → Bool} {l : List α}

/-- The sort of a list compares its elements only. -/
theorem map_mergeSort_attach (le : α → α → Bool) (l : List α) :
    (l.attach.mergeSort fun a b => le a.1 b.1).map Subtype.val = l.mergeSort le := by
  have hle : ∀ a ∈ l.attach, ∀ b ∈ l.attach, le a.1 b.1 = le a.val b.val := fun _ _ _ _ => rfl
  rw [List.map_mergeSort hle, List.attach_map_subtype_val]

variable (htrans : ∀ a ∈ l, ∀ b ∈ l, ∀ c ∈ l, le a b → le b c → le a c)
  (htotal : ∀ a b, le a b || le b a)
include htrans htotal

theorem pairwise_mergeSort_of_mem : (l.mergeSort le).Pairwise fun a b => le a b := by
  -- The library's lemma is about orders that are transitive everywhere: on the members of `l` it is.
  have htrans' : ∀ a b c : {a // a ∈ l}, le a.1 b.1 → le b.1 c.1 → le a.1 c.1 :=
    fun a b c => htrans a a.2 b b.2 c c.2
  have htotal' : ∀ a b : {a // a ∈ l}, le a.1 b.1 || le b.1 a.1 := fun a b => htotal a b
  rw [← map_mergeSort_attach, List.pairwise_map]
  exact List.pairwise_mergeSort htrans' htotal' l.attach

theorem sublist_mergeSort_of_mem {ys : List α} (hys : ys.Pairwise fun a b => le a b)
    (hsub : ys.Sublist l) : ys.Sublist (l.mergeSort le) := by
  rw [← l.attach_map_subtype_val, List.sublist_map_iff] at hsub
  obtain ⟨zs, hzs, rfl⟩ := hsub
  have htrans' : ∀ a b c : {a // a ∈ l}, le a.1 b.1 → le b.1 c.1 → le a.1 c.1 :=
    fun a b c => htrans a a.2 b b.2 c c.2
  have htotal' : ∀ a b : {a // a ∈ l}, le a.1 b.1 || le b.1 a.1 := fun a b => htotal a b
  rw [← map_mergeSort_attach]
  exact (List.sublist_mergeSort htrans' htotal' (List.pairwise_map.mp hys) hzs).map Subtype.val

/-- What is in order already keeps its order, whatever stands in between. -/
theorem filter_mergeSort_of_mem {p : α → Bool} (hp : (l.filter p).Pairwise fun a b => le a b) :
    (l.mergeSort le).filter p = l.filter p := by
  have hsub : ((l.filter p).filter p).Sublist ((l.mergeSort le).filter p) :=
    (sublist_mergeSort_of_mem htrans htotal hp List.filter_sublist).filter p
  have hall : (l.filter p).filter p = l.filter p := by
    rw [List.filter_eq_self]
    exact fun a ha => (List.mem_filter.mp ha).2
  have hlength := ((List.mergeSort_perm l le).filter p).length_eq
  rw [hall] at hsub
  exact (hsub.eq_of_length hlength.symm).symm

end Merge

/-! ### What ties -/

instance : Std.LawfulEqCmp Selector.reverseOrder where
  eq_of_compare {i j} h := by
    cases i <;> cases j
    case wildcard.wildcard => rfl
    case position.position i j =>
      have hval : j.toNat = i.toNat := Nat.compare_eq_eq.mp h
      rw [UInt64.toNat_inj.mp hval]
    all_goals cases h

theorem Segment.eq_of_canonical_eq {a b : Segment} (hname : a.name = b.name)
    (h : a.canonical b = .eq) : a = b := by
  rw [canonical_of_name_eq hname] at h
  have hindices : a.indices = b.indices := Std.LawfulEqCmp.eq_of_compare h
  obtain ⟨name, indices⟩ := a
  cases hname
  cases hindices
  rfl

theorem eq_of_segmentsCanonical_eq : ∀ {as bs : List Segment},
    as.map Segment.name = bs.map Segment.name → segmentsCanonical as bs = .eq → as = bs
  | [], [], _, _ => rfl
  | a :: as, b :: bs, hnames, h => by
    obtain ⟨hname, hnames⟩ := List.cons.inj hnames
    rw [segmentsCanonical, Ordering.then_eq_eq] at h
    rw [Segment.eq_of_canonical_eq hname h.1, eq_of_segmentsCanonical_eq hnames h.2]

theorem haveAlikeNames_self (xs : List String) : HaveAlikeNames xs xs xs := by
  intro i x y z hx hy hz
  rw [hx] at hy hz
  exact .inl ⟨Option.some.inj hy, (Option.some.inj hy).symm.trans (Option.some.inj hz)⟩

namespace Expression

/-- Expressions of one length have the same names in the same places. -/
def AgreeOnNames (es : List Expression) : Prop :=
  ∀ a ∈ es, ∀ b ∈ es, a.length = b.length → a.names = b.names

instance (es : List Expression) : Decidable (AgreeOnNames es) := by
  unfold AgreeOnNames; infer_instance

theorem isLE_total (a b : Expression) : (a.canonical b).isLE || (b.canonical a).isLE := by
  rw [canonical_swap a b]
  rcases a.canonical b with _ | _ | _ <;> rfl

theorem length_le_of_isLE {a b : Expression} (h : (a.canonical b).isLE) : a.length ≤ b.length := by
  rw [canonical, Ordering.isLE_then_iff_and] at h
  exact Nat.isLE_compare.mp h.1

section Batch
variable {es : List Expression} (hes : AgreeOnNames es) {a b c : Expression}
include hes

theorem AgreeOnNames.perm {ds : List Expression} (hp : ds.Perm es) : AgreeOnNames ds :=
  fun a ha b hb => hes a (hp.subset ha) b (hp.subset hb)

theorem AgreeOnNames.isLE_trans (ha : a ∈ es) (hb : b ∈ es) (hc : c ∈ es)
    (hab : (a.canonical b).isLE) (hbc : (b.canonical c).isLE) : (a.canonical c).isLE := by
  have hnames : a.length = b.length → b.length = c.length →
      HaveAlikeNames a.names b.names c.names := by
    intro hlab hlbc
    rw [hes a ha b hb hlab, hes b hb c hc hlbc]
    exact haveAlikeNames_self c.names
  rw [chains_canonical hnames hab hbc, Ordering.isLE_then_iff_and]
  exact ⟨hab, .inr hbc⟩

theorem AgreeOnNames.canonical_eq_iff (ha : a ∈ es) (hb : b ∈ es) :
    a.canonical b = .eq ↔ a = b := by
  constructor
  · intro h
    rw [canonical, Ordering.then_eq_eq] at h
    have hnames := hes a ha b hb (Nat.compare_eq_eq.mp h.1)
    exact congrArg Expression.mk (eq_of_segmentsCanonical_eq hnames h.2)
  · rintro rfl
    exact canonical_self a

theorem AgreeOnNames.antisymm (ha : a ∈ es) (hb : b ∈ es) (hab : (a.canonical b).isLE)
    (hba : (b.canonical a).isLE) : a = b := by
  rw [canonical_swap a b] at hba
  refine (hes.canonical_eq_iff ha hb).mp ?_
  rcases h : a.canonical b with _ | _ | _
  · rw [h] at hba; cases hba
  · rfl
  · rw [h] at hab; cases hab

/-! ### The sorted list -/

theorem pairwise_sortCanonical : (sortCanonical es).Pairwise fun a b => (a.canonical b).isLE :=
  pairwise_mergeSort_of_mem (fun _ ha _ hb _ hc => hes.isLE_trans ha hb hc) isLE_total

/-- **A permutation of the expressions that is in order is the sorted list.** -/
theorem eq_sortCanonical {ds : List Expression} (hp : ds.Perm es)
    (hds : ds.Pairwise fun a b => (a.canonical b).isLE) : ds = sortCanonical es := by
  have hperm : (sortCanonical es).Perm es := List.mergeSort_perm es _
  refine List.Perm.eq_of_pairwise ?_ hds (pairwise_sortCanonical hes) (hp.trans hperm.symm)
  intro a b ha hb
  exact hes.antisymm (hp.subset ha) (hperm.subset hb)

theorem sortCanonical_eq_of_perm {ds : List Expression} (hp : ds.Perm es) :
    sortCanonical ds = sortCanonical es :=
  eq_sortCanonical hes ((List.mergeSort_perm ds _).trans hp)
    (pairwise_sortCanonical (hes.perm hp))

end Batch

end Expression

end TreePath
