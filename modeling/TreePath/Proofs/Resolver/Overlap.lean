import TreePath.Proofs.Resolver.Shape

/-! # Expressions that overlap

Expressions of the same shape overlap if they agree step by step, up to wildcards on either side.
This is what it takes for them to select a common node. If they overlap, then they do so in a tree of
a single branch, with a child for each step whose name and position pass both predicates of the step.
Conversely, every node on the way to a common node passes both predicates of its step. If it has a
position and a name other than the wildcard, the two predicates agree on these; a node without them
would pass every predicate and tell nothing.

* `Predicate.Meets`: some node with a name and a position passes both predicates.
* `exists_common_way`: predicates that meet one by one lead to a common node of some tree.
* `meets_of_isWay`: predicates that lead to a common node meet one by one.
* `Resolver.overlaps_iff_selects_common`: overlap is selecting a common node of some tree. -/

namespace TreePath

/-! ### Nodes with a name and a position -/

namespace Node

/-- With a position and a name other than the wildcard. -/
structure IsLabelled (n : Node) : Prop where
  position : ∃ i, n.position = some i
  name : ∃ m, n.name = some m ∧ m ≠ wildcardText

/-- Every node below is labelled. -/
def IsLabelledBelow (n : Node) : Prop := ∀ way m, way ≠ [] → n.at? way = some m → m.IsLabelled

theorem isLabelledBelow_iff {n : Node} :
    n.IsLabelledBelow ↔ ∀ (i : Nat) c, n.children[i]? = some c → c.IsLabelled ∧ c.IsLabelledBelow := by
  constructor
  · intro h i c hc
    refine ⟨h [i] c (by simp) (at?_cons_eq_some.mpr ⟨c, hc, rfl⟩), fun way m _ hm => ?_⟩
    exact h (i :: way) m (by simp) (at?_cons_eq_some.mpr ⟨c, hc, hm⟩)
  · intro h way m hway hm
    rcases way with _ | ⟨i, rest⟩
    · exact absurd rfl hway
    obtain ⟨c, hc, hm⟩ := at?_cons_eq_some.mp hm
    obtain ⟨hlabelled, hbelow⟩ := h i c hc
    by_cases hrest : rest = []
    · subst hrest
      cases hm
      exact hlabelled
    · exact hbelow rest m hrest hm

theorem isLabelledBelow_of_children_eq_nil {n : Node} (h : n.children = []) :
    n.IsLabelledBelow := by
  rw [isLabelledBelow_iff, h]
  intro i c hc
  cases hc

theorem isLabelledBelow_of_children_eq_singleton {n c : Node} (h : n.children = [c])
    (hc : c.IsLabelled) (hbelow : c.IsLabelledBelow) : n.IsLabelledBelow := by
  rw [isLabelledBelow_iff, h]
  intro i d hd
  rcases i with _ | i
  · cases hd
    exact ⟨hc, hbelow⟩
  · cases hd

end Node

/-! ### Predicates that meet -/

namespace Predicate

/-- Some labelled node passes both. -/
def Meets (q r : Predicate) : Prop :=
  ∃ n : Node, n.IsLabelled ∧ q.test n = true ∧ r.test n = true

theorem test_name_iff {x m : String} {n : Node} (hname : n.name = some m) (hm : m ≠ wildcardText) :
    (Predicate.name x).test n = true ↔ x = m ∨ x = wildcardText := by
  rw [test, hname]
  simp [namesOverlap, hm]

theorem test_index_iff {s : Selector} {i : UInt64} {n : Node} (hposition : n.position = some i) :
    (Predicate.index s).test n = true ↔ s = .position i ∨ s = .wildcard := by
  rw [test, hposition]
  cases s <;> simp [Selector.selects]

/-- A predicate looks at nothing but name and position. -/
theorem test_congr {n m : Node} (hname : n.name = m.name) (hposition : n.position = m.position)
    (q : Predicate) : q.test n = q.test m := by
  cases q with
  | name x => rw [test, test, hname]
  | index s => rw [test, test, hposition]

theorem meets_name_iff {x y : String} :
    (Predicate.name x).Meets (.name y) ↔ namesOverlap x y = true := by
  have hoverlap : namesOverlap x y = true ↔ (x = y ∨ x = wildcardText) ∨ y = wildcardText := by
    simp [namesOverlap]
  rw [hoverlap]
  constructor
  · rintro ⟨n, ⟨-, m, hname, hm⟩, hx, hy⟩
    rw [test_name_iff hname hm] at hx hy
    obtain rfl | hx := hx
    · obtain rfl | hy := hy
      · exact .inl (.inl rfl)
      · exact .inr hy
    · exact .inl (.inr hx)
  · intro h
    -- A name other than the wildcard that both sides allow; any will do if both are the wildcard.
    have hcommon : ∃ m, m ≠ wildcardText ∧ (x = m ∨ x = wildcardText) ∧
        (y = m ∨ y = wildcardText) := by
      by_cases hx : x = wildcardText
      · by_cases hy : y = wildcardText
        · exact ⟨selfName, by decide, .inr hx, .inr hy⟩
        · exact ⟨y, hy, .inr hx, .inl rfl⟩
      · refine ⟨x, hx, .inl rfl, ?_⟩
        obtain (rfl | hwild) | hy := h
        · exact .inl rfl
        · exact absurd hwild hx
        · exact .inr hy
    obtain ⟨m, hm, hx, hy⟩ := hcommon
    refine ⟨(Node.element 0).withName m, ⟨⟨0, rfl⟩, m, rfl, hm⟩, ?_, ?_⟩
    · exact (test_name_iff rfl hm).mpr hx
    · exact (test_name_iff rfl hm).mpr hy

theorem meets_index_iff {s t : Selector} :
    (Predicate.index s).Meets (.index t) ↔ s.overlaps t = true := by
  constructor
  · rintro ⟨n, ⟨⟨i, hposition⟩, -⟩, hs, ht⟩
    rw [test_index_iff hposition] at hs ht
    obtain rfl | rfl := hs
    · obtain rfl | rfl := ht
      · simp [Selector.overlaps]
      · rfl
    · rfl
  · intro h
    have hcommon : ∃ i, (s = .position i ∨ s = .wildcard) ∧ (t = .position i ∨ t = .wildcard) := by
      cases s with
      | wildcard =>
        cases t with
        | wildcard => exact ⟨0, .inr rfl, .inr rfl⟩
        | position j => exact ⟨j, .inr rfl, .inl rfl⟩
      | position i =>
        refine ⟨i, .inl rfl, ?_⟩
        cases t with
        | wildcard => exact .inr rfl
        | position j =>
          have hij : i = j := by simpa [Selector.overlaps] using h
          rw [hij]
          exact .inl rfl
    obtain ⟨i, hs, ht⟩ := hcommon
    refine ⟨(Node.element i).withName selfName, ⟨⟨i, rfl⟩, selfName, rfl, by decide⟩, ?_, ?_⟩
    · exact (test_index_iff rfl).mpr hs
    · exact (test_index_iff rfl).mpr ht

end Predicate

/-! ### Common nodes -/

/-- Along a single branch, each node of which passes both predicates of its step. The node to start
from may have any name and position, since it is the child that the step before has made. -/
theorem exists_common_way {qs rs : List Predicate} (h : List.Forall₂ Predicate.Meets qs rs)
    (name : Option String) (position : Option UInt64) :
    ∃ children way m, Node.IsLabelledBelow ⟨name, position, none, children⟩ ∧
      IsWay qs ⟨name, position, none, children⟩ way m ∧
      IsWay rs ⟨name, position, none, children⟩ way m := by
  induction h generalizing name position with
  | nil =>
    refine ⟨[], [], _, ?_, isWay_nil.mpr ⟨rfl, rfl⟩, isWay_nil.mpr ⟨rfl, rfl⟩⟩
    exact Node.isLabelledBelow_of_children_eq_nil rfl
  | @cons q r qs rs hqr _ ih =>
    obtain ⟨n, hn, hq, hr⟩ := hqr
    obtain ⟨children, way, m, hbelow, hqs, hrs⟩ := ih n.name n.position
    have htest : ∀ p : Predicate, p.test ⟨n.name, n.position, none, children⟩ = p.test n :=
      Predicate.test_congr rfl rfl
    refine ⟨[⟨n.name, n.position, none, children⟩], 0 :: way, m, ?_, ?_, ?_⟩
    · exact Node.isLabelledBelow_of_children_eq_singleton rfl ⟨hn.position, hn.name⟩ hbelow
    · exact isWay_cons.mpr ⟨0, _, way, rfl, rfl, (htest q).trans hq, hqs⟩
    · exact isWay_cons.mpr ⟨0, _, way, rfl, rfl, (htest r).trans hr, hrs⟩

theorem meets_of_isWay : ∀ {qs rs : List Predicate} {n m : Node} {way : List Nat},
    n.IsLabelledBelow → IsWay qs n way m → IsWay rs n way m → List.Forall₂ Predicate.Meets qs rs
  | [], rs, _, _, _, _, hqs, hrs => by
    have hlength : rs.length = 0 := hrs.length_eq.symm.trans hqs.length_eq
    rw [List.length_eq_zero_iff] at hlength
    subst hlength
    exact .nil
  | q :: qs, rs, n, m, way, hbelow, hqs, hrs => by
    obtain ⟨i, c, rest, rfl, hc, hq, hqs⟩ := isWay_cons.mp hqs
    obtain ⟨hlabelled, hbelow⟩ := Node.isLabelledBelow_iff.mp hbelow i c hc
    rcases rs with _ | ⟨r, rs⟩
    · cases (isWay_nil.mp hrs).1
    obtain ⟨i', c', rest', hway, hc', hr, hrs⟩ := isWay_cons.mp hrs
    cases hway
    rw [hc] at hc'
    cases hc'
    exact .cons ⟨c, hlabelled, hq, hr⟩ (meets_of_isWay hbelow hqs hrs)

/-! ### Overlap of expressions -/

theorem isEqv_iff_forall₂ {α : Type} {r : α → α → Bool} : ∀ {as bs : List α},
    as.isEqv bs r = true ↔ List.Forall₂ (fun a b => r a b = true) as bs
  | [], [] => by simp [List.isEqv]
  | [], _ :: _ => by simp [List.isEqv]
  | _ :: _, [] => by simp [List.isEqv]
  | a :: as, b :: bs => by
    rw [List.isEqv, Bool.and_eq_true, isEqv_iff_forall₂, List.forall₂_cons]

theorem Segment.overlaps_iff_meets {a b : Segment} (h : a.SameShape b) :
    a.overlaps b = true ↔ List.Forall₂ Predicate.Meets a.predicates b.predicates := by
  rw [forall₂_predicates_iff h, overlaps, Bool.and_eq_true, isEqv_iff_forall₂]
  simp only [Predicate.meets_name_iff, Predicate.meets_index_iff]
  refine and_congr_left fun _ => ⟨fun hnames _ => hnames, fun hnames => ?_⟩
  cases hb : b.isSelf with
  | false => exact hnames hb
  | true =>
    have ha : a.name = selfName := eq_of_beq (h.isSelf_eq.trans hb)
    have hb : b.name = selfName := eq_of_beq hb
    simp [namesOverlap, ha, hb]

theorem Expression.overlaps_iff_meets {a b : Expression} (h : a.SameShape b) :
    a.overlaps b = true ↔ List.Forall₂ Predicate.Meets (Resolver.compile a).predicates
      (Resolver.compile b).predicates := by
  rw [forall₂_predicates_iff Segment.overlaps_iff_meets h, overlaps, isEqv_iff_forall₂]

namespace Resolver

/-- The place is among those that the resolver selects from the root. -/
def Selects (r : Resolver) (root : Node) (x : Place) : Prop :=
  ∃ found, r.resolve (.root root) = .ok found ∧ x ∈ found

theorem selects_compile_iff {e : Expression} {root : Node} {x : Place} :
    (compile e).Selects root x ↔ IsWay (compile e).predicates root x.path x.node := by
  have hselect : (compile e).Selects root x ↔ x ∈ select (compile e).predicates (.root root) := by
    rw [Selects, resolve_compile]
    simp
  rw [hselect, mem_select]
  simp [Place.root]

theorem overlaps_of_selects {a b : Expression} (h : a.SameShape b) {root : Node}
    (hroot : root.IsLabelledBelow) {x : Place} (ha : (compile a).Selects root x)
    (hb : (compile b).Selects root x) : a.overlaps b = true := by
  rw [selects_compile_iff] at ha hb
  exact (Expression.overlaps_iff_meets h).mpr (meets_of_isWay hroot ha hb)

/-- **Overlap is possible common selection.** Expressions of the same shape overlap exactly if they
select a common place of some tree whose nodes, the root apart, all have a position and a name other
than the wildcard. On every such tree, expressions that do not overlap select different places. -/
theorem overlaps_iff_selects_common {a b : Expression} (h : a.SameShape b) :
    (a.overlaps b = true ↔ ∃ root x, root.IsLabelledBelow ∧
      (compile a).Selects root x ∧ (compile b).Selects root x) ∧
    (a.overlaps b = false → ∀ root : Node, root.IsLabelledBelow →
      ∃ as bs, (compile a).resolve (.root root) = .ok as ∧
        (compile b).resolve (.root root) = .ok bs ∧ as.Disjoint bs) := by
  constructor
  · constructor
    · intro hoverlap
      have hmeets := (Expression.overlaps_iff_meets h).mp hoverlap
      obtain ⟨children, way, m, hroot, ha, hb⟩ := exists_common_way hmeets none none
      refine ⟨⟨none, none, none, children⟩, ⟨way, m⟩, hroot, ?_, ?_⟩
      · exact selects_compile_iff.mpr ha
      · exact selects_compile_iff.mpr hb
    · rintro ⟨root, x, hroot, ha, hb⟩
      exact overlaps_of_selects h hroot ha hb
  · intro hoverlap root hroot
    have ha := resolve_compile a (.root root)
    have hb := resolve_compile b (.root root)
    refine ⟨_, _, ha, hb, fun x hxa hxb => ?_⟩
    have hcommon := overlaps_of_selects h hroot ⟨_, ha, hxa⟩ ⟨_, hb, hxb⟩
    rw [hoverlap] at hcommon
    cases hcommon

/-- The price of item 3 is common to both where wildcards stand across from each other; items 1 and 2
are apart. -/
theorem overlaps_iff_selects_common_items :
    let price (name : String) (i : Selector) : Expression := ⟨[⟨name, [i]⟩, ⟨"price", []⟩]⟩
    let item (i : Selector) : Expression := ⟨[⟨"$", [i]⟩]⟩
    let items := Node.anonymous.withChild ((Node.element 1).withName "item")
    (price "items" .wildcard).SameShape (price "*" (.position 3)) ∧
    (price "items" .wildcard).overlaps (price "*" (.position 3)) = true ∧
    (∃ root x, root.IsLabelledBelow ∧ (compile (price "items" .wildcard)).Selects root x ∧
      (compile (price "*" (.position 3))).Selects root x) ∧
    (item (.position 1)).SameShape (item (.position 2)) ∧
    (item (.position 1)).overlaps (item (.position 2)) = false ∧ items.IsLabelledBelow ∧
    ∃ as bs, (compile (item (.position 1))).resolve (.root items) = .ok as ∧
      (compile (item (.position 2))).resolve (.root items) = .ok bs ∧ as.Disjoint bs := by
  intro price item items
  have hprice : (price "items" .wildcard).SameShape (price "*" (.position 3)) :=
    .cons ⟨by decide, rfl⟩ (.cons ⟨by decide, rfl⟩ .nil)
  have hoverlap : (price "items" .wildcard).overlaps (price "*" (.position 3)) = true := by decide
  have hitem : (item (.position 1)).SameShape (item (.position 2)) := .cons ⟨by decide, rfl⟩ .nil
  have hapart : (item (.position 1)).overlaps (item (.position 2)) = false := by decide
  have hitems : items.IsLabelledBelow := by
    refine Node.isLabelledBelow_of_children_eq_singleton rfl ⟨⟨1, rfl⟩, "item", rfl, by decide⟩ ?_
    exact Node.isLabelledBelow_of_children_eq_nil rfl
  have hcommon := (overlaps_iff_selects_common hprice).1.mp hoverlap
  have hdisjoint := (overlaps_iff_selects_common hitem).2 hapart items hitems
  exact ⟨hprice, hoverlap, hcommon, hitem, hapart, hitems, hdisjoint⟩

end Resolver

end TreePath
