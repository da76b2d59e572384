import TreePath.Proofs.Tree.Place
import TreePath.Resolver.Basic

/-! # What a resolver selects

A resolver without strict parts never fails, and its predicates alone tell what it selects: the
places that are as far down as there are predicates, every node on the way passing the predicate of
its depth. They are listed in the order of their paths.

* `IsWay`: a way from a node to a node below it that passes predicates.
* `select`: the places that predicates lead to, a step for each predicate.
* `Resolver.resolve_eq_select`: a plain resolver selects what its predicates lead to.
* `Resolver.resolve_filters_paths`: a plain resolver is a filter on ways, and resolvers with the same
  predicates agree. -/

namespace TreePath

/-! ### Ways that pass predicates -/

/-- A way from `n` to `m` with a node for each predicate, which passes it; `n` itself is not
tested. -/
structure IsWay (qs : List Predicate) (n : Node) (way : List Nat) (m : Node) : Prop where
  length_eq : way.length = qs.length
  at_eq : n.at? way = some m
  passes : ∀ k q, qs[k]? = some q → ∃ c, n.at? (way.take (k + 1)) = some c ∧ q.test c = true

theorem isWay_nil {n m : Node} {way : List Nat} : IsWay [] n way m ↔ way = [] ∧ m = n := by
  constructor
  · rintro ⟨hl, ha, -⟩
    rw [List.length_nil, List.length_eq_zero_iff] at hl
    subst hl
    cases ha
    exact ⟨rfl, rfl⟩
  · rintro ⟨rfl, rfl⟩
    exact ⟨rfl, rfl, by simp⟩

theorem isWay_cons {q : Predicate} {qs : List Predicate} {n m : Node} {way : List Nat} :
    IsWay (q :: qs) n way m ↔ ∃ i c rest, way = i :: rest ∧ n.children[i]? = some c ∧
      q.test c = true ∧ IsWay qs c rest m := by
  constructor
  · rintro ⟨hl, ha, hp⟩
    rcases way with _ | ⟨i, rest⟩
    · simp at hl
    obtain ⟨c, hc, hm⟩ := Node.at?_cons_eq_some.mp ha
    refine ⟨i, c, rest, rfl, hc, ?_, by simpa using hl, hm, fun k r hr => ?_⟩
    · obtain ⟨d, hd, ht⟩ := hp 0 q rfl
      obtain ⟨c', hc', hd⟩ := Node.at?_cons_eq_some.mp hd
      rw [hc] at hc'
      cases hc'; cases hd
      exact ht
    · obtain ⟨d, hd, ht⟩ := hp (k + 1) r hr
      obtain ⟨c', hc', hd⟩ := Node.at?_cons_eq_some.mp hd
      rw [hc] at hc'
      cases hc'
      exact ⟨d, hd, ht⟩
  · rintro ⟨i, c, rest, rfl, hc, ht, hl, ha, hp⟩
    refine ⟨by simpa using hl, Node.at?_cons_eq_some.mpr ⟨c, hc, ha⟩, fun k r hr => ?_⟩
    rcases k with _ | k
    · cases hr
      exact ⟨c, Node.at?_cons_eq_some.mpr ⟨c, hc, rfl⟩, ht⟩
    · obtain ⟨d, hd, hr⟩ := hp k r hr
      exact ⟨d, Node.at?_cons_eq_some.mpr ⟨c, hc, hd⟩, hr⟩

/-! ### Selecting step by step -/

/-- The places that predicates lead to, a step for each predicate. -/
def select : List Predicate → Place → List Place
  | [], p => [p]
  | q :: qs, p => (Resolver.childrenPassing q p).flatMap (select qs)

theorem select_append (qs rs : List Predicate) (p : Place) :
    select (qs ++ rs) p = (select qs p).flatMap (select rs) := by
  induction qs generalizing p with
  | nil => simp [select]
  | cons q qs ih =>
    rw [List.cons_append, select, select, List.flatMap_assoc]
    exact List.flatMap_congr fun c _ => ih c

theorem mem_childrenPassing {q : Predicate} {p x : Place} :
    x ∈ Resolver.childrenPassing q p ↔ ∃ i c, p.node.children[i]? = some c ∧
      q.test c = true ∧ x = ⟨p.path ++ [i], c⟩ := by
  rw [Resolver.childrenPassing, List.mem_filter, Place.mem_children]
  constructor
  · rintro ⟨⟨i, c, hc, rfl⟩, ht⟩; exact ⟨i, c, hc, ht, rfl⟩
  · rintro ⟨i, c, hc, ht, rfl⟩; exact ⟨⟨i, c, hc, rfl⟩, ht⟩

/-- Exactly the places that ways through the predicates lead to, each once, in the order of their
paths. -/
structure IsSelection (qs : List Predicate) (p : Place) (found : List Place) : Prop where
  mem_iff : ∀ x, x ∈ found ↔ ∃ way, x.path = p.path ++ way ∧ IsWay qs p.node way x.node
  sorted : found.Pairwise fun a b => a.path < b.path

theorem mem_select {qs : List Predicate} {p x : Place} :
    x ∈ select qs p ↔ ∃ way, x.path = p.path ++ way ∧ IsWay qs p.node way x.node := by
  induction qs generalizing p with
  | nil =>
    simp only [select, List.mem_singleton, isWay_nil]
    constructor
    · rintro rfl; exact ⟨[], by simp, rfl, rfl⟩
    · rintro ⟨way, hpath, rfl, hnode⟩
      obtain ⟨path, node⟩ := x
      cases hnode
      rw [List.append_nil] at hpath
      cases hpath
      rfl
  | cons q qs ih =>
    simp only [select, List.mem_flatMap, mem_childrenPassing, ih, isWay_cons]
    constructor
    · rintro ⟨c, ⟨i, n, hn, ht, rfl⟩, way, hpath, hway⟩
      exact ⟨i :: way, by simpa using hpath, i, n, way, rfl, hn, ht, hway⟩
    · rintro ⟨way, hpath, i, n, rest, rfl, hn, ht, hway⟩
      exact ⟨⟨p.path ++ [i], n⟩, ⟨i, n, hn, ht, rfl⟩, rest, by simpa using hpath, hway⟩

theorem select_sorted (qs : List Predicate) (p : Place) :
    (select qs p).Pairwise fun a b => a.path < b.path := by
  induction qs generalizing p with
  | nil => exact List.pairwise_singleton _ _
  | cons q qs ih =>
    rw [select, List.pairwise_flatMap]
    refine ⟨fun c _ => ih c, ?_⟩
    refine ((Place.children_pairwise p).filter _).imp fun hab x hx y hy => ?_
    obtain ⟨v, hv, -⟩ := mem_select.mp hx
    obtain ⟨w, hw, -⟩ := mem_select.mp hy
    rw [hv, hw]
    exact hab.lt v w

theorem isSelection_select (qs : List Predicate) (p : Place) : IsSelection qs p (select qs p) :=
  ⟨fun _ => mem_select, select_sorted qs p⟩

/-! ### Plain resolvers -/

namespace Resolver

/-- Without strict parts. -/
def IsPlain : Resolver → Prop
  | composite outer inner => outer.IsPlain ∧ inner.IsPlain
  | strict _ => False
  | _ => True

theorem collect_eq_ok {f : Place → Except NoMatch (List Place)} {g : Place → List Place} :
    ∀ {ps : List Place}, (∀ p ∈ ps, f p = .ok (g p)) → collect f ps = .ok (ps.flatMap g)
  | [], _ => rfl
  | p :: ps, h => by
    rw [collect, h p (by simp), collect_eq_ok fun q hq => h q (by simp [hq])]
    rfl

theorem resolve_eq_select {r : Resolver} (hr : r.IsPlain) (p : Place) :
    r.resolve p = .ok (select r.predicates p) := by
  induction r generalizing p with
  | identity => rfl
  | byName n => simp [resolve, predicates, select]
  | byIndex i => simp [resolve, predicates, select]
  | composite outer inner ihOuter ihInner =>
    rw [resolve, ihOuter hr.1, predicates, select_append]
    exact collect_eq_ok fun q _ => ihInner hr.2 q
  | strict inner => exact absurd hr id

end Resolver

/-! ### Resolvers of expressions -/

/-- What a segment asks for: its name, unless this is `$`, and then its selectors. -/
def Segment.predicates (s : Segment) : List Predicate :=
  (if s.isSelf then [] else [.name s.name]) ++ s.indices.map .index

namespace Resolver

theorem isPlain_foldl {β : Type} {f : β → Resolver} (hf : ∀ b, (f b).IsPlain) :
    ∀ (bs : List β) {r : Resolver}, r.IsPlain →
      (bs.foldl (fun r b => composite r (f b)) r).IsPlain
  | [], _, hr => hr
  | b :: bs, _, hr => isPlain_foldl hf bs ⟨hr, hf b⟩

theorem predicates_foldl {β : Type} (f : β → Resolver) : ∀ (bs : List β) (r : Resolver),
    (bs.foldl (fun r b => composite r (f b)) r).predicates =
      r.predicates ++ bs.flatMap fun b => (f b).predicates
  | [], r => (List.append_nil _).symm
  | b :: bs, r => by
    rw [List.foldl_cons, predicates_foldl f bs, predicates, List.flatMap_cons, List.append_assoc]

theorem isPlain_compileSegment (s : Segment) : (compileSegment s).IsPlain := by
  unfold compileSegment
  refine isPlain_foldl (f := byIndex) (fun _ => trivial) s.indices ?_
  split <;> exact trivial

theorem predicates_compileSegment (s : Segment) : (compileSegment s).predicates = s.predicates := by
  have hindices : (s.indices.flatMap fun i => (byIndex i).predicates) =
      s.indices.map Predicate.index := List.map_eq_flatMap.symm
  unfold compileSegment
  rw [predicates_foldl, hindices, Segment.predicates]
  split <;> rfl

theorem isPlain_compile (e : Expression) : (compile e).IsPlain := by
  unfold compile
  split
  · exact trivial
  · exact isPlain_foldl isPlain_compileSegment _ (isPlain_compileSegment _)

/-- A compiled expression asks for what its segments ask for, one after the other. -/
theorem predicates_compile (e : Expression) :
    (compile e).predicates = e.segments.flatMap Segment.predicates := by
  unfold compile
  split
  · next h => rw [h]; rfl
  · next s rest h =>
    rw [h, predicates_foldl, List.flatMap_cons]
    simp only [predicates_compileSegment]

theorem resolve_compile (e : Expression) (p : Place) :
    (compile e).resolve p = .ok (select (compile e).predicates p) :=
  resolve_eq_select (isPlain_compile e) p

/-! ### Resolvers with the same predicates -/

/-- The same places in the same order, or the same failure, on every tree. -/
def Agree (r s : Resolver) : Prop := ∀ p, r.resolve p = s.resolve p

theorem agree_of_predicates_eq {r s : Resolver} (hr : r.IsPlain) (hs : s.IsPlain)
    (h : r.predicates = s.predicates) : Agree r s := fun p => by
  rw [resolve_eq_select hr, resolve_eq_select hs, h]

theorem agree_compile_of_flatMap_eq {d e : Expression}
    (h : d.segments.flatMap Segment.predicates = e.segments.flatMap Segment.predicates) :
    Agree (compile d) (compile e) :=
  agree_of_predicates_eq (isPlain_compile d) (isPlain_compile e) (by simpa [predicates_compile] using h)

/-- **A plain resolver filters ways by its predicates**, in the order of paths, and never fails.
Plain resolvers with the same predicates agree: composition is associative, and staying in place is
neutral, as a resolver and as a segment. -/
theorem resolve_filters_paths (r : Resolver) (hr : r.IsPlain) :
    (∀ p, ∃ found, r.resolve p = .ok found ∧ IsSelection r.predicates p found) ∧
    (∀ e, (compile e).IsPlain) ∧
    (∀ s, s.IsPlain → s.predicates = r.predicates → Agree s r) ∧
    (∀ a b, a.IsPlain → b.IsPlain →
      Agree (composite a (composite b r)) (composite (composite a b) r)) ∧
    Agree (composite identity r) r ∧ Agree (composite r identity) r ∧
    (∀ ss ts, Agree (compile ⟨ss ++ ⟨selfName, []⟩ :: ts⟩) (compile ⟨ss ++ ts⟩)) ∧
    ∀ ss s is ts, Agree (compile ⟨ss ++ s :: ⟨selfName, is⟩ :: ts⟩)
      (compile ⟨ss ++ ⟨s.name, s.indices ++ is⟩ :: ts⟩) := by
  refine ⟨fun p => ⟨_, resolve_eq_select hr p, isSelection_select _ p⟩, isPlain_compile,
    fun s hs h => agree_of_predicates_eq hs hr h, fun a b ha hb => ?_, ?_, ?_, fun ss ts => ?_,
    fun ss s is ts => ?_⟩
  · refine agree_of_predicates_eq ⟨ha, hb, hr⟩ ⟨⟨ha, hb⟩, hr⟩ ?_
    simp only [predicates, List.append_assoc]
  · exact agree_of_predicates_eq ⟨trivial, hr⟩ hr rfl
  · refine agree_of_predicates_eq ⟨hr, trivial⟩ hr ?_
    rw [predicates, predicates, List.append_nil]
  · refine agree_compile_of_flatMap_eq ?_
    simp [Segment.predicates, Segment.isSelf]
  · refine agree_compile_of_flatMap_eq ?_
    simp [Segment.predicates, Segment.isSelf]

/-- Staying in place on the way from a row to its cells. -/
theorem resolve_filters_paths_row :
    (composite (byName "row") (composite identity (byIndex .wildcard))).IsPlain ∧
      ∃ found, (composite (byName "row") (composite identity (byIndex .wildcard))).resolve
          (.root (Node.anonymous.withChild ((Node.object "row").withChild (Node.element 0)))) =
          .ok found ∧
        IsSelection [.name "row", .index .wildcard]
          (.root (Node.anonymous.withChild ((Node.object "row").withChild (Node.element 0)))) found :=
  ⟨⟨trivial, trivial, trivial⟩,
    (resolve_filters_paths (composite (byName "row") (composite identity (byIndex .wildcard)))
      ⟨trivial, trivial, trivial⟩).1 _⟩

end Resolver

end TreePath
