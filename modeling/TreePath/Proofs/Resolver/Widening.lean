import TreePath.Proofs.Resolver.Query
import TreePath.Proofs.Resolver.Shape
import Mathlib.Data.List.Flatten

/-! # Wildcards in place of names and positions

An expression is widened by putting wildcards for some of its names and positions. A step of the
wider expression keeps every child that the narrower one keeps: the wildcard is passed by each named
or positioned node, and a node without name or position passes on both sides. From one step to the
next the selection only grows, and what was selected stays in order.

* `select_sublist`: predicates that cover others lead to more places.
* `Resolver.resolve_widens`: the wider expression selects more, and is strict about less. -/

namespace TreePath

/-! ### Predicates that cover others -/

namespace Predicate

/-- Every node that passes `r` passes `q`. -/
def Covers (q r : Predicate) : Prop := ∀ n, r.test n = true → q.test n = true

theorem covers_name {x y : String} (h : x = y ∨ x = wildcardText) :
    (Predicate.name x).Covers (.name y) := by
  obtain rfl | rfl := h
  · exact fun _ ht => ht
  · intro n _
    rw [test]
    cases n.name with
    | none => rfl
    | some m => simp [namesOverlap]

theorem covers_index {i j : Selector} (h : i = j ∨ i = .wildcard) :
    (Predicate.index i).Covers (.index j) := by
  obtain rfl | rfl := h
  · exact fun _ ht => ht
  · intro n _
    rw [test]
    cases n.position <;> rfl

end Predicate

theorem childrenPassing_sublist {q r : Predicate} (h : q.Covers r) (p : Place) :
    (Resolver.childrenPassing r p).Sublist (Resolver.childrenPassing q p) :=
  List.monotone_filter_right p.children fun c => h c.node

/-- The places that the covered predicates lead to are among the others, in the same order and as
often. -/
theorem select_sublist {qs rs : List Predicate} (h : List.Forall₂ Predicate.Covers qs rs)
    (p : Place) : (select rs p).Sublist (select qs p) := by
  induction h generalizing p with
  | nil => exact List.Sublist.refl _
  | @cons q r qs rs hq _ ih =>
    have houter : ((Resolver.childrenPassing r p).flatMap (select rs)).Sublist
        ((Resolver.childrenPassing q p).flatMap (select rs)) :=
      (childrenPassing_sublist hq p).flatMap _
    have hinner : ((Resolver.childrenPassing q p).flatMap (select rs)).Sublist
        ((Resolver.childrenPassing q p).flatMap (select qs)) :=
      List.Sublist.flatMap_right _ fun c _ => ih c
    exact houter.trans hinner

/-! ### Wider expressions -/

/-- The name and the selectors of `b`, some of them replaced by wildcards; `$` stays `$`. -/
structure Segment.Widens (a b : Segment) : Prop where
  isSelf_eq : a.isSelf = b.isSelf
  name : a.name = b.name ∨ a.name = wildcardText
  indices : List.Forall₂ (fun i j => i = j ∨ i = .wildcard) a.indices b.indices

theorem Segment.Widens.sameShape {a b : Segment} (h : a.Widens b) : a.SameShape b :=
  ⟨h.isSelf_eq, h.indices.length_eq⟩

theorem Segment.Widens.covers {a b : Segment} (h : a.Widens b) :
    List.Forall₂ Predicate.Covers a.predicates b.predicates :=
  (Segment.forall₂_predicates_iff h.sameShape).mpr
    ⟨fun _ => Predicate.covers_name h.name, h.indices.imp fun _ _ => Predicate.covers_index⟩

/-- The segments of `b`, some of them widened. -/
def Expression.Widens (a b : Expression) : Prop := List.Forall₂ Segment.Widens a.segments b.segments

theorem Expression.Widens.covers {a b : Expression} (h : a.Widens b) :
    List.Forall₂ Predicate.Covers (Resolver.compile a).predicates
      (Resolver.compile b).predicates := by
  have hshape : a.SameShape b := h.imp fun _ _ => Segment.Widens.sameShape
  rw [Expression.forall₂_predicates_iff (fun _ => Iff.rfl) hshape]
  exact h.imp fun _ _ => Segment.Widens.covers

namespace Resolver

/-- **Widening only adds results.** What an expression selects is a sublist, by places, of what a
wider expression selects, whatever names and positions the nodes have or lack; so where the strict
form of the one succeeds, that of the other does. -/
theorem resolve_widens {a b : Expression} (h : a.Widens b) (p : Place) :
    (∃ narrow wide, (compile b).resolve p = .ok narrow ∧ (compile a).resolve p = .ok wide ∧
      narrow.Sublist wide) ∧
    ∀ narrow, (compile b).toStrict.resolve p = .ok narrow →
      ∃ wide, (compile a).toStrict.resolve p = .ok wide ∧ narrow.Sublist wide := by
  have hsub := select_sublist h.covers p
  refine ⟨⟨_, _, resolve_compile b p, resolve_compile a p, hsub⟩, fun narrow hnarrow => ?_⟩
  obtain ⟨hselect, hne⟩ := resolve_toStrict_compile_eq_ok_iff.mp hnarrow
  rw [hselect] at hsub
  have hwide : select (compile a).predicates p ≠ [] := by
    intro hnil
    rw [hnil, List.sublist_nil] at hsub
    exact hne hsub
  exact ⟨_, resolve_toStrict_compile_eq_ok_iff.mpr ⟨rfl, hwide⟩, hsub⟩

/-- Among rows with and without name, one of them called by the wildcard, each with a cell. -/
theorem resolve_widens_row :
    let wide : Expression := ⟨[⟨"*", [.wildcard]⟩]⟩
    let narrow : Expression := ⟨[⟨"row", [.position 1]⟩]⟩
    let rows := ((Node.anonymous.withChild ((Node.object "row").withChild (Node.element 0))).withChild
      ((Node.object "*").withChild (Node.element 1))).withChild
        ((Node.element 2).withChild (Node.object "cell"))
    let cells : List Place := [⟨[1, 0], Node.element 1⟩, ⟨[2, 0], Node.object "cell"⟩]
    wide.Widens narrow ∧ (compile narrow).toStrict.resolve (.root rows) = .ok cells ∧
      ∃ found, (compile wide).toStrict.resolve (.root rows) = .ok found ∧ cells.Sublist found := by
  intro wide narrow rows cells
  have hwidens : wide.Widens narrow := .cons ⟨by decide, .inr rfl, .cons (.inr rfl) .nil⟩ .nil
  have hcells : (compile narrow).toStrict.resolve (.root rows) = .ok cells := by rfl
  exact ⟨hwidens, hcells, (resolve_widens hwidens (.root rows)).2 cells hcells⟩

end Resolver

end TreePath
