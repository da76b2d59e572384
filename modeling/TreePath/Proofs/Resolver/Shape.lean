import TreePath.Proofs.Resolver.Selection
import Mathlib.Data.List.Forall2

/-! # Expressions of the same shape

Two expressions have the same shape if their segments pair up: both stay in place or neither does,
and as many selectors follow the one as the other. Their predicates then pair up as well, names with
names and selectors with selectors, so that a relation of predicates is read off the segments.

* `Segment.forall₂_predicates_iff`: the predicates of two segments are related if the names are,
  unless the segments stay in place, and the selectors are.
* `Expression.forall₂_predicates_iff`: those of two expressions if those of their segments are. -/

namespace TreePath

theorem forall₂_append_iff {α β : Type} {R : α → β → Prop} {as' : List α} {bs' : List β} :
    ∀ {as : List α} {bs : List β}, as.length = bs.length →
      (List.Forall₂ R (as ++ as') (bs ++ bs') ↔ List.Forall₂ R as bs ∧ List.Forall₂ R as' bs')
  | [], [], _ => by simp
  | a :: as, b :: bs, h => by
    have hlength : as.length = bs.length := by simpa using h
    rw [List.cons_append, List.cons_append, List.forall₂_cons, List.forall₂_cons,
      forall₂_append_iff hlength, and_assoc]

/-! ### Segments -/

namespace Segment

/-- Both stay in place or neither does, and they have equally many selectors. -/
structure SameShape (a b : Segment) : Prop where
  isSelf_eq : a.isSelf = b.isSelf
  length_eq : a.indices.length = b.indices.length

theorem SameShape.length_predicates {a b : Segment} (h : a.SameShape b) :
    a.predicates.length = b.predicates.length := by
  unfold predicates
  rw [List.length_append, List.length_append, List.length_map, List.length_map, h.length_eq,
    h.isSelf_eq]
  cases b.isSelf <;> rfl

theorem forall₂_predicates_iff {R : Predicate → Predicate → Prop} {a b : Segment}
    (h : a.SameShape b) :
    List.Forall₂ R a.predicates b.predicates ↔
      (b.isSelf = false → R (.name a.name) (.name b.name)) ∧
        List.Forall₂ (fun i j => R (.index i) (.index j)) a.indices b.indices := by
  unfold predicates
  rw [h.isSelf_eq]
  cases b.isSelf with
  | true => simp
  | false =>
    rw [if_neg (by simp), if_neg (by simp), List.singleton_append, List.singleton_append,
      List.forall₂_cons, List.forall₂_map_left_iff, List.forall₂_map_right_iff]
    simp

end Segment

/-! ### Expressions -/

namespace Expression

/-- Equally many segments, of the same shape one by one. -/
def SameShape (a b : Expression) : Prop := List.Forall₂ Segment.SameShape a.segments b.segments

/-- A relation of segments that comes from one of predicates is that of the predicates of the whole
expressions. -/
theorem forall₂_predicates_iff {R : Predicate → Predicate → Prop} {S : Segment → Segment → Prop}
    (hS : ∀ {s t : Segment}, s.SameShape t → (S s t ↔ List.Forall₂ R s.predicates t.predicates))
    {a b : Expression} (h : a.SameShape b) :
    List.Forall₂ R (Resolver.compile a).predicates (Resolver.compile b).predicates ↔
      List.Forall₂ S a.segments b.segments := by
  obtain ⟨ss⟩ := a
  obtain ⟨ts⟩ := b
  rw [Resolver.predicates_compile, Resolver.predicates_compile]
  simp only [SameShape] at h ⊢
  induction h with
  | nil => simp
  | cons hst _ ih =>
    rw [List.flatMap_cons, List.flatMap_cons, forall₂_append_iff hst.length_predicates, ih, ← hS hst,
      List.forall₂_cons]

end Expression

end TreePath
