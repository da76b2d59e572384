import TreePath.Tree.Node
import Mathlib.Data.List.Basic

/-! # Places in a tree

A way is a list of child indexes. It leads from a node to a node below it, if each index on it is
that of a child.

* `Node.at?`: the node that a way leads to.
* `Place.mem_children`: the places of the children are those one index further.
* `Place.children_pairwise`: the children stand in the order of their indexes. -/

namespace TreePath

/-- The node that a way leads to. -/
def Node.at? (n : Node) : List Nat → Option Node
  | [] => some n
  | i :: way =>
    match n.children[i]? with
    | some c => c.at? way
    | none => none

theorem Node.at?_cons_eq_some {n m : Node} {i : Nat} {way : List Nat} :
    n.at? (i :: way) = some m ↔ ∃ c, n.children[i]? = some c ∧ c.at? way = some m := by
  rw [Node.at?]
  rcases n.children[i]? with _ | c <;> simp

namespace Place

theorem mem_childrenFrom {path : List Nat} {x : Place} : ∀ {ns : List Node} {i : Nat},
    x ∈ childrenFrom path i ns ↔ ∃ j n, ns[j]? = some n ∧ x = ⟨path ++ [i + j], n⟩
  | [], i => by simp [childrenFrom]
  | n :: ns, i => by
    rw [childrenFrom, List.mem_cons, mem_childrenFrom]
    constructor
    · rintro (rfl | ⟨j, m, hj, rfl⟩)
      · exact ⟨0, n, rfl, rfl⟩
      · exact ⟨j + 1, m, hj, by rw [show i + 1 + j = i + (j + 1) by omega]⟩
    · rintro ⟨j, m, hj, rfl⟩
      rcases j with _ | j
      · cases hj; exact Or.inl rfl
      · exact Or.inr ⟨j, m, hj, by rw [show i + 1 + j = i + (j + 1) by omega]⟩

theorem mem_children {p x : Place} :
    x ∈ p.children ↔ ∃ i n, p.node.children[i]? = some n ∧ x = ⟨p.path ++ [i], n⟩ := by
  rw [children, mem_childrenFrom]
  simp only [Nat.zero_add]

/-- The first of two places is reached from `path` over a smaller index than the second. -/
def Before (path : List Nat) (a b : Place) : Prop :=
  ∃ i j, i < j ∧ a.path = path ++ [i] ∧ b.path = path ++ [j]

theorem childrenFrom_pairwise (path : List Nat) : ∀ (ns : List Node) (i : Nat),
    (childrenFrom path i ns).Pairwise (Before path)
  | [], _ => List.Pairwise.nil
  | n :: ns, i => by
    rw [childrenFrom, List.pairwise_cons]
    refine ⟨fun x hx => ?_, childrenFrom_pairwise path ns (i + 1)⟩
    obtain ⟨j, m, -, rfl⟩ := mem_childrenFrom.mp hx
    exact ⟨i, i + 1 + j, by omega, rfl, rfl⟩

theorem children_pairwise (p : Place) : p.children.Pairwise (Before p.path) :=
  childrenFrom_pairwise p.path p.node.children 0

/-- Places below the first of two come before places below the second. -/
theorem Before.lt {path : List Nat} {a b : Place} (h : Before path a b) (v w : List Nat) :
    a.path ++ v < b.path ++ w := by
  obtain ⟨i, j, hij, ha, hb⟩ := h
  rw [ha, hb, List.append_assoc, List.append_assoc]
  exact List.append_left_lt (List.cons_lt_cons_iff.mpr (Or.inl hij))

end Place

end TreePath
