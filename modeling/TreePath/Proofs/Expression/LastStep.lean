import TreePath.Proofs.Expression.Edit
import TreePath.Resolver.Predicate

/-! # The last step of an expression

Shrinking an expression takes its last step away: the last selector of its last segment, or the name
of a segment without selectors. The name `$` is taken away like any other, although no step goes
with it.

* `Expression.DropsLast`: an expression, what is left of it, and what the last step asked for.
* `Expression.dropsLast_pollLast`: what shrinking leaves, unless there is nothing to take away. -/

namespace TreePath

namespace Expression

/-- The first expression is the second with one more step at its end, and this step asks a child for
the predicate, or stays in place. -/
inductive DropsLast : Expression → Expression → Option Predicate → Prop
  | index (before : List Segment) (name : String) (is : List Selector) (i : Selector) :
    DropsLast ⟨before ++ [⟨name, is ++ [i]⟩]⟩ ⟨before ++ [⟨name, is⟩]⟩ (some (.index i))
  | name (before : List Segment) (name : String) :
    name ≠ selfName → DropsLast ⟨before ++ [⟨name, []⟩]⟩ ⟨before⟩ (some (.name name))
  | self (before : List Segment) : DropsLast ⟨before ++ [⟨selfName, []⟩]⟩ ⟨before⟩ none

theorem dropLastStep_append : ∀ (before : List Segment) (s : Segment),
    dropLastStep (before ++ [s]) = before ++ dropLastStep [s]
  | [], _ => rfl
  | [_], _ => rfl
  | a :: b :: before, s => congrArg (a :: ·) (dropLastStep_append (b :: before) s)

theorem dropsLast_pollLast {e : Expression} (he : e ≠ empty) :
    ∃ step, e.DropsLast e.pollLast step := by
  obtain ⟨segments⟩ := e
  rcases List.eq_nil_or_concat' segments with rfl | ⟨before, s, rfl⟩
  · exact absurd rfl he
  obtain ⟨name, indices⟩ := s
  rw [pollLast]
  simp only [dropLastStep_append]
  rcases List.eq_nil_or_concat' indices with rfl | ⟨is, i, rfl⟩
  · rw [dropLastStep, if_pos rfl, List.append_nil]
    by_cases hself : name = selfName
    · exact ⟨none, hself ▸ .self before⟩
    · exact ⟨_, .name before name hself⟩
  · rw [dropLastStep, if_neg (by simp), List.dropLast_concat]
    exact ⟨_, .index before name is i⟩

end Expression

end TreePath
