import TreePath.Proofs.Resolver.Selection
import TreePath.Resolver.Query

/-! # What a query answers

The resolver of an expression is plain but for a strict part around it, so that a query is told by
the predicates of the expression.

* `Resolver.resolve_ofExpression`: what the resolver of an expression selects, strict or not.
* `query_of_parse`: the answer to the text of an expression. -/

namespace TreePath

/-- A compiled expression has no strict part around it yet. -/
theorem Resolver.toStrict_of_isPlain {r : Resolver} (hr : r.IsPlain) : r.toStrict = strict r := by
  cases r with
  | strict inner => exact absurd hr id
  | _ => rfl

/-- The resolver of an expression selects what the predicates lead to; the strict one fails if this
is nothing. -/
theorem Resolver.resolve_ofExpression (e : Expression) (isStrict : Bool) (p : Place) :
    (ofExpression e isStrict).resolve p =
      if isStrict = true ∧ select (compile e).predicates p = [] then .error ⟨(compile e).text⟩
      else .ok (select (compile e).predicates p) := by
  have hr := isPlain_compile e
  cases isStrict with
  | false =>
    rw [if_neg (by simp)]
    exact resolve_eq_select hr p
  | true =>
    have hs : ofExpression e true = strict (compile e) := toStrict_of_isPlain hr
    rw [hs, resolve, resolve_eq_select hr]
    rcases select (compile e).predicates p with _ | ⟨x, xs⟩ <;> simp

theorem Resolver.resolve_toStrict_compile_eq_ok_iff {e : Expression} {p : Place}
    {found : List Place} : (compile e).toStrict.resolve p = .ok found ↔
      select (compile e).predicates p = found ∧ found ≠ [] := by
  have h : (compile e).toStrict.resolve p = _ := resolve_ofExpression e true p
  rw [h]
  by_cases hnone : select (compile e).predicates p = []
  · rw [if_pos ⟨rfl, hnone⟩, hnone]
    simp [eq_comm]
  · rw [if_neg fun h => hnone h.2, Except.ok.injEq]
    constructor
    · rintro rfl
      exact ⟨rfl, hnone⟩
    · exact And.left

theorem query_of_parse {text : String} {e : Expression} (he : Expression.parse text = .ok e)
    (root : Node) (isStrict : Bool) :
    query root text isStrict =
      if isStrict = true ∧ select (Resolver.compile e).predicates (.root root) = [] then
        .error (.noMatch ⟨(Resolver.compile e).text⟩)
      else .ok (select (Resolver.compile e).predicates (.root root)) := by
  unfold query
  rw [he]
  simp only [Resolver.resolve_ofExpression]
  by_cases h : isStrict = true ∧ select (Resolver.compile e).predicates (.root root) = []
  · rw [if_pos h, if_pos h]
  · rw [if_neg h, if_neg h]

end TreePath
