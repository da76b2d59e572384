import TreePath.Proofs.Expression.LastStep
import TreePath.Proofs.Resolver.Selection

/-! # Addresses compose

An expression with another one behind it selects what the second selects from each place that the
first selects. So adding text at an end of an expression adds a leg to the way at that end, and
what an expression selects is one step further than what it selects without its last step.

* `Resolver.GoesOn`: a resolver that goes on from the places of another.
* `Resolver.goesOn_append`: segments behind others.
* `Resolver.goesOn_of_dropsLast`: the last step.
* `Resolver.resolve_composes`: growing at both ends and shrinking, for every expression that can be
  reached. -/

namespace TreePath

/-- The places after one more step: the children that pass, or the place itself where there is
nothing to ask for. -/
def stepTo : Option Predicate → Place → List Place
  | some q, p => Resolver.childrenPassing q p
  | none, p => [p]

theorem select_toList (step : Option Predicate) : select step.toList = stepTo step := by
  funext p
  cases step with
  | none => rfl
  | some q => simp [select, stepTo]

namespace Resolver

/-- From each place that `outer` selects, in order, `r` goes on as `next` says. Neither fails. -/
def GoesOn (outer r : Resolver) (next : Place → List Place) : Prop :=
  ∀ p, ∃ found, outer.resolve p = .ok found ∧ r.resolve p = .ok (found.flatMap next)

theorem goesOn_of_predicates_append {d e : Expression} {qs : List Predicate}
    (h : (compile e).predicates = (compile d).predicates ++ qs) :
    GoesOn (compile d) (compile e) (select qs) := by
  intro p
  refine ⟨_, resolve_compile d p, ?_⟩
  rw [resolve_compile, h, select_append]

theorem goesOn_append (d e : Expression) :
    GoesOn (compile d) (compile ⟨d.segments ++ e.segments⟩) (select (compile e).predicates) := by
  refine goesOn_of_predicates_append ?_
  rw [predicates_compile, predicates_compile, predicates_compile, List.flatMap_append]

/-! ### The last step -/

theorem predicates_of_dropsLast {d e : Expression} {step : Option Predicate}
    (h : e.DropsLast d step) :
    (compile e).predicates = (compile d).predicates ++ step.toList := by
  rw [predicates_compile, predicates_compile]
  cases h with
  | index before name is i => simp [Segment.predicates, Segment.isSelf]
  | name before name hname => simp [Segment.predicates, Segment.isSelf, hname]
  | self before => simp [Segment.predicates, Segment.isSelf]

theorem goesOn_of_dropsLast {d e : Expression} {step : Option Predicate} (h : e.DropsLast d step) :
    GoesOn (compile d) (compile e) (stepTo step) := by
  rw [← select_toList]
  exact goesOn_of_predicates_append (predicates_of_dropsLast h)

/-! ### Expressions that can be reached -/

/-- **Addresses compose.** A text behind an expression selects from each place of the expression, in
order, what the text selects from there, and the other way round for a text in front. An expression
that is not empty selects from each place of the expression one step back what its last step asks
for: the children that pass the last selector or the last name, or the place itself for a bare
`$`. -/
theorem resolve_composes {e : Expression} (he : e.Reachable) :
    (∀ text d, Expression.parse text = .ok d →
      ∃ next, (∀ p, (compile d).resolve p = .ok (next p)) ∧
        ∃ f, e.addLast text = .ok f ∧ GoesOn (compile e) (compile f) next) ∧
    (∀ text d, Expression.parse text = .ok d →
      ∃ next, (∀ p, (compile e).resolve p = .ok (next p)) ∧
        ∃ f, e.addFirst text = .ok f ∧ GoesOn (compile d) (compile f) next) ∧
    (e ≠ Expression.empty → ∃ step, e.DropsLast e.pollLast step ∧
      GoesOn (compile e.pollLast) (compile e) (stepTo step)) := by
  refine ⟨fun text d hd => ?_, fun text d hd => ?_, fun hne => ?_⟩
  · exact ⟨_, resolve_compile d, _, he.addLast_eq_ok hd, goesOn_append e d⟩
  · exact ⟨_, resolve_compile e, _, he.addFirst_eq_ok hd, goesOn_append d e⟩
  · obtain ⟨step, hstep⟩ := Expression.dropsLast_pollLast hne
    exact ⟨step, hstep, goesOn_of_dropsLast hstep⟩

/-- Two rows with a cell each: the cells below the rows, the cells as they are found from `$` in
front of the rows, and the rows as the children of what is one step back. -/
theorem resolve_composes_rows :
    let e : Expression := ⟨[⟨"rows", [.wildcard]⟩]⟩
    let cell : Expression := ⟨[⟨"cell", []⟩]⟩
    let row (i : UInt64) := (Node.element i).withChild (Node.object "cell")
    let root := Node.anonymous.withChild
      (((Node.object "rows").withChild (row 0)).withChild (row 1))
    let rows : List Place := [⟨[0, 0], row 0⟩, ⟨[0, 1], row 1⟩]
    e.Reachable ∧ e ≠ Expression.empty ∧ Expression.parse "cell" = .ok cell ∧
      (∃ next : Place → List Place, (∀ p, (compile cell).resolve p = .ok (next p)) ∧
        ∃ f, e.addLast "cell" = .ok f ∧
          (compile f).resolve (.root root) = .ok (rows.flatMap next)) ∧
      (∃ next : Place → List Place, (∀ p, (compile e).resolve p = .ok (next p)) ∧
        ∃ f, e.addFirst "$" = .ok f ∧
          (compile f).resolve (.root root) = .ok (next (.root root))) ∧
      ∃ step found, e.DropsLast e.pollLast step ∧
        (compile e.pollLast).resolve (.root root) = .ok found ∧
          rows = found.flatMap (stepTo step) := by
  intro e cell row root rows
  have hread : Expression.parse "rows[*].cell" = .ok ⟨[⟨"rows", [.wildcard]⟩, ⟨"cell", []⟩]⟩ := by
    decide +kernel
  have he : e.Reachable := .pollLast (.parse hread)
  have hne : e ≠ Expression.empty := by decide
  have hcell : Expression.parse "cell" = .ok cell := by decide +kernel
  have hself : Expression.parse "$" = .ok ⟨[⟨selfName, []⟩]⟩ := by decide +kernel
  have hrows : (compile e).resolve (.root root) = .ok rows := by rfl
  obtain ⟨hlast, hfirst, hback⟩ := resolve_composes he
  refine ⟨he, hne, hcell, ?_, ?_, ?_⟩
  · obtain ⟨next, hnext, f, hf, hgoes⟩ := hlast "cell" cell hcell
    obtain ⟨found, hfound, hresolve⟩ := hgoes (.root root)
    obtain rfl : rows = found := Except.ok.inj (hrows.symm.trans hfound)
    exact ⟨next, hnext, f, hf, hresolve⟩
  · obtain ⟨next, hnext, f, hf, hgoes⟩ := hfirst "$" _ hself
    obtain ⟨found, hfound, hresolve⟩ := hgoes (.root root)
    obtain rfl : [Place.root root] = found := Except.ok.inj hfound
    rw [List.flatMap_singleton] at hresolve
    exact ⟨next, hnext, f, hf, hresolve⟩
  · obtain ⟨step, hstep, hgoes⟩ := hback hne
    obtain ⟨found, hfound, hresolve⟩ := hgoes (.root root)
    exact ⟨step, found, hstep, hfound, Except.ok.inj (hrows.symm.trans hresolve)⟩

end Resolver

end TreePath
