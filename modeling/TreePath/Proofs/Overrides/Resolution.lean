import TreePath.Proofs.Expression.RoundTrip
import TreePath.Proofs.Overrides.Ordered
import TreePath.Proofs.Resolver.Query
import TreePath.Proofs.Resolver.Text

/-! # Resolving a set of overrides

A lenient set is always resolved. A strict set is resolved unless one of its overrides selects
nothing, and then the first of these in the order of application is told. What an override selects is
what a query with the text of its expression answers.

* `Expression.IsWeakOrderOn`: the canonical order is transitive on some expressions.
* `OverrideSet.IsInOrder`: overrides in the order of application.
* `OverrideSet.resolveEach_eq`: the answer told by the first override that selects nothing.
* `OverrideSet.resolve_all_or_nothing`: success and failure of lenient and of strict sets. -/

namespace TreePath

/-- The canonical order is a weak order on the expressions. That it is total and that turning a
comparison round reverses it needs no hypothesis. -/
def Expression.IsWeakOrderOn (es : List Expression) : Prop :=
  ∀ a ∈ es, ∀ b ∈ es, ∀ c ∈ es,
    (a.canonical b).isLE → (b.canonical c).isLE → (a.canonical c).isLE

instance (es : List Expression) : Decidable (Expression.IsWeakOrderOn es) := by
  unfold Expression.IsWeakOrderOn; infer_instance

namespace OverrideSet

open Resolver (compile)

variable {α : Type}

/-! ### The order of application -/

/-- The second list has the overrides of the first, nothing behind something larger, and those that
tie as they were. -/
structure IsInOrder (os rs : List (Override α)) : Prop where
  perm : rs.Perm os
  sorted : rs.Pairwise fun a b => (a.expression.canonical b.expression).isLE
  stable : ∀ o ∈ os, rs.filter (fun x => x.expression.canonical o.expression = .eq) =
    os.filter fun x => x.expression.canonical o.expression = .eq

theorem isInOrder_ordered {s : OverrideSet α}
    (hs : Expression.IsWeakOrderOn (expressions s.entries)) : IsInOrder s.entries s.ordered := by
  have hmem : ∀ o ∈ s.entries, o.expression ∈ expressions s.entries := fun o ho =>
    List.mem_map_of_mem ho
  have htrans : ∀ a ∈ s.entries, ∀ b ∈ s.entries, ∀ c ∈ s.entries,
      (a.expression.canonical b.expression).isLE → (b.expression.canonical c.expression).isLE →
        (a.expression.canonical c.expression).isLE := fun a ha b hb c hc =>
    hs _ (hmem a ha) _ (hmem b hb) _ (hmem c hc)
  have htotal : ∀ a b : Override α, (a.expression.canonical b.expression).isLE ||
      (b.expression.canonical a.expression).isLE := fun a b => Expression.isLE_total _ _
  refine ⟨ordered_perm s, pairwise_mergeSort_of_mem htrans htotal, fun o ho => ?_⟩
  refine filter_mergeSort_of_mem htrans htotal (List.pairwise_of_forall_mem_list fun a ha b hb => ?_)
  -- Two overrides that tie with a third tie with each other.
  obtain ⟨ha, hao⟩ := List.mem_filter.mp ha
  obtain ⟨hb, hbo⟩ := List.mem_filter.mp hb
  have hao : a.expression.canonical o.expression = .eq := of_decide_eq_true hao
  have hob : o.expression.canonical b.expression = .eq := by
    rw [Expression.canonical_swap, of_decide_eq_true hbo]
    rfl
  exact htrans a ha o ho b hb (by rw [hao]; rfl) (by rw [hob]; rfl)

/-! ### One override after the other -/

/-- The places that an expression selects from the root. -/
def selected (root : Node) (e : Expression) : List Place :=
  select (compile e).predicates (.root root)

theorem resolve_compile_eq (root : Node) (e : Expression) :
    (compile e).resolve (.root root) = .ok (selected root e) :=
  Resolver.resolve_compile e _

/-- Whether an override makes its set fail. -/
def fails (isStrict : Bool) (root : Node) (o : Override α) : Bool :=
  isStrict && (selected root o.expression).isEmpty

theorem fails_strict_iff {root : Node} {o : Override α} :
    fails true root o = true ↔ (compile o.expression).resolve (.root root) = .ok [] := by
  rw [fails, Bool.true_and, List.isEmpty_iff, resolve_compile_eq, Except.ok.injEq]

theorem resolve_ofExpression_eq (isStrict : Bool) (root : Node) (o : Override α) :
    (Resolver.ofExpression o.expression isStrict).resolve (.root root) =
      if fails isStrict root o then .error ⟨(compile o.expression).text⟩
      else .ok (selected root o.expression) := by
  rw [Resolver.resolve_ofExpression]
  simp only [fails, selected, Bool.and_eq_true, List.isEmpty_iff]

/-- The first override that fails ends it. -/
theorem resolveEach_eq (isStrict : Bool) (root : Node) : ∀ os : List (Override α),
    resolveEach isStrict root os =
      match os.find? (fails isStrict root) with
      | some o => .error ⟨(compile o.expression).text⟩
      | none => .ok (os.map fun o => ⟨o, selected root o.expression⟩)
  | [] => rfl
  | o :: os => by
    rw [resolveEach, resolve_ofExpression_eq, resolveEach_eq isStrict root os]
    by_cases ho : fails isStrict root o = true
    · rw [if_pos ho, List.find?_cons_of_pos ho]
    · rw [if_neg ho, List.find?_cons_of_neg ho]
      rcases os.find? (fails isStrict root) with _ | x <;> rfl

theorem resolve_withStrict (s : OverrideSet α) (isStrict : Bool) (root : Node) :
    (s.withStrict isStrict).resolve root = resolveEach isStrict root s.ordered := rfl

theorem resolve_lenient (s : OverrideSet α) (root : Node) :
    (s.withStrict false).resolve root =
      .ok (s.ordered.map fun o => ⟨o, selected root o.expression⟩) := by
  have hnone : s.ordered.find? (fails false root) = none := List.find?_eq_none.mpr fun _ _ => by
    simp [fails]
  rw [resolve_withStrict, resolveEach_eq, hnone]

theorem resolve_eq_ok_iff {s : OverrideSet α} {isStrict : Bool} {root : Node}
    {rs : List (ResolvedOverride α)} :
    (s.withStrict isStrict).resolve root = .ok rs ↔
      (∀ o ∈ s.ordered, fails isStrict root o = false) ∧
        rs = s.ordered.map fun o => ⟨o, selected root o.expression⟩ := by
  rw [resolve_withStrict, resolveEach_eq]
  rcases hfind : s.ordered.find? (fails isStrict root) with _ | o
  · have hnone : ∀ o ∈ s.ordered, fails isStrict root o = false := by
      simpa using List.find?_eq_none.mp hfind
    constructor
    · intro h
      exact ⟨hnone, (Except.ok.inj h).symm⟩
    · rintro ⟨-, rfl⟩
      rfl
  · have hfails := List.find?_some hfind
    have hmem := List.mem_of_find?_eq_some hfind
    constructor
    · intro h
      cases h
    · rintro ⟨hnone, -⟩
      rw [hnone o hmem] at hfails
      cases hfails

theorem resolve_strict_eq_error_iff {s : OverrideSet α} {root : Node} {err : NoMatch} :
    (s.withStrict true).resolve root = .error err ↔
      ∃ before o after, s.ordered = before ++ o :: after ∧
        (∀ x ∈ before, (compile x.expression).resolve (.root root) ≠ .ok []) ∧
        (compile o.expression).resolve (.root root) = .ok [] ∧
        err = ⟨(compile o.expression).text⟩ := by
  have hfind : (s.withStrict true).resolve root = .error err ↔
      ∃ o, s.ordered.find? (fails true root) = some o ∧ err = ⟨(compile o.expression).text⟩ := by
    rw [resolve_withStrict, resolveEach_eq]
    rcases s.ordered.find? (fails true root) with _ | o <;> simp [eq_comm]
  rw [hfind]
  simp only [List.find?_eq_some_iff_append, Bool.not_eq_true', ← Bool.not_eq_true, fails_strict_iff]
  constructor
  · rintro ⟨o, ⟨hempty, before, after, hordered, hbefore⟩, rfl⟩
    exact ⟨before, o, after, hordered, hbefore, hempty, rfl⟩
  · rintro ⟨before, o, after, hordered, hbefore, hempty, rfl⟩
    exact ⟨o, ⟨hempty, before, after, hordered, hbefore⟩, rfl⟩

/-! ### Sets of overrides -/

theorem query_text {e : Expression} (he : e.IsWritable) {root : Node} {isStrict : Bool}
    (h : isStrict = true → selected root e ≠ []) :
    query root e.text isStrict = .ok (selected root e) := by
  rw [query_of_parse (Expression.parse_text he), if_neg fun hempty => h hempty.1 hempty.2]
  rfl

/-- **A set is resolved as a whole or not at all.** For overrides that are read from texts and on
which the canonical order is a weak order:

* the order of application is the canonical one, and ties stay as they were supplied;
* a lenient set is always resolved; a strict set fails if and only if one of its overrides selects
  nothing, and the error has the text of the first of these in the order of application;
* a set that is resolved has every override with its own constraint, in the order of application, and
  the places that a query with its text answers, strict if the set is;
* a strict set that is resolved has what the lenient one has. -/
theorem resolve_all_or_nothing {s : OverrideSet α}
    (hread : ∀ o ∈ s.entries, ∃ text, Expression.parse text = .ok o.expression)
    (horder : Expression.IsWeakOrderOn (expressions s.entries)) (root : Node) :
    IsInOrder s.entries s.ordered ∧
    (∃ rs, (s.withStrict false).resolve root = .ok rs) ∧
    ((∃ err, (s.withStrict true).resolve root = .error err) ↔
      ∃ o ∈ s.entries, (compile o.expression).resolve (.root root) = .ok []) ∧
    (∀ err, (s.withStrict true).resolve root = .error err ↔
      ∃ before o after, s.ordered = before ++ o :: after ∧
        (∀ x ∈ before, (compile x.expression).resolve (.root root) ≠ .ok []) ∧
        (compile o.expression).resolve (.root root) = .ok [] ∧ err = ⟨o.expression.text⟩) ∧
    (∀ isStrict rs, (s.withStrict isStrict).resolve root = .ok rs →
      rs.map ResolvedOverride.override = s.ordered ∧
        ∀ r ∈ rs, query root r.override.expression.text isStrict = .ok r.places) ∧
    ∀ rs, (s.withStrict true).resolve root = .ok rs → (s.withStrict false).resolve root = .ok rs := by
  have hperm : s.ordered.Perm s.entries := ordered_perm s
  have hwritable : ∀ o ∈ s.ordered, o.expression.IsWritable := by
    intro o ho
    obtain ⟨text, htext⟩ := hread o (hperm.subset ho)
    exact Expression.isWritable_of_parse htext
  have htext : ∀ o ∈ s.ordered, (compile o.expression).text = o.expression.text := fun o ho =>
    Resolver.text_compile (hwritable o ho).ne_nil
  have hmid : ∀ {before o after}, s.ordered = before ++ o :: after → o ∈ s.ordered := by
    intro before o after hordered
    rw [hordered]
    exact List.mem_append_right before List.mem_cons_self
  refine ⟨isInOrder_ordered horder, ⟨_, resolve_lenient s root⟩, ?_, fun err => ?_,
    fun isStrict rs h => ?_, fun rs h => ?_⟩
  · constructor
    · rintro ⟨err, h⟩
      obtain ⟨before, o, after, hordered, -, hempty, -⟩ := resolve_strict_eq_error_iff.mp h
      exact ⟨o, hperm.subset (hmid hordered), hempty⟩
    · rintro ⟨o, ho, hempty⟩
      rcases hresolve : (s.withStrict true).resolve root with err | rs
      · exact ⟨err, rfl⟩
      · have hmet := (resolve_eq_ok_iff.mp hresolve).1 o (hperm.mem_iff.mpr ho)
        rw [fails_strict_iff.mpr hempty] at hmet
        cases hmet
  · rw [resolve_strict_eq_error_iff]
    constructor
    · rintro ⟨before, o, after, hordered, hbefore, hempty, herr⟩
      rw [htext o (hmid hordered)] at herr
      exact ⟨before, o, after, hordered, hbefore, hempty, herr⟩
    · rintro ⟨before, o, after, hordered, hbefore, hempty, herr⟩
      rw [← htext o (hmid hordered)] at herr
      exact ⟨before, o, after, hordered, hbefore, hempty, herr⟩
  · obtain ⟨hmet, rfl⟩ := resolve_eq_ok_iff.mp h
    refine ⟨by simp [Function.comp_def], fun r hr => ?_⟩
    obtain ⟨o, ho, rfl⟩ := List.mem_map.mp hr
    refine query_text (hwritable o ho) fun hstrict hempty => ?_
    have hfails := hmet o ho
    rw [hstrict, fails, hempty] at hfails
    cases hfails
  · rw [(resolve_eq_ok_iff.mp h).2, resolve_lenient]

/-- Of two overrides that select nothing the one supplied last is told, as it is applied first. The
lenient set has all three in that order. -/
theorem resolve_all_or_nothing_missing :
    let root := Node.anonymous.withChild
      (((Node.object "items").withChild (Node.element 0)).withChild (Node.element 1))
    let deep : Expression := ⟨[⟨"items", [.position 7]⟩, ⟨"x", []⟩]⟩
    let one : Expression := ⟨[⟨"items", [.position 1]⟩]⟩
    let bare : Expression := ⟨[⟨"none", []⟩]⟩
    let s : OverrideSet Nat := ⟨[⟨deep, 1⟩, ⟨one, 2⟩, ⟨bare, 3⟩], false⟩
    (∀ o ∈ s.entries, ∃ text, Expression.parse text = .ok o.expression) ∧
      Expression.IsWeakOrderOn (expressions s.entries) ∧
      s.ordered = [⟨bare, 3⟩, ⟨one, 2⟩, ⟨deep, 1⟩] ∧
      (s.withStrict true).resolve root = .error ⟨"none"⟩ ∧
      ∃ rs, s.resolve root = .ok rs ∧ rs.map ResolvedOverride.override = s.ordered ∧
        ∀ r ∈ rs, query root r.override.expression.text false = .ok r.places := by
  intro root deep one bare s
  have hread : ∀ o ∈ s.entries, ∃ text, Expression.parse text = .ok o.expression := by
    simp only [s, List.forall_mem_cons]
    exact ⟨⟨"items[7].x", by decide +kernel⟩, ⟨"items[1]", by decide +kernel⟩,
      ⟨"none", by decide +kernel⟩, by simp⟩
  have horder : Expression.IsWeakOrderOn (expressions s.entries) := by decide
  have hdeep : (deep.canonical one).isLE = false := by decide
  have hone : (one.canonical bare).isLE = false := by decide
  have hordered : s.ordered = [⟨bare, 3⟩, ⟨one, 2⟩, ⟨deep, 1⟩] := by
    simp [ordered, s, List.mergeSort, hdeep, hone]
  obtain ⟨-, ⟨rs, hrs⟩, -, herror, hplaces, -⟩ := resolve_all_or_nothing hread horder root
  have hstrict : (s.withStrict true).resolve root = .error ⟨"none"⟩ :=
    (herror _).mpr ⟨[], ⟨bare, 3⟩, [⟨one, 2⟩, ⟨deep, 1⟩], hordered, by simp, rfl, by decide +kernel⟩
  exact ⟨hread, horder, hordered, hstrict, rs, hrs, hplaces false rs hrs⟩

end OverrideSet

end TreePath
