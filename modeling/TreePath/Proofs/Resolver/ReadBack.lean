import TreePath.Proofs.Expression.Edit
import TreePath.Proofs.Resolver.Query
import TreePath.Proofs.Resolver.Text

/-! # Compiled expressions are read back

The text of a compiled expression is that of the expression, so that reading it gives the expression
back and different expressions have different resolvers. The empty expression is the one exception:
it has the resolver of `$` and is read back as that. For a query this means that its failure to
select anything can be told in the words of the query.

* `Resolver.text_toStrict`: the strict form has the same text.
* `Resolver.compile_inj`: an expression that is not empty is told by its resolver.
* `Resolver.exists_parse_text_compile`: the text of a compiled expression is read as an expression
  with the same resolver.
* `query_eq_invalid_iff`, `query_eq_noMatch_iff`, `query_eq_ok_iff`: the three answers to a query.
* `Resolver.text_compile_inverse`: all of this for the expressions that can be reached. -/

namespace TreePath

namespace Resolver

/-! ### The text of a resolver read back -/

theorem text_toStrict (r : Resolver) : r.toStrict.text = r.text := by
  unfold toStrict
  split
  · rfl
  · rw [text]

theorem compile_inj {d e : Expression} (hd : d.IsWritable) (he : e.IsWritable) :
    compile d = compile e ↔ d = e := by
  constructor
  · intro h
    have htext : d.text = e.text := by rw [← text_compile hd.ne_nil, h, text_compile he.ne_nil]
    exact Expression.text_injective hd he htext
  · rintro rfl
    rfl

theorem exists_parse_text_compile {e : Expression} (he : e.Reachable) :
    ∃ f, Expression.parse (compile e).text = .ok f ∧ compile f = compile e := by
  rcases he.eq_empty_or_isWritable with rfl | hw
  · -- The empty expression stays in place, and so does `$`.
    exact ⟨⟨[⟨selfName, []⟩]⟩, by decide +kernel, rfl⟩
  · exact ⟨e, by rw [text_compile hw.ne_nil, Expression.parse_text hw], rfl⟩

end Resolver

/-! ### Answers to a query -/

open Resolver (compile)

theorem query_of_parse_error {text : String} {err : InvalidExpression}
    (h : Expression.parse text = .error err) (root : Node) (isStrict : Bool) :
    query root text isStrict = .error (.invalid err) := by
  rw [query, h]

section Answers
variable {root : Node} {text : String} {isStrict : Bool}

theorem query_eq_invalid_iff {err : InvalidExpression} :
    query root text isStrict = .error (.invalid err) ↔ Expression.parse text = .error err := by
  rcases h : Expression.parse text with err' | e
  · rw [query_of_parse_error h]
    simp
  · rw [query_of_parse h]
    split <;> simp

theorem query_eq_noMatch_iff {err : NoMatch} :
    query root text isStrict = .error (.noMatch err) ↔
      isStrict = true ∧ err = ⟨String.ofList (dropEmptyBrackets text.toList)⟩ ∧
        ∃ e, Expression.parse text = .ok e ∧ (compile e).resolve (.root root) = .ok [] := by
  rcases h : Expression.parse text with err' | e
  · rw [query_of_parse_error h]
    simp
  · have htext : (compile e).text = String.ofList (dropEmptyBrackets text.toList) := by
      rw [Resolver.text_compile (Expression.isWritable_of_parse h).ne_nil,
        Expression.text_of_parse h]
    rw [query_of_parse h, htext]
    simp only [Except.ok.injEq, exists_eq_left', Resolver.resolve_compile]
    split
    · next hempty => simp [hempty, eq_comm]
    · next hmet =>
      constructor
      · intro h
        cases h
      · rintro ⟨hstrict, -, hempty⟩
        exact absurd ⟨hstrict, hempty⟩ hmet

theorem query_eq_ok_iff {found : List Place} :
    query root text isStrict = .ok found ↔
      ∃ e, Expression.parse text = .ok e ∧ (compile e).resolve (.root root) = .ok found ∧
        (isStrict = true → found ≠ []) := by
  rcases h : Expression.parse text with err' | e
  · rw [query_of_parse_error h]
    simp
  · rw [query_of_parse h]
    simp only [Except.ok.injEq, exists_eq_left', Resolver.resolve_compile]
    split
    · next hempty =>
      constructor
      · intro h
        cases h
      · rintro ⟨rfl, hne⟩
        exact absurd hempty.2 (hne hempty.1)
    · next hmet =>
      rw [Except.ok.injEq]
      constructor
      · rintro rfl
        exact ⟨rfl, fun hstrict hempty => hmet ⟨hstrict, hempty⟩⟩
      · exact And.left

end Answers

/-! ### Expressions that can be reached -/

namespace Resolver

/-- **A compiled expression is read back.** An expression that can be reached and is not empty has
the text of its resolver, strict or not, and so is told by its resolver; the text of the resolver is
always read as an expression with that resolver, the empty expression being written as `$`.

So a query is refused if and only if its text is, on every tree and with the same error. It fails to
match if and only if it is strict, the text is read, and the lenient resolver selects nothing; what
it then names is the text without its empty brackets. Otherwise it answers what the resolver
selects. -/
theorem text_compile_inverse :
    (∀ e : Expression, e.Reachable → e ≠ Expression.empty →
      (compile e).text = e.text ∧ (compile e).toStrict.text = e.text) ∧
    (∀ d e : Expression, d.Reachable → e.Reachable → d ≠ Expression.empty → e ≠ Expression.empty →
      compile d = compile e → d = e) ∧
    (∀ e : Expression, e.Reachable →
      ∃ f, Expression.parse (compile e).text = .ok f ∧ compile f = compile e) ∧
    (compile Expression.empty).text = selfName ∧
    ∀ root text isStrict,
      (∀ err, query root text isStrict = .error (.invalid err) ↔
        Expression.parse text = .error err) ∧
      (∀ err, query root text isStrict = .error (.noMatch err) ↔
        isStrict = true ∧ err = ⟨String.ofList (dropEmptyBrackets text.toList)⟩ ∧
          ∃ e, Expression.parse text = .ok e ∧ (compile e).resolve (.root root) = .ok []) ∧
      ∀ found, query root text isStrict = .ok found ↔
        ∃ e, Expression.parse text = .ok e ∧ (compile e).resolve (.root root) = .ok found ∧
          (isStrict = true → found ≠ []) := by
  refine ⟨fun e he hne => ?_, fun d e hd he hdne hene h => ?_, fun e => exists_parse_text_compile,
    rfl, fun root text isStrict => ⟨fun err => query_eq_invalid_iff,
      fun err => query_eq_noMatch_iff, fun found => query_eq_ok_iff⟩⟩
  · rw [text_toStrict, text_compile (he.isWritable hne).ne_nil]
    exact ⟨rfl, rfl⟩
  · exact (compile_inj (hd.isWritable hdne) (he.isWritable hene)).mp h

/-- `$` among names and selectors, and a strict query that names itself without its empty
bracket. -/
theorem text_compile_inverse_self :
    let e : Expression := ⟨[⟨"$", [.position 0]⟩, ⟨"a", [.wildcard, .position 2]⟩, ⟨"$", []⟩]⟩
    e.Reachable ∧ e ≠ Expression.empty ∧ (compile e).text = "$[0].a[*][2].$" ∧
      (compile e).toStrict.text = "$[0].a[*][2].$" ∧
      (∀ d : Expression, d.Reachable → d ≠ Expression.empty → compile d = compile e → d = e) ∧
      (∃ f, Expression.parse "$[0].a[*][2].$" = .ok f ∧ compile f = compile e) ∧
      Expression.parse "a[][0]" = .ok ⟨[⟨"a", [.position 0]⟩]⟩ ∧
      query (Node.object "b") "a[][0]" true = .error (.noMatch ⟨"a[0]"⟩) ∧
      query (Node.object "b") "a[][0]" false = .ok [] := by
  intro e
  have hread : Expression.parse "$[0].a[*][2].$" = .ok e := by decide +kernel
  have he : e.Reachable := .parse hread
  have hne : e ≠ Expression.empty := by decide
  have hread' : Expression.parse "a[][0]" = .ok ⟨[⟨"a", [.position 0]⟩]⟩ := by decide +kernel
  have htext : e.text = "$[0].a[*][2].$" := by decide +kernel
  have hbare : (⟨"a[0]"⟩ : NoMatch) = ⟨String.ofList (dropEmptyBrackets "a[][0]".toList)⟩ := by
    decide +kernel
  obtain ⟨hwritten, htold, hback, -, hanswers⟩ := text_compile_inverse
  obtain ⟨hplain, hstrict⟩ := hwritten e he hne
  obtain ⟨-, hnone, -⟩ := hanswers (Node.object "b") "a[][0]" true
  obtain ⟨-, -, hfound⟩ := hanswers (Node.object "b") "a[][0]" false
  refine ⟨he, hne, hplain.trans htext, hstrict.trans htext,
    fun d hd hdne h => htold d e hd he hdne hne h, ?_, hread', ?_, ?_⟩
  · have h := hback e he
    rwa [hplain, htext] at h
  · exact (hnone _).mpr ⟨rfl, hbare, _, hread', rfl⟩
  · exact (hfound _).mpr ⟨_, hread', rfl, by simp⟩

end Resolver

end TreePath
