import TreePath.Resolver.Basic

/-! # The text of a compiled expression

A compiled expression is nested to the left, over its segments and again over the selectors of each
segment. The text of a resolver puts a dot in front of an inner part unless this is a selector, so
that the text of the compiled expression is that of the expression.

* `Resolver.text_compileSegment`: the text of a compiled segment.
* `Resolver.text_compile`: the text of a compiled expression, unless it has no segments. -/

namespace TreePath.Resolver

theorem text_foldl_byIndex : ∀ (is : List Selector) (r : Resolver),
    (is.foldl (fun r i => composite r (byIndex i)) r).text = r.text ++ Segment.bracketsText is
  | [], r => by rw [List.foldl_nil, Segment.bracketsText, String.append_empty]
  | i :: is, r => by
    rw [List.foldl_cons, text_foldl_byIndex is, text, Segment.bracketsText]
    simp only [String.append_assoc]

theorem text_compileSegment (s : Segment) : (compileSegment s).text = s.text := by
  have hname : (if s.isSelf then identity else byName s.name).text = s.name := by
    split
    · next hself =>
      have hself : s.name = selfName := eq_of_beq hself
      rw [text, hself]
    · rw [text]
  rw [compileSegment, text_foldl_byIndex, hname, Segment.text]

theorem foldl_byIndex_ne (i : Selector) : ∀ (is : List Selector) (r : Resolver), r ≠ byIndex i →
    is.foldl (fun r i => composite r (byIndex i)) r ≠ byIndex i
  | [], _, hr => hr
  | j :: is, r, _ => foldl_byIndex_ne i is (composite r (byIndex j)) (by simp)

/-- A compiled segment is no bare selector, so that a dot goes in front of it. -/
theorem text_composite_compileSegment (r : Resolver) (s : Segment) :
    (composite r (compileSegment s)).text = r.text ++ "." ++ s.text := by
  have hne : ∀ i, compileSegment s ≠ byIndex i := by
    intro i
    refine foldl_byIndex_ne i s.indices _ ?_
    split <;> simp
  rw [text, text_compileSegment]
  exact hne

/-- The text so far is that of the segments up to the last one read. -/
theorem text_foldl_compileSegment (before : String) : ∀ (ts : List Segment) (s : Segment)
    (r : Resolver), r.text = before ++ s.text →
      (ts.foldl (fun r t => composite r (compileSegment t)) r).text =
        before ++ Expression.segmentsText (s :: ts)
  | [], s, r, hr => by rw [List.foldl_nil, hr, Expression.segmentsText]
  | t :: ts, s, r, hr => by
    have ht : (composite r (compileSegment t)).text = (before ++ s.text ++ ".") ++ t.text := by
      rw [text_composite_compileSegment, hr]
    rw [List.foldl_cons, text_foldl_compileSegment _ ts t _ ht, Expression.segmentsText]
    simp only [String.append_assoc]

theorem text_compile {e : Expression} (he : e.segments ≠ []) : (compile e).text = e.text := by
  obtain ⟨s, ts, hsegments⟩ := List.exists_cons_of_ne_nil he
  have h := text_foldl_compileSegment "" ts s (compileSegment s)
  rw [String.empty_append, String.empty_append] at h
  rw [compile, hsegments, Expression.text, hsegments]
  exact h (text_compileSegment s)

end TreePath.Resolver
