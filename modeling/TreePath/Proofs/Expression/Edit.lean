import TreePath.Expression.Edit
import TreePath.Proofs.Expression.RoundTrip

/-! # Growing and shrinking expressions

Growing an expression by text concatenates segments, and shrinking it keeps the names. So whatever
is made from texts by growing and shrinking is writable, unless nothing is left of it.

* `Expression.parse_append_dot`: texts with a dot between them are read one after the other, and the
  first fault of the left one is told before any of the right one.
* `Expression.Reachable`: what growing and shrinking make of texts and of the empty expression.
* `Expression.Reachable.eq_empty_or_isWritable`: the invariant of growing and shrinking.
* `Expression.add_concatenates`: adding text to such an expression adds the segments of the text, or
  fails as the text does. -/

namespace TreePath

/-! ### Reading texts one after the other -/

theorem readPieces_append (ps qs : List (List Char)) :
    readPieces (ps ++ qs) =
      match readPieces ps with
      | .error err => .error err
      | .ok segments => (readPieces qs).map (segments ++ ·) := by
  induction ps with
  | nil =>
    rw [List.nil_append, readPieces]
    rcases readPieces qs with err | segments <;> rfl
  | cons p ps ih =>
    rw [List.cons_append, readPieces, readPieces]
    rcases Segment.read p with fault | s
    · rfl
    · simp only [ih]
      rcases readPieces ps with err | segments
      · rfl
      · rcases readPieces qs with err | more <;> rfl

namespace Expression

theorem parse_append_dot (s t : String) :
    Expression.parse (s ++ "." ++ t) =
      match Expression.parse s with
      | .error err => .error err
      | .ok d => (Expression.parse t).map fun e => ⟨d.segments ++ e.segments⟩ := by
  have htext : (s ++ "." ++ t).toList = s.toList ++ '.' :: t.toList := by simp
  rw [parse, parse, parse, htext, Text.split_append_cons, readPieces_append]
  rcases readPieces (Text.split '.' s.toList) with err | segments
  · rfl
  · rcases readPieces (Text.split '.' t.toList) with err | more <;> rfl

/-! ### Growing -/

theorem addLast_of_isWritable {e : Expression} (he : e.IsWritable) (text : String) :
    e.addLast text = (Expression.parse text).map fun d => ⟨e.segments ++ d.segments⟩ := by
  have hne : e.isEmpty = false := by simpa [isEmpty] using he.ne_nil
  rw [addLast, if_neg (by simp [hne]), parse_append_dot, parse_text he]

theorem addFirst_of_isWritable {e : Expression} (he : e.IsWritable) (text : String) :
    e.addFirst text = (Expression.parse text).map fun d => ⟨d.segments ++ e.segments⟩ := by
  have hne : e.isEmpty = false := by simpa [isEmpty] using he.ne_nil
  -- The added text is read first: if it is refused, the expression behind it is never looked at.
  rw [addFirst, if_neg (by simp [hne]), parse_append_dot, parse_text he]
  rcases Expression.parse text with err | d <;> rfl

/-- What has grown was read from a text. -/
theorem isWritable_of_addFirst {e f : Expression} {text : String} (h : e.addFirst text = .ok f) :
    f.IsWritable := by
  unfold addFirst at h
  split at h <;> exact isWritable_of_parse h

theorem isWritable_of_addLast {e f : Expression} {text : String} (h : e.addLast text = .ok f) :
    f.IsWritable := by
  unfold addLast at h
  split at h <;> exact isWritable_of_parse h

/-! ### Shrinking -/

/-- Taking the last step away brings no new name in. -/
theorem exists_name_eq_of_mem_dropLastStep : ∀ {segments : List Segment} {s : Segment},
    s ∈ dropLastStep segments → ∃ t ∈ segments, t.name = s.name
  | [t], s, hs => by
    by_cases ht : t.indices = []
    · rw [dropLastStep, if_pos ht] at hs
      exact absurd hs List.not_mem_nil
    · rw [dropLastStep, if_neg ht, List.mem_singleton] at hs
      exact ⟨t, List.mem_singleton_self t, by rw [hs]⟩
  | t :: u :: rest, s, hs => by
    rw [dropLastStep] at hs
    rcases List.mem_cons.mp hs with rfl | hs
    · exact ⟨s, List.mem_cons_self, rfl⟩
    · obtain ⟨v, hv, hname⟩ := exists_name_eq_of_mem_dropLastStep hs
      exact ⟨v, List.mem_cons_of_mem t hv, hname⟩

theorem eq_empty_or_isWritable_pollLast {e : Expression} (he : e.IsWritable) :
    e.pollLast = empty ∨ e.pollLast.IsWritable := by
  by_cases h : dropLastStep e.segments = []
  · left
    rw [pollLast, h, empty]
  · right
    refine ⟨h, fun s hs => ?_⟩
    obtain ⟨t, ht, hname⟩ := exists_name_eq_of_mem_dropLastStep hs
    rw [← hname]
    exact he.isName t ht

/-! ### What can be reached -/

/-- Made from texts or from the empty expression by growing and shrinking. -/
inductive Reachable : Expression → Prop
  | empty : Reachable empty
  | parse {text : String} {e : Expression} : Expression.parse text = .ok e → Reachable e
  | addFirst {e f : Expression} {text : String} :
    Reachable e → e.addFirst text = .ok f → Reachable f
  | addLast {e f : Expression} {text : String} :
    Reachable e → e.addLast text = .ok f → Reachable f
  | pollLast {e : Expression} : Reachable e → Reachable e.pollLast

theorem Reachable.eq_empty_or_isWritable {e : Expression} (he : e.Reachable) :
    e = Expression.empty ∨ e.IsWritable := by
  induction he with
  | empty => exact Or.inl rfl
  | parse h => exact Or.inr (isWritable_of_parse h)
  | addFirst _ h _ => exact Or.inr (isWritable_of_addFirst h)
  | addLast _ h _ => exact Or.inr (isWritable_of_addLast h)
  | pollLast _ ih =>
    rcases ih with rfl | hw
    · exact Or.inl rfl
    · exact eq_empty_or_isWritable_pollLast hw

theorem Reachable.isWritable {e : Expression} (he : e.Reachable) (hne : e ≠ Expression.empty) :
    e.IsWritable :=
  he.eq_empty_or_isWritable.resolve_left hne

/-- What can be reached is told by its text: only the empty expression has the empty text, and any
other is read from its own. -/
theorem Reachable.text_inj {d e : Expression} (hd : d.Reachable) (he : e.Reachable) :
    d.text = e.text ↔ d = e := by
  have hempty : ∀ {f : Expression}, f.IsWritable → f.text ≠ Expression.empty.text := by
    intro f hf htext
    have hread := parse_text hf
    rw [htext] at hread
    cases hread
  constructor
  · intro h
    rcases hd.eq_empty_or_isWritable with rfl | hd <;> rcases he.eq_empty_or_isWritable with rfl | he
    · rfl
    · exact absurd h.symm (hempty he)
    · exact absurd h (hempty hd)
    · exact text_injective hd he h
  · rintro rfl
    rfl

theorem Reachable.addLast_eq_ok {d e : Expression} (he : e.Reachable) {text : String}
    (hd : Expression.parse text = .ok d) : e.addLast text = .ok ⟨e.segments ++ d.segments⟩ := by
  rcases he.eq_empty_or_isWritable with rfl | hw
  · exact hd
  · rw [addLast_of_isWritable hw, hd]
    rfl

theorem Reachable.addFirst_eq_ok {d e : Expression} (he : e.Reachable) {text : String}
    (hd : Expression.parse text = .ok d) : e.addFirst text = .ok ⟨d.segments ++ e.segments⟩ := by
  rcases he.eq_empty_or_isWritable with rfl | hw
  · have hsegments : d.segments ++ Expression.empty.segments = d.segments := List.append_nil _
    rw [hsegments]
    exact hd
  · rw [addFirst_of_isWritable hw, hd]
    rfl

/-- **Adding text adds its segments.** To an expression that can be reached a text adds the segments
that it is read as, behind or in front, and where the text is refused the sum is refused with the
same error. The expression itself is empty or read from its own text. -/
theorem add_concatenates {e : Expression} (he : e.Reachable) :
    (∀ text, e.addLast text =
      (Expression.parse text).map fun d => ⟨e.segments ++ d.segments⟩) ∧
    (∀ text, e.addFirst text =
      (Expression.parse text).map fun d => ⟨d.segments ++ e.segments⟩) ∧
    (e = Expression.empty ∨ Expression.parse e.text = .ok e) := by
  rcases he.eq_empty_or_isWritable with rfl | hw
  · refine ⟨fun text => ?_, fun text => ?_, Or.inl rfl⟩
    · have h : Expression.empty.addLast text = Expression.parse text := rfl
      rw [h]
      rcases Expression.parse text with err | d <;> rfl
    · have h : Expression.empty.addFirst text = Expression.parse text := rfl
      rw [h]
      rcases Expression.parse text with err | d
      · rfl
      · simp [Except.map, Expression.empty]
  · exact ⟨addLast_of_isWritable hw, addFirst_of_isWritable hw, Or.inr (parse_text hw)⟩

/-- Growing at both ends after a step back. -/
theorem add_concatenates_polled :
    let e : Expression := ⟨[⟨"items", [.position 0]⟩]⟩
    e.Reachable ∧ e.addLast "a.b[2]" =
        .ok ⟨[⟨"items", [.position 0]⟩, ⟨"a", []⟩, ⟨"b", [.position 2]⟩]⟩ ∧
      e.addLast "a..b[" = .error ⟨"", .empty⟩ ∧ e.addFirst "a.b[" = .error ⟨"b[", .unclosed⟩ ∧
      Expression.parse e.text = .ok e := by
  intro e
  have hread : Expression.parse "items[0][1]" = .ok ⟨[⟨"items", [.position 0, .position 1]⟩]⟩ := by
    decide +kernel
  have he : e.Reachable := .pollLast (.parse hread)
  obtain ⟨hlast, hfirst, hself⟩ := add_concatenates he
  have hne : e ≠ Expression.empty := by decide
  exact ⟨he, (hlast _).trans (by decide +kernel), (hlast _).trans (by decide +kernel),
    (hfirst _).trans (by decide +kernel), hself.resolve_left hne⟩

end Expression

end TreePath
