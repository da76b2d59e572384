import TreePath.Proofs.Expression.Grammar

/-! # Writing and reading expressions

The text of an expression denotes that expression, provided that it has segments and each of them a
name of the grammar. These expressions are called *writable*; every expression that is read from a
text is writable. What a text says beyond the expression that it denotes are its empty brackets.

* `Expression.isText_text`: a writable expression is denoted by its own text.
* `Expression.parse_text`: the text is read as the expression.
* `Expression.isWritable_of_parse`: what is read is writable.
* `Expression.text_of_isText`: a text less its empty brackets is the text of the expression read.
* `Expression.text_parse_inverse`: writing and reading undo each other. -/

namespace TreePath

/-! ### Selectors and segments -/

theorem Selector.isBody_text (i : Selector) : IsBody i.text.toList (some i) := by
  cases i with
  | wildcard => exact .wildcard
  | position n =>
    have h := IsBody.position n.toNat (UInt64.toNat_lt_size n)
    rwa [UInt64.ofNat_toNat] at h

theorem Segment.isBrackets_bracketsText : ∀ is : List Selector,
    IsBrackets (bracketsText is).toList is
  | [] => .nil
  | i :: is => by
    have h := IsBrackets.cons i.isBody_text (isBrackets_bracketsText is)
    have ht : (bracketsText (i :: is)).toList =
        '[' :: (i.text.toList ++ ']' :: (bracketsText is).toList) := by
      simp [bracketsText]
    rw [ht]; exact h

theorem Segment.isText_text {s : Segment} (h : IsName s.name) :
    Segment.IsText s.text.toList s := by
  rw [Segment.text, String.toList_append]
  exact .intro h (isBrackets_bracketsText s.indices)

theorem bracketsText_append (is js : List Selector) :
    Segment.bracketsText (is ++ js) = Segment.bracketsText is ++ Segment.bracketsText js := by
  induction is with
  | nil => rw [List.nil_append, Segment.bracketsText, String.empty_append]
  | cons i is ih =>
    rw [List.cons_append, Segment.bracketsText, Segment.bracketsText, ih]
    simp only [String.append_assoc]

/-! ### Expressions -/

theorem segmentsText_cons {s : Segment} {rest : List Segment} (h : rest ≠ []) :
    Expression.segmentsText (s :: rest) = s.text ++ "." ++ Expression.segmentsText rest := by
  obtain ⟨t, ts, rfl⟩ := List.exists_cons_of_ne_nil h
  rw [Expression.segmentsText]

namespace Expression

/-- There are segments, and each has a name of the grammar. -/
structure IsWritable (e : Expression) : Prop where
  ne_nil : e.segments ≠ []
  isName : ∀ s ∈ e.segments, IsName s.name

/-- A text is the texts of the segments with dots between them. -/
theorem toList_segmentsText : ∀ segments : List Segment,
    (segmentsText segments).toList = ['.'].intercalate (segments.map fun s => s.text.toList)
  | [] => rfl
  | [s] => by simp [segmentsText]
  | s :: t :: rest => by
    rw [segmentsText, String.toList_append, String.toList_append, toList_segmentsText (t :: rest),
      List.map_cons, List.map_cons, List.map_cons, List.intercalate_cons_cons]
    rfl

theorem isText_text {e : Expression} (h : e.IsWritable) : IsText e.text e := by
  refine ⟨e.segments.map fun s => s.text.toList, by simpa using h.ne_nil, ?_, ?_⟩
  · exact toList_segmentsText e.segments
  rw [List.forall₂_map_left_iff, List.forall₂_same]
  exact fun s hs => Segment.isText_text (h.isName s hs)

theorem parse_text {e : Expression} (h : e.IsWritable) : Expression.parse e.text = .ok e :=
  parse_eq_ok_iff.mpr (isText_text h)

theorem isWritable_of_parse {text : String} {e : Expression} (h : Expression.parse text = .ok e) :
    e.IsWritable := by
  obtain ⟨pieces, hne, -, hall⟩ := parse_eq_ok_iff.mp h
  refine ⟨?_, fun s hs => ?_⟩
  · intro he
    rw [he, List.forall₂_nil_right_iff] at hall
    exact hne hall
  · obtain ⟨i, hi, rfl⟩ := List.getElem_of_mem hs
    have hlt : i < pieces.length := by rw [hall.length_eq]; exact hi
    exact (hall.get hlt hi).isName

end Expression

/-! ### Empty brackets -/

/-- Characters with each opening bracket taken out that is closed at once, and its closing one. -/
def dropEmptyBrackets : List Char → List Char
  | [] => []
  | [c] => [c]
  | c :: d :: cs =>
    if c = '[' ∧ d = ']' then dropEmptyBrackets cs else c :: dropEmptyBrackets (d :: cs)

theorem dropEmptyBrackets_cons {c : Char} {cs : List Char} (h : c = '[' → cs.head? ≠ some ']') :
    dropEmptyBrackets (c :: cs) = c :: dropEmptyBrackets cs := by
  rcases cs with _ | ⟨d, cs⟩
  · rfl
  · have hne : ¬ (c = '[' ∧ d = ']') := by
      rintro ⟨hc, rfl⟩
      exact h hc rfl
    rw [dropEmptyBrackets, if_neg hne]

/-- Characters that open no bracket stay. -/
theorem dropEmptyBrackets_append : ∀ {b : List Char}, (∀ c ∈ b, c ≠ '[') → ∀ cs : List Char,
    dropEmptyBrackets (b ++ cs) = b ++ dropEmptyBrackets cs
  | [], _, _ => rfl
  | c :: b, h, cs => by
    have hc : c ≠ '[' := h c (by simp)
    rw [List.cons_append, dropEmptyBrackets_cons fun hc' => absurd hc' hc,
      dropEmptyBrackets_append (fun d hd => h d (by simp [hd])), List.cons_append]

/-- A bracket with a body stays. -/
theorem dropEmptyBrackets_bracket {body : List Char} (hne : body ≠ [])
    (h : ∀ c ∈ body, c ≠ '[' ∧ c ≠ ']') (cs : List Char) :
    dropEmptyBrackets ('[' :: (body ++ ']' :: cs)) = '[' :: (body ++ ']' :: dropEmptyBrackets cs) := by
  have hhead : (body ++ ']' :: cs).head? ≠ some ']' := by
    obtain ⟨c, b, rfl⟩ := List.exists_cons_of_ne_nil hne
    simpa using (h c (by simp)).2
  rw [dropEmptyBrackets_cons fun _ => hhead, dropEmptyBrackets_append fun c hc => (h c hc).1,
    dropEmptyBrackets_cons fun hc => absurd hc (by decide)]

/-- Without empty brackets there is nothing to take out. -/
theorem dropEmptyBrackets_eq_self : ∀ {cs : List Char}, ¬ ['[', ']'] <:+: cs →
    dropEmptyBrackets cs = cs
  | [], _ => rfl
  | c :: cs, h => by
    have hhead : c = '[' → cs.head? ≠ some ']' := by
      rintro rfl hcs
      obtain ⟨rest, rfl⟩ := List.head?_eq_some_iff.mp hcs
      exact h (List.prefix_append ['[', ']'] rest).isInfix
    have hrest : ¬ ['[', ']'] <:+: cs := fun hin => h (hin.trans (List.suffix_cons c cs).isInfix)
    rw [dropEmptyBrackets_cons hhead, dropEmptyBrackets_eq_self hrest]

/-! ### From the text read to the text written -/

theorem Selector.IsBody.eq_nil {body : List Char} (h : IsBody body none) : body = [] := by
  cases h; rfl

theorem Selector.IsBody.ne_nil {body : List Char} {i : Selector} (h : IsBody body (some i)) :
    body ≠ [] := by
  rintro rfl
  have hread := read_eq_ok_iff.mpr h
  rw [read, if_pos rfl] at hread
  cases hread

/-- A body that selects is what its selector is written as. -/
theorem Selector.IsBody.eq_text {body : List Char} {i : Selector} (h : IsBody body (some i)) :
    body = i.text.toList := by
  cases h with
  | wildcard => rfl
  | position n hn => rw [Selector.text, UInt64.toNat_ofNat_of_lt' hn]

theorem IsBrackets.dropEmptyBrackets_append {cs : List Char} {is : List Selector}
    (h : IsBrackets cs is) (rest : List Char) :
    dropEmptyBrackets (cs ++ rest) = (Segment.bracketsText is).toList ++ dropEmptyBrackets rest := by
  induction h with
  | nil => rfl
  | @cons body cs i is hbody _ ih =>
    rw [List.cons_append, List.append_assoc, List.cons_append]
    rcases i with _ | i
    · rw [hbody.eq_nil, List.nil_append, dropEmptyBrackets, if_pos ⟨rfl, rfl⟩, ih]
      rfl
    · have hne : body ≠ [] := hbody.ne_nil
      rw [dropEmptyBrackets_bracket hne fun c hc => (hbody.plain c hc).2, ih, hbody.eq_text]
      simp [Segment.bracketsText]

theorem Segment.IsText.dropEmptyBrackets_append {piece : List Char} {s : Segment}
    (h : Segment.IsText piece s) (rest : List Char) :
    dropEmptyBrackets (piece ++ rest) = s.text.toList ++ dropEmptyBrackets rest := by
  obtain ⟨hn, hb⟩ := h
  rw [List.append_assoc, TreePath.dropEmptyBrackets_append fun c hc => (hn.plain c hc).2.1,
    hb.dropEmptyBrackets_append, Segment.text, String.toList_append, List.append_assoc]

namespace Expression

theorem dropEmptyBrackets_intercalate : ∀ {pieces : List (List Char)} {segments : List Segment},
    List.Forall₂ Segment.IsText pieces segments →
      dropEmptyBrackets (['.'].intercalate pieces) = (segmentsText segments).toList
  | [], _, .nil => rfl
  | [p], [s], .cons hp .nil => by
    have h := hp.dropEmptyBrackets_append []
    rw [List.append_nil, dropEmptyBrackets, List.append_nil] at h
    rw [List.intercalate_singleton, h, segmentsText]
  | p :: q :: pieces, s :: t :: segments, .cons hp hrest => by
    rw [List.intercalate_cons_cons, List.append_assoc, hp.dropEmptyBrackets_append,
      List.singleton_append, dropEmptyBrackets_cons fun hc => absurd hc (by decide),
      dropEmptyBrackets_intercalate hrest, segmentsText, String.toList_append, String.toList_append, List.append_assoc]
    rfl

theorem text_of_isText {text : String} {e : Expression} (h : IsText text e) :
    e.text = String.ofList (dropEmptyBrackets text.toList) := by
  obtain ⟨pieces, -, htext, hall⟩ := h
  rw [htext, dropEmptyBrackets_intercalate hall, String.ofList_toList]
  rfl

theorem text_of_parse {text : String} {e : Expression} (h : Expression.parse text = .ok e) :
    e.text = String.ofList (dropEmptyBrackets text.toList) :=
  text_of_isText (parse_eq_ok_iff.mp h)

theorem text_injective {d e : Expression} (hd : d.IsWritable) (he : e.IsWritable)
    (h : d.text = e.text) : d = e := by
  have hp := parse_text hd
  rw [h, parse_text he] at hp
  cases hp
  rfl

/-- **Writing and reading undo each other.** A text that is read is written again without its empty
brackets, and this is read as before; segments with names of the grammar are read as they are
written. So expressions that are read differ in their texts. -/
theorem text_parse_inverse :
    (∀ text e, Expression.parse text = .ok e →
      e.text = String.ofList (dropEmptyBrackets text.toList) ∧
      (¬ ['[', ']'] <:+: text.toList → e.text = text) ∧
      Expression.parse e.text = .ok e) ∧
    (∀ segments : List Segment, segments ≠ [] → (∀ s ∈ segments, IsName s.name) →
      Expression.parse (segmentsText segments) = .ok ⟨segments⟩) ∧
    ∀ s t d e, Expression.parse s = .ok d → Expression.parse t = .ok e → d.text = e.text → d = e := by
  refine ⟨fun text e h => ⟨text_of_parse h, fun hempty => ?_, parse_text (isWritable_of_parse h)⟩,
    fun segments hne hnames => parse_text (e := ⟨segments⟩) ⟨hne, hnames⟩, fun s t d e hd he h => ?_⟩
  · rw [text_of_parse h, dropEmptyBrackets_eq_self hempty, String.ofList_toList]
  · exact text_injective (isWritable_of_parse hd) (isWritable_of_parse he) h

/-- A text with two empty brackets, and its segments read back. -/
theorem text_parse_inverse_emptied :
    let e : Expression := ⟨[⟨"a", [.position 0]⟩, ⟨"b", []⟩]⟩
    Expression.parse "a[][0].b[]" = .ok e ∧ ¬ ['[', ']'] <:+: "a[0].b".toList ∧
      e.text = String.ofList (dropEmptyBrackets "a[][0].b[]".toList) ∧ e.text = "a[0].b" ∧
      Expression.parse e.text = .ok e ∧ Expression.parse (segmentsText e.segments) = .ok e ∧
      ∀ d, Expression.parse "a[0].b" = .ok d → d.text = e.text → d = e := by
  intro e
  have hread : Expression.parse "a[][0].b[]" = .ok e := by decide +kernel
  have hread' : Expression.parse "a[0].b" = .ok e := by decide +kernel
  have hfull : ¬ ['[', ']'] <:+: "a[0].b".toList := by decide +kernel
  have hnames : ∀ s ∈ e.segments, IsName s.name := by
    simp only [e, List.forall_mem_cons]
    exact ⟨⟨by decide, by simp⟩, ⟨by decide, by simp⟩, by simp⟩
  obtain ⟨hbare, -, hback⟩ := text_parse_inverse.1 _ _ hread
  exact ⟨hread, hfull, hbare, (text_parse_inverse.1 _ _ hread').2.1 hfull, hback,
    text_parse_inverse.2.1 e.segments (by simp [e]) hnames,
    fun d hd h => text_parse_inverse.2.2 _ _ d e hd hread h⟩

end Expression

end TreePath
