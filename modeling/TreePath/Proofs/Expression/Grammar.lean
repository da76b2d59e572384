import TreePath.Expression.Parser
import TreePath.Proofs.Text.Decimal
import TreePath.Proofs.Text.Split
import Mathlib.Data.List.Forall2
import Mathlib.Data.List.TakeWhile
import Mathlib.Tactic.SplitIfs

/-! # The grammar of expressions

The texts of expressions, said without a reader. A *bracket* holds nothing, `*`, or a number of 64
bits in decimal. A *segment* is a name followed by brackets, an *expression* one segment or more
with a dot between neighbours.

* `Selector.IsBody`, `IsBrackets`, `Segment.IsText`, `Expression.IsText`: the grammar, each relation
  with the value that its text denotes.
* `Selector.read_eq_ok_iff`, `readBrackets_eq_ok_iff`, `Segment.read_eq_ok_iff`,
  `Expression.parse_eq_ok_iff`: each reader accepts what its relation derives, and returns the
  value derived.
* `Expression.parse_accepts_grammar`: a text is accepted if it denotes an expression, which is then
  the answer, and refused if it denotes none. -/

namespace TreePath

/-! ### The relations -/

/-- The body of a bracket, and what it selects. -/
inductive Selector.IsBody : List Char → Option Selector → Prop
  | empty : IsBody [] none
  | wildcard : IsBody ['*'] (some .wildcard)
  | position (n : Nat) (hn : n < UInt64.size) :
    IsBody (Nat.repr n).toList (some (.position (UInt64.ofNat n)))

/-- Brackets in a row, and the selectors of those that are not empty. -/
inductive IsBrackets : List Char → List Selector → Prop
  | nil : IsBrackets [] []
  | cons {body rest : List Char} {i : Option Selector} {is : List Selector} :
    Selector.IsBody body i → IsBrackets rest is →
      IsBrackets ('[' :: (body ++ ']' :: rest)) (i.toList ++ is)

/-- A name has characters, none of which is a dot or a bracket. -/
structure IsName (name : String) : Prop where
  ne_empty : name ≠ ""
  plain : ∀ c ∈ name.toList, c ≠ '.' ∧ c ≠ '[' ∧ c ≠ ']'

/-- A name and brackets. -/
inductive Segment.IsText : List Char → Segment → Prop
  | intro {name : String} {brackets : List Char} {is : List Selector} :
    IsName name → IsBrackets brackets is → IsText (name.toList ++ brackets) ⟨name, is⟩

/-- Segments with a dot between neighbours. -/
def Expression.IsText (text : String) (e : Expression) : Prop :=
  ∃ pieces, pieces ≠ [] ∧ text.toList = ['.'].intercalate pieces ∧
    List.Forall₂ Segment.IsText pieces e.segments

/-! ### Bodies of brackets -/

theorem Selector.read_digits {body : List Char} (h : Text.IsNumeral body) :
    Selector.read body =
      if Text.digitsValue 10 body < UInt64.size then
        .ok (some (.position (UInt64.ofNat (Text.digitsValue 10 body))))
      else .error (.indexTooLarge (String.ofList body)) := by
  have hstar : body ≠ ['*'] := by
    rintro rfl
    exact absurd (h.digits '*' (by simp)) (by decide)
  have hall : (!body.all Char.isDigit) = false := by
    rw [Bool.not_eq_false', List.all_eq_true]; exact h.digits
  have hzero : (decide (body.length > 1) && body.head? == some '0') = false := by
    rw [Bool.and_eq_false_imp, decide_eq_true_eq, beq_eq_false_iff_ne]; exact h.noZero
  rw [Selector.read, if_neg h.ne_nil, if_neg hstar, if_neg (by rw [hall]; simp),
    if_neg (by rw [hzero]; simp)]

theorem Selector.read_eq_ok_iff {body : List Char} {i : Option Selector} :
    Selector.read body = .ok i ↔ IsBody body i := by
  constructor
  · intro h
    unfold Selector.read at h
    split_ifs at h with h1 h2 h3 h4 h5
    · subst h1; cases h; exact .empty
    · subst h2; cases h; exact .wildcard
    · cases h
      have hnum : Text.IsNumeral body := by
        refine ⟨h1, by simpa using h3, fun hl h0 => h4 ?_⟩
        rw [Bool.and_eq_true, decide_eq_true_eq, beq_iff_eq]
        exact ⟨hl, h0⟩
      have hb := IsBody.position _ h5
      rwa [Nat.toList_repr, hnum.toDigits_digitsValue] at hb
  · rintro (_ | _ | ⟨n, hn⟩)
    · rfl
    · rfl
    · rw [Nat.toList_repr, read_digits (Text.isNumeral_toDigits n), Text.digitsValue_toDigits,
        if_pos hn]

/-- A body holds neither brackets nor dots. -/
theorem Selector.IsBody.plain {body : List Char} {i : Option Selector} (h : IsBody body i) :
    ∀ c ∈ body, c ≠ '.' ∧ c ≠ '[' ∧ c ≠ ']' := by
  intro c hc
  cases h with
  | empty => simp at hc
  | wildcard => rw [List.mem_singleton] at hc; subst hc; decide
  | position n hn =>
    rw [Nat.toList_repr] at hc
    have hd : c.isDigit = true := (Text.isNumeral_toDigits n).digits c hc
    refine ⟨?_, ?_, ?_⟩ <;> rintro rfl <;> revert hd <;> decide

/-! ### Brackets -/

theorem isNameChar_iff {c : Char} : isNameChar c = true ↔ c ≠ '[' ∧ c ≠ ']' := by
  simp [isNameChar]

/-- Characters that are no brackets go to the body. -/
theorem readBody_append : ∀ (b : List Char) (offset : Nat) (body cs : List Char),
    (∀ c ∈ b, isNameChar c = true) →
      readBody offset body (b ++ cs) = readBody (offset + utf8Length b) (body ++ b) cs
  | [], offset, body, cs, _ => by simp [utf8Length]
  | c :: b, offset, body, cs, h => by
    obtain ⟨ho, hc⟩ := isNameChar_iff.mp (h c (by simp))
    rw [List.cons_append, readBody, if_neg hc, if_neg ho,
      readBody_append b _ _ _ fun d hd => h d (by simp [hd]), utf8Length, Nat.add_assoc,
      List.append_assoc]
    rfl

/-- Text up to its first bracket, if it has one. -/
theorem exists_append_bracket (cs : List Char) :
    ∃ b rest, cs = b ++ rest ∧ (∀ c ∈ b, isNameChar c = true) ∧
      (rest = [] ∨ ∃ tail, rest = '[' :: tail ∨ rest = ']' :: tail) := by
  refine ⟨cs.takeWhile isNameChar, cs.dropWhile isNameChar,
    List.takeWhile_append_dropWhile.symm, fun c hc => List.mem_takeWhile_imp hc, ?_⟩
  rcases hr : cs.dropWhile isNameChar with _ | ⟨c, tail⟩
  · exact Or.inl rfl
  · right
    have hc : isNameChar c ≠ true := by
      have := List.head?_dropWhile_not isNameChar cs
      rw [hr, List.head?_cons] at this
      simpa using this
    rw [Ne, isNameChar_iff, not_and_or, not_not, not_not] at hc
    rcases hc with rfl | rfl
    · exact ⟨tail, Or.inl rfl⟩
    · exact ⟨tail, Or.inr rfl⟩

/-- A closed bracket is read, and then the brackets after it. -/
theorem readBrackets_bracket {body cs : List Char} {offset : Nat} {is : List Selector}
    (h : ∀ c ∈ body, isNameChar c = true) :
    readBrackets offset ('[' :: (body ++ ']' :: cs)) = .ok is ↔
      ∃ i rest, Selector.read body = .ok i ∧
        readBrackets (offset + 1 + utf8Length body + 1) cs = .ok rest ∧ is = i.toList ++ rest := by
  rw [readBrackets, if_pos rfl, readBody_append _ _ _ _ h, List.nil_append, readBody, if_pos rfl]
  rcases Selector.read body with e | i
  · simp
  · rcases readBrackets (offset + 1 + utf8Length body + 1) cs with e | rest
    · simp
    · simp [eq_comm]

-- A bracket is read over several characters, so the induction is on a bound on the length.
theorem readBrackets_sound {n : Nat} : ∀ {cs : List Char} {offset : Nat} {is : List Selector},
    cs.length ≤ n → readBrackets offset cs = .ok is → IsBrackets cs is := by
  induction n with
  | zero =>
    intro cs offset is hl h
    rw [List.eq_nil_of_length_eq_zero (Nat.le_zero.mp hl)] at h ⊢
    rw [readBrackets] at h
    cases h; exact .nil
  | succ n ih =>
    intro cs offset is hl h
    rcases cs with _ | ⟨c, cs⟩
    · rw [readBrackets] at h
      cases h; exact .nil
    · by_cases hc : c = '['
      swap; · rw [readBrackets, if_neg hc] at h; cases h
      subst hc
      obtain ⟨b, rest, rfl, hb, hrest⟩ := exists_append_bracket cs
      rcases hrest with rfl | ⟨tail, rfl | rfl⟩
      · rw [readBrackets, if_pos rfl, readBody_append _ _ _ _ hb, readBody] at h
        cases h
      · rw [readBrackets, if_pos rfl, readBody_append _ _ _ _ hb, readBody, if_neg (by decide),
          if_pos rfl] at h
        cases h
      · obtain ⟨i, js, hi, hjs, rfl⟩ := (readBrackets_bracket hb).mp h
        have hlt : tail.length ≤ n := by simp at hl; omega
        exact .cons (Selector.read_eq_ok_iff.mp hi) (ih hlt hjs)

theorem readBrackets_eq_ok_iff {offset : Nat} {cs : List Char} {is : List Selector} :
    readBrackets offset cs = .ok is ↔ IsBrackets cs is := by
  refine ⟨readBrackets_sound (Nat.le_refl cs.length), fun h => ?_⟩
  induction h generalizing offset with
  | nil => rw [readBrackets]
  | cons hbody _ ih =>
    rw [readBrackets_bracket fun c hc => isNameChar_iff.mpr (hbody.plain c hc).2]
    exact ⟨_, _, Selector.read_eq_ok_iff.mpr hbody, ih, rfl⟩

theorem IsBrackets.noDot {cs : List Char} {is : List Selector} (h : IsBrackets cs is) :
    '.' ∉ cs := by
  induction h with
  | nil => exact List.not_mem_nil
  | cons hbody _ ih =>
    simp only [List.mem_cons, List.mem_append, not_or]
    exact ⟨by decide, fun hm => (hbody.plain _ hm).1 rfl, by decide, ih⟩

/-! ### Segments -/

theorem IsName.toList_ne_nil {name : String} (h : IsName name) : name.toList ≠ [] := fun he =>
  h.ne_empty (String.toList_eq_nil_iff.mp he)

theorem isName_ofList {name : List Char} (hne : name ≠ [])
    (h : ∀ c ∈ name, c ≠ '.' ∧ c ≠ '[' ∧ c ≠ ']') : IsName (String.ofList name) := by
  refine ⟨fun he => hne ?_, fun c hc => h c ?_⟩
  · rw [← String.toList_ofList (l := name), he]; rfl
  · rwa [String.toList_ofList] at hc

theorem IsName.isNameChar {name : String} (h : IsName name) :
    ∀ c ∈ name.toList, TreePath.isNameChar c = true := fun c hc =>
  isNameChar_iff.mpr (h.plain c hc).2

theorem IsBrackets.eq_nil_or_cons {cs : List Char} {is : List Selector} (h : IsBrackets cs is) :
    cs = [] ∨ ∃ tail, cs = '[' :: tail := by
  cases h with
  | nil => exact Or.inl rfl
  | cons => exact Or.inr ⟨_, rfl⟩

/-- A bracket that nothing opened is refused. -/
theorem Segment.read_stray {name : List Char} (hname : ∀ c ∈ name, isNameChar c = true)
    (tail : List Char) : Segment.read (name ++ ']' :: tail) = .error .strayClose := by
  have hdrop : (name ++ ']' :: tail).dropWhile isNameChar = ']' :: tail := by
    rw [List.dropWhile_append_of_pos hname]; rfl
  simp only [Segment.read, hdrop]
  rw [if_neg (by simp), List.head?_cons, if_pos rfl]

/-- A piece is cut into the name in front of its first bracket and the rest. -/
theorem Segment.read_append {name : List Char} (hne : name ≠ [])
    (hname : ∀ c ∈ name, isNameChar c = true) {brackets : List Char}
    (hb : brackets = [] ∨ ∃ tail, brackets = '[' :: tail) :
    Segment.read (name ++ brackets) =
      (readBrackets (utf8Length name) brackets).map fun is => ⟨String.ofList name, is⟩ := by
  have hstop : brackets.takeWhile isNameChar = [] ∧ brackets.dropWhile isNameChar = brackets := by
    rcases hb with rfl | ⟨tail, rfl⟩
    · exact ⟨rfl, rfl⟩
    · exact ⟨rfl, rfl⟩
  have htake : (name ++ brackets).takeWhile isNameChar = name := by
    rw [List.takeWhile_append_of_pos hname, hstop.1, List.append_nil]
  have hdrop : (name ++ brackets).dropWhile isNameChar = brackets := by
    rw [List.dropWhile_append_of_pos hname, hstop.2]
  have hclose : brackets.head? ≠ some ']' := by
    rcases hb with rfl | ⟨tail, rfl⟩ <;> simp
  simp only [Segment.read, htake, hdrop]
  rw [if_neg (by simp [hne]), if_neg hclose, if_neg hne]

theorem Segment.read_eq_ok_iff {piece : List Char} (hdot : '.' ∉ piece) {s : Segment} :
    Segment.read piece = .ok s ↔ Segment.IsText piece s := by
  constructor
  · intro h
    obtain ⟨name, brackets, rfl, hname, hb⟩ := exists_append_bracket piece
    have hne : name ≠ [] := by
      rintro rfl
      rcases hb with rfl | ⟨tail, rfl | rfl⟩ <;> cases h
    have hopen : brackets = [] ∨ ∃ tail, brackets = '[' :: tail := by
      rcases hb with hb | ⟨tail, hb | rfl⟩
      · exact Or.inl hb
      · exact Or.inr ⟨tail, hb⟩
      · rw [Segment.read_stray hname tail] at h
        cases h
    rw [Segment.read_append hne hname hopen] at h
    rcases hr : readBrackets (utf8Length name) brackets with e | is
    · rw [hr] at h; cases h
    · rw [hr] at h
      cases h
      have hn : IsName (String.ofList name) := by
        refine isName_ofList hne fun c hc => ⟨?_, isNameChar_iff.mp (hname c hc)⟩
        rintro rfl
        exact hdot (List.mem_append_left _ hc)
      have ht := IsText.intro hn (readBrackets_eq_ok_iff.mp hr)
      rwa [String.toList_ofList] at ht
  · rintro ⟨hn, hb⟩
    rw [Segment.read_append hn.toList_ne_nil hn.isNameChar hb.eq_nil_or_cons,
      readBrackets_eq_ok_iff.mpr hb, String.ofList_toList]
    rfl

theorem Segment.IsText.isName {piece : List Char} {s : Segment} (h : Segment.IsText piece s) :
    IsName s.name := by
  obtain ⟨hn, -⟩ := h
  exact hn

theorem Segment.IsText.noDot {piece : List Char} {s : Segment} (h : Segment.IsText piece s) :
    '.' ∉ piece := by
  obtain ⟨hn, hb⟩ := h
  rw [List.mem_append, not_or]
  exact ⟨fun hm => (hn.plain _ hm).1 rfl, hb.noDot⟩

/-! ### Expressions -/

theorem readPieces_eq_ok_iff : ∀ {pieces : List (List Char)} {segments : List Segment},
    (∀ p ∈ pieces, '.' ∉ p) →
      (readPieces pieces = .ok segments ↔ List.Forall₂ Segment.IsText pieces segments)
  | [], segments, _ => by
    rw [readPieces, List.forall₂_nil_left_iff, Except.ok.injEq, eq_comm]
  | p :: pieces, segments, hdot => by
    have hp : ∀ s, Segment.read p = .ok s ↔ Segment.IsText p s := fun s =>
      Segment.read_eq_ok_iff (hdot p (by simp))
    have ih : ∀ rest, readPieces pieces = .ok rest ↔ List.Forall₂ Segment.IsText pieces rest :=
      fun rest => readPieces_eq_ok_iff fun q hq => hdot q (by simp [hq])
    rw [readPieces, List.forall₂_cons_left_iff]
    constructor
    · intro h
      rcases hs : Segment.read p with e | s
      · rw [hs] at h; cases h
      · rcases hr : readPieces pieces with e | rest
        · rw [hs, hr] at h; cases h
        · rw [hs, hr] at h
          cases h
          exact ⟨s, rest, (hp s).mp hs, (ih rest).mp hr, rfl⟩
    · rintro ⟨s, rest, hs, hr, rfl⟩
      rw [(hp s).mpr hs, (ih rest).mpr hr]
      rfl

namespace Expression

theorem parse_eq_ok_iff {text : String} {e : Expression} :
    Expression.parse text = .ok e ↔ IsText text e := by
  obtain ⟨segments⟩ := e
  have hread : Expression.parse text = .ok ⟨segments⟩ ↔
      readPieces (Text.split '.' text.toList) = .ok segments := by
    rw [parse]
    rcases readPieces (Text.split '.' text.toList) with err | found
    · simp [Except.map]
    · simp [Except.map]
  rw [hread, readPieces_eq_ok_iff fun p hp => Text.notMem_of_mem_split hp]
  constructor
  · intro h
    exact ⟨_, Text.split_ne_nil '.' _, (Text.intercalate_split '.' _).symm, h⟩
  · rintro ⟨pieces, hne, htext, h⟩
    have hdot : ∀ p ∈ pieces, '.' ∉ p := by
      intro p hp
      obtain ⟨i, hi, rfl⟩ := List.getElem_of_mem hp
      exact (h.get hi (by rw [← h.length_eq]; exact hi)).noDot
    rw [htext, Text.split_intercalate hne hdot]
    exact h

/-- **The grammar is what is accepted.** A text that denotes an expression is read as that
expression, and every other text is refused. -/
theorem parse_accepts_grammar (text : String) :
    (∀ e, Expression.parse text = .ok e ↔ IsText text e) ∧
      ((∃ err : InvalidExpression, Expression.parse text = .error err) ↔ ∀ e, ¬ IsText text e) := by
  refine ⟨fun e => parse_eq_ok_iff, ?_⟩
  constructor
  · rintro ⟨err, herr⟩ e he
    rw [← parse_eq_ok_iff, herr] at he
    cases he
  · intro h
    rcases hp : Expression.parse text with err | e
    · exact ⟨err, rfl⟩
    · exact absurd (parse_eq_ok_iff.mp hp) (h e)

end Expression

end TreePath
