import TreePath.Proofs.Text.Decimal
import TreePath.Toml.Scalar
import TreePath.Toml.Text

/-! # Words of TOML

A value that is neither quoted nor bracketed is a word, a run of characters of one class. A natural
number below the bound of integers is read from its decimal numeral, and a truth value from its name.

* `IsRun`: a run of characters of a class; a reader of the class stops behind it.
* `IsWord`: a word, with the value that it denotes.
* `isWord_repr` and `isWord_boolean`: the words of numbers and of truth values. -/

namespace TreePath.Toml

/-! ### Runs of characters -/

/-- One character or more, all of a class. -/
structure IsRun (p : Char → Bool) (cs : List Char) : Prop where
  ne_nil : cs ≠ []
  mem : ∀ c ∈ cs, p c = true

namespace IsRun

variable {p : Char → Bool} {run : List Char}

theorem notMem (h : IsRun p run) {c : Char} (hc : p c = false) : c ∉ run := fun hmem => by
  rw [h.mem c hmem] at hc
  cases hc

theorem head_ne {c d : Char} {cs : List Char} (h : IsRun p (c :: cs)) (hd : p d = false) : c ≠ d := by
  rintro rfl
  exact h.notMem hd List.mem_cons_self

theorem isBlank_head {c : Char} {cs : List Char} (h : IsRun p (c :: cs)) (hspace : p ' ' = false)
    (htab : p '\t' = false) : isBlank c = false := by
  rw [isBlank, Bool.or_eq_false_iff, beq_eq_false_iff_ne, beq_eq_false_iff_ne]
  exact ⟨h.head_ne hspace, h.head_ne htab⟩

/-- Text that starts with a run does not start with a character of another class. -/
theorem append_ne_cons (h : IsRun p run) {c : Char} (hc : p c = false) (cs ds : List Char) :
    run ++ cs ≠ c :: ds := by
  obtain ⟨d, tail, rfl⟩ := List.exists_cons_of_ne_nil h.ne_nil
  exact fun heq => h.head_ne hc (List.cons.inj heq).1

theorem takeWhile_append (h : IsRun p run) {c : Char} (hc : p c = false) (cs : List Char) :
    (run ++ c :: cs).takeWhile p = run := by
  rw [List.takeWhile_append_of_pos h.mem, List.takeWhile_cons_of_neg (by simp [hc]),
    List.append_nil]

theorem skipBlanks_append (h : IsRun p run) (hspace : p ' ' = false) (htab : p '\t' = false)
    (cs : List Char) : skipBlanks (run ++ cs) = run ++ cs := by
  obtain ⟨c, tail, rfl⟩ := List.exists_cons_of_ne_nil h.ne_nil
  exact List.dropWhile_cons_of_neg (by rw [h.isBlank_head hspace htab]; decide)

end IsRun

/-! ### Words -/

/-- A word, and the value that it denotes. -/
structure IsWord (word : List Char) (v : Value) : Prop extends IsRun isWordChar word where
  readWord_eq : readWord word = some v

/-! ### Numbers -/

theorem isDigitOf_ten {c : Char} (h : c.isDigit = true) : Text.isDigitOf 10 c = true := by
  have hc := Text.toNat_of_isDigit h
  have hvalue : Text.hexDigit? c = some (c.toNat - 48) := if_pos h
  rw [Text.isDigitOf, hvalue, Option.any_some, decide_eq_true_eq]
  omega

theorem isWordChar_of_isDigit {c : Char} (h : c.isDigit = true) : isWordChar c = true := by
  simp [isWordChar, Char.isAlphanum, h]

/-- Digits without underscores between them are not changed. -/
theorem ungroup?_of_forall_isDigit : ∀ {cs : List Char}, cs ≠ [] →
    (∀ c ∈ cs, c.isDigit = true) → ungroup? 10 cs = some cs
  | [c], _, h => if_pos (isDigitOf_ten (h c (by simp)))
  | c :: d :: cs, _, h => by
    have hd : d ≠ '_' := by
      rintro rfl
      exact absurd (h '_' (by simp)) (by decide)
    have ih := ungroup?_of_forall_isDigit (List.cons_ne_nil d cs) fun x hx =>
      h x (List.mem_cons_of_mem c hx)
    rw [ungroup?, if_pos (isDigitOf_ten (h c (by simp))), ih, Option.map_some]
    · exact List.cons_ne_nil d cs
    · intro _ hcons
      exact hd (List.cons.inj hcons).1

theorem isCanonical_of_isNumeral {cs : List Char} (h : Text.IsNumeral cs) :
    isCanonical cs = true := by
  rw [isCanonical, Bool.or_eq_true, decide_eq_true_eq, bne_iff_ne]
  by_cases hlength : cs.length ≤ 1
  · exact Or.inl hlength
  · exact Or.inr (h.noZero (by omega))

theorem readSign_of_isDigit {c : Char} (hc : c.isDigit = true) (cs : List Char) :
    readSign (c :: cs) = (false, c :: cs) := by
  rw [readSign] <;> rintro _ ⟨⟩ <;> exact absurd hc (by decide)

/-- A numeral is an integer in base ten. -/
theorem readInteger_of_isNumeral {cs : List Char} (h : Text.IsNumeral cs)
    (hbound : Text.digitsValue 10 cs < integerBound) :
    readInteger cs = some (Text.digitsValue 10 cs : Int) := by
  obtain ⟨c, tail, rfl⟩ := List.exists_cons_of_ne_nil h.ne_nil
  have hsign := readSign_of_isDigit (h.digits c (by simp)) tail
  have hdigits := ungroup?_of_forall_isDigit h.ne_nil h.digits
  rw [readInteger.eq_def]
  split
  -- The letter of another base is no digit.
  · exact absurd (h.digits 'x' (by simp_all)) (by decide)
  · exact absurd (h.digits 'o' (by simp_all)) (by decide)
  · exact absurd (h.digits 'b' (by simp_all)) (by decide)
  · simp only [hsign, hdigits, Option.bind_some, isCanonical_of_isNumeral h, hbound]
    simp

theorem isWord_repr {n : Nat} (hn : n < integerBound) :
    IsWord (Nat.repr n).toList (.integer n) := by
  have hnumeral := Text.isNumeral_toDigits n
  have hvalue := Text.digitsValue_toDigits n
  have hinteger : readInteger (Nat.toDigits 10 n) = some (n : Int) := by
    rw [readInteger_of_isNumeral hnumeral (by rw [hvalue]; exact hn), hvalue]
  have hname : ∀ name : List Char, (∃ c ∈ name, c.isDigit = false) → Nat.toDigits 10 n ≠ name := by
    rintro _ ⟨c, hc, hdigit⟩ rfl
    rw [hnumeral.digits c hc] at hdigit
    cases hdigit
  rw [Nat.toList_repr]
  refine ⟨⟨hnumeral.ne_nil, fun c hc => isWordChar_of_isDigit (hnumeral.digits c hc)⟩, ?_⟩
  rw [readWord, if_neg (hname _ ⟨'t', by decide, rfl⟩), if_neg (hname _ ⟨'f', by decide, rfl⟩),
    hinteger]

/-! ### Truth values -/

theorem isWord_boolean : ∀ b : Bool, IsWord (if b then "true" else "false").toList (.boolean b)
  | true => ⟨⟨by decide, List.all_eq_true.mp (by decide)⟩, if_pos rfl⟩
  | false => by
    refine ⟨⟨by decide, List.all_eq_true.mp (by decide)⟩, ?_⟩
    rw [readWord, if_neg (by decide)]
    exact if_pos rfl

end TreePath.Toml
