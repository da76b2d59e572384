import TreePath.Proofs.Expression.Grammar
import Mathlib.Data.String.Basic

/-! # The first fault of a text

What is wrong with a text that denotes no expression, said without a reader. Each relation leaves
open what stands behind the fault, so that nothing behind it counts, and gives the wording of it.

* `Selector.BodyFault`, `BracketFault`, `Segment.FirstFault`: the fault of the body of a bracket, the
  first fault of a bracket, in the text behind its `[`, and the first fault of a piece between dots.
* `Segment.FirstFault.message_eq`: the wording is that of the fault.
* `Selector.isBody_or_bodyFault`, `exists_brackets_append`, `Segment.isText_or_firstFault`: a text
  that is not in the grammar has a fault.
* `Selector.BodyFault.read_eq`, `BracketFault.readBrackets_eq`, `Segment.FirstFault.read_eq`: readers
  tell that fault.
* `readPieces_eq_error_iff`: the first piece that is no segment is the one refused.
* `Expression.parse_tells_first_fault`: the error of a text is the first fault of its first piece
  that is no segment. -/

namespace TreePath

/-! ### The relations -/

/-- The fault of the body of a bracket, and its wording. -/
inductive Selector.BodyFault : List Char → Fault → String → Prop
  | notAnIndex {body : List Char} {c : Char} : body ≠ ['*'] → c ∈ body → c.isDigit = false →
    BodyFault body (.notAnIndex (String.ofList body))
      ("invalid index '" ++ String.ofList body ++ "'")
  | leadingZero {digits : List Char} : digits ≠ [] → (∀ c ∈ digits, c.isDigit = true) →
    BodyFault ('0' :: digits) (.leadingZero (String.ofList ('0' :: digits)))
      ("leading zero in index '" ++ String.ofList ('0' :: digits) ++ "'")
  | indexTooLarge {n : Nat} : UInt64.size ≤ n →
    BodyFault (Nat.repr n).toList (.indexTooLarge (Nat.repr n))
      ("index out of range '" ++ Nat.repr n ++ "'")

/-- The first fault of the text behind a `[`, up to the end of that bracket, and its wording. -/
inductive BracketFault : List Char → Fault → String → Prop
  | nestedOpen {body rest : List Char} : (∀ c ∈ body, c ≠ '[' ∧ c ≠ ']') →
    BracketFault (body ++ '[' :: rest) .nestedOpen "nested '['"
  | unclosed {body : List Char} : (∀ c ∈ body, c ≠ '[' ∧ c ≠ ']') →
    BracketFault body .unclosed "'[' without matching ']'"
  | body {body rest : List Char} {fault : Fault} {reason : String} :
    (∀ c ∈ body, c ≠ '[' ∧ c ≠ ']') → Selector.BodyFault body fault reason →
    BracketFault (body ++ ']' :: rest) fault reason

/-- The first fault of a piece, and its wording. The offset of a character that trails brackets is
counted in bytes of UTF-8. -/
inductive Segment.FirstFault : List Char → Fault → String → Prop
  | empty : FirstFault [] .empty "empty segment"
  | strayClose {name rest : List Char} : (∀ c ∈ name, c ≠ '[' ∧ c ≠ ']') →
    FirstFault (name ++ ']' :: rest) .strayClose "']' without matching '['"
  | missingName {rest : List Char} :
    FirstFault ('[' :: rest) .missingName "missing name before '['"
  | trailing {name : String} {brackets rest : List Char} {is : List Selector} {c : Char}
    {offset : Nat} : IsName name → IsBrackets (brackets ++ [']']) is → c ≠ '[' →
    offset = (String.ofList (name.toList ++ (brackets ++ [']']))).utf8ByteSize →
    FirstFault (name.toList ++ (brackets ++ [']']) ++ c :: rest) (.trailing c offset)
      ("unexpected '" ++ c.toString ++ "' at position " ++ Nat.repr offset ++ " after ']'")
  | bracket {name : String} {brackets rest : List Char} {is : List Selector} {fault : Fault}
    {reason : String} : IsName name → IsBrackets brackets is → BracketFault rest fault reason →
    FirstFault (name.toList ++ brackets ++ '[' :: rest) fault reason

/-! ### Wordings -/

theorem Selector.BodyFault.message_eq {body : List Char} {fault : Fault} {reason : String}
    (h : BodyFault body fault reason) : fault.message = reason := by
  cases h <;> rfl

theorem BracketFault.message_eq {cs : List Char} {fault : Fault} {reason : String}
    (h : BracketFault cs fault reason) : fault.message = reason := by
  cases h with
  | nestedOpen | unclosed => rfl
  | body _ hfault => exact hfault.message_eq

theorem Segment.FirstFault.message_eq {piece : List Char} {fault : Fault} {reason : String}
    (h : FirstFault piece fault reason) : fault.message = reason := by
  cases h with
  | empty | strayClose | missingName | trailing => rfl
  | bracket _ _ hfault => exact hfault.message_eq

/-! ### Bodies of brackets -/

theorem Selector.isBody_or_bodyFault (body : List Char) :
    (∃ i, IsBody body i) ∨ ∃ fault reason, BodyFault body fault reason := by
  by_cases hnil : body = []
  · exact .inl ⟨none, hnil ▸ .empty⟩
  by_cases hstar : body = ['*']
  · exact .inl ⟨some .wildcard, hstar ▸ .wildcard⟩
  by_cases hdigits : ∀ c ∈ body, c.isDigit = true
  swap
  · obtain ⟨c, hc⟩ := not_forall.mp hdigits
    obtain ⟨hc, hdigit⟩ := Classical.not_imp.mp hc
    exact .inr ⟨_, _, .notAnIndex hstar hc (Bool.eq_false_of_not_eq_true hdigit)⟩
  obtain ⟨c, digits, rfl⟩ := List.exists_cons_of_ne_nil hnil
  by_cases hzero : c = '0' ∧ digits ≠ []
  · obtain ⟨rfl, hne⟩ := hzero
    exact .inr ⟨_, _, .leadingZero hne fun d hd => hdigits d (List.mem_cons_of_mem _ hd)⟩
  have hnum : Text.IsNumeral (c :: digits) := by
    refine ⟨hnil, hdigits, fun hlength hhead => hzero ⟨Option.some.inj hhead, ?_⟩⟩
    rintro rfl
    exact Nat.lt_irrefl 1 hlength
  have hbody : c :: digits = (Nat.repr (Text.digitsValue 10 (c :: digits))).toList := by
    rw [Nat.toList_repr, hnum.toDigits_digitsValue]
  rw [hbody]
  rcases Nat.lt_or_ge (Text.digitsValue 10 (c :: digits)) UInt64.size with hlt | hge
  · exact .inl ⟨_, .position _ hlt⟩
  · exact .inr ⟨_, _, .indexTooLarge hge⟩

theorem Selector.BodyFault.read_eq {body : List Char} {fault : Fault} {reason : String}
    (h : BodyFault body fault reason) : Selector.read body = .error fault := by
  cases h with
  | @notAnIndex _ c hstar hc hdigit =>
    have hne : body ≠ [] := List.ne_nil_of_mem hc
    have hall : (!body.all Char.isDigit) = true := by
      rw [Bool.not_eq_true', List.all_eq_false]
      exact ⟨c, hc, by simp [hdigit]⟩
    rw [Selector.read, if_neg hne, if_neg hstar, if_pos hall]
  | @leadingZero digits hne hdigits =>
    have hstar : '0' :: digits ≠ ['*'] := by
      intro he
      exact absurd (List.cons.inj he).1 (by decide)
    have hall : (!('0' :: digits).all Char.isDigit) = false := by
      rw [Bool.not_eq_false', List.all_eq_true]
      exact List.forall_mem_cons.mpr ⟨rfl, hdigits⟩
    have hlength : 1 < ('0' :: digits).length := by
      have hpos := List.length_pos_iff.mpr hne
      rw [List.length_cons]
      omega
    have hzero : (decide (('0' :: digits).length > 1) && ('0' :: digits).head? == some '0') = true := by
      rw [Bool.and_eq_true, decide_eq_true_eq]
      exact ⟨hlength, rfl⟩
    rw [Selector.read, if_neg (List.cons_ne_nil _ _), if_neg hstar, if_neg (by rw [hall]; simp),
      if_pos hzero]
  | @indexTooLarge n hn =>
    have hnot : ¬ n < UInt64.size := by omega
    rw [Nat.toList_repr, read_digits (Text.isNumeral_toDigits n), Text.digitsValue_toDigits,
      if_neg hnot, ← Nat.toList_repr, String.ofList_toList]

/-! ### Brackets -/

theorem forall_isNameChar_iff {cs : List Char} :
    (∀ c ∈ cs, isNameChar c = true) ↔ ∀ c ∈ cs, c ≠ '[' ∧ c ≠ ']' :=
  forall₂_congr fun _ _ => isNameChar_iff

theorem utf8Length_eq (cs : List Char) : utf8Length cs = (String.ofList cs).utf8ByteSize := by
  rw [String.utf8ByteSize_ofList]
  induction cs with
  | nil => rfl
  | cons c cs ih => rw [utf8Length, String.utf8Len_cons, ih, Nat.add_comm]

theorem utf8Length_append (cs ds : List Char) :
    utf8Length (cs ++ ds) = utf8Length cs + utf8Length ds := by
  rw [utf8Length_eq, utf8Length_eq, utf8Length_eq, String.ofList_append, String.utf8ByteSize_append]

/-- The reader comes through brackets to what stands behind them. -/
theorem readBrackets_append {cs rest : List Char} {is : List Selector} (h : IsBrackets cs is)
    (offset : Nat) : readBrackets offset (cs ++ rest) =
      (readBrackets (offset + utf8Length cs) rest).map (is ++ ·) := by
  induction h generalizing offset with
  | nil =>
    rw [List.nil_append, utf8Length, Nat.add_zero]
    rcases readBrackets offset rest with fault | js <;> rfl
  | @cons body cs i is hbody _ ih =>
    have hplain := forall_isNameChar_iff.mpr fun c hc => (hbody.plain c hc).2
    have htext : '[' :: (body ++ ']' :: cs) ++ rest = '[' :: (body ++ ']' :: (cs ++ rest)) := by simp
    have hlength : offset + utf8Length ('[' :: (body ++ ']' :: cs)) =
        offset + 1 + utf8Length body + 1 + utf8Length cs := by
      have hopen : '['.utf8Size = 1 := rfl
      have hclose : ']'.utf8Size = 1 := rfl
      rw [utf8Length, utf8Length_append, utf8Length]
      omega
    rw [htext, hlength, readBrackets, if_pos rfl, readBody_append _ _ _ _ hplain, List.nil_append,
      readBody, if_pos rfl, Selector.read_eq_ok_iff.mpr hbody]
    simp only [ih]
    rcases readBrackets (offset + 1 + utf8Length body + 1 + utf8Length cs) rest with fault | js
    · rfl
    · simp [Except.map]

theorem BracketFault.readBrackets_eq {cs : List Char} {fault : Fault} {reason : String}
    (h : BracketFault cs fault reason) (offset : Nat) :
    readBrackets offset ('[' :: cs) = .error fault := by
  rw [readBrackets, if_pos rfl]
  cases h with
  | nestedOpen hbody =>
    rw [readBody_append _ _ _ _ (forall_isNameChar_iff.mpr hbody), readBody, if_neg (by decide),
      if_pos rfl]
  | unclosed hbody =>
    have hread := readBody_append cs (offset + 1) [] [] (forall_isNameChar_iff.mpr hbody)
    rw [List.append_nil] at hread
    rw [hread, readBody]
  | body hbody hfault =>
    rw [readBody_append _ _ _ _ (forall_isNameChar_iff.mpr hbody), List.nil_append, readBody,
      if_pos rfl, hfault.read_eq]

/-- What can stand behind brackets: nothing, a character that opens none, or a bracket with a
fault. -/
inductive EndsBrackets : List Char → Prop
  | nil : EndsBrackets []
  | other {c : Char} {rest : List Char} : c ≠ '[' → EndsBrackets (c :: rest)
  | fault {rest : List Char} {fault : Fault} {reason : String} : BracketFault rest fault reason →
    EndsBrackets ('[' :: rest)

-- A bracket is several characters long, so the induction is on a bound on the length.
theorem exists_brackets_append {n : Nat} : ∀ {cs : List Char}, cs.length ≤ n →
    ∃ brackets is rest, cs = brackets ++ rest ∧ IsBrackets brackets is ∧ EndsBrackets rest := by
  induction n with
  | zero =>
    intro cs hl
    rw [List.eq_nil_of_length_eq_zero (Nat.le_zero.mp hl)]
    exact ⟨[], [], [], rfl, .nil, .nil⟩
  | succ n ih =>
    intro cs hl
    rcases cs with _ | ⟨c, cs⟩
    · exact ⟨[], [], [], rfl, .nil, .nil⟩
    by_cases hc : c = '['
    swap
    · exact ⟨[], [], c :: cs, rfl, .nil, .other hc⟩
    subst hc
    obtain ⟨body, rest, rfl, hbody, hrest⟩ := exists_append_bracket cs
    have hplain := forall_isNameChar_iff.mp hbody
    rcases hrest with rfl | ⟨tail, rfl | rfl⟩
    · rw [List.append_nil]
      exact ⟨[], [], '[' :: body, rfl, .nil, .fault (.unclosed hplain)⟩
    · exact ⟨[], [], '[' :: (body ++ '[' :: tail), rfl, .nil, .fault (.nestedOpen hplain)⟩
    rcases Selector.isBody_or_bodyFault body with ⟨i, hi⟩ | ⟨fault, reason, hfault⟩
    · have hlength : tail.length ≤ n := by
        rw [List.length_cons, List.length_append, List.length_cons] at hl
        omega
      obtain ⟨brackets, is, rest, rfl, hbrackets, hend⟩ := ih hlength
      exact ⟨'[' :: (body ++ ']' :: brackets), i.toList ++ is, rest, by simp, .cons hi hbrackets,
        hend⟩
    · exact ⟨[], [], '[' :: (body ++ ']' :: tail), rfl, .nil, .fault (.body hplain hfault)⟩

theorem IsBrackets.eq_nil_or_concat {cs : List Char} {is : List Selector} (h : IsBrackets cs is) :
    cs = [] ∨ ∃ ds, cs = ds ++ [']'] := by
  induction h with
  | nil => exact .inl rfl
  | @cons body cs _ _ _ _ ih =>
    right
    rcases ih with rfl | ⟨ds, rfl⟩
    · exact ⟨'[' :: body, rfl⟩
    · exact ⟨'[' :: (body ++ ']' :: ds), by simp⟩

/-! ### Pieces -/

namespace Segment

theorem isText_or_firstFault_of_isName {name : String} (hname : IsName name) {brackets : List Char}
    (hopen : brackets = [] ∨ ∃ tail, brackets = '[' :: tail) :
    (∃ s, IsText (name.toList ++ brackets) s) ∨
      ∃ fault reason, FirstFault (name.toList ++ brackets) fault reason := by
  obtain ⟨brackets, is, rest, rfl, hbrackets, hend⟩ :=
    exists_brackets_append (Nat.le_refl brackets.length)
  rw [← List.append_assoc]
  cases hend with
  | nil =>
    rw [List.append_nil]
    exact .inl ⟨_, .intro hname hbrackets⟩
  | @other c rest hc =>
    -- Text behind the name starts with a bracket, so what opens none stands behind one.
    rcases hbrackets.eq_nil_or_concat with rfl | ⟨front, rfl⟩
    · rcases hopen with h | ⟨tail, h⟩
      · cases h
      · exact absurd (List.cons.inj h).1 hc
    · exact .inr ⟨_, _, .trailing hname hbrackets hc rfl⟩
  | fault hfault => exact .inr ⟨_, _, .bracket hname hbrackets hfault⟩

theorem isText_or_firstFault {piece : List Char} (hdot : '.' ∉ piece) :
    (∃ s, IsText piece s) ∨ ∃ fault reason, FirstFault piece fault reason := by
  obtain ⟨name, brackets, rfl, hname, hbrackets⟩ := exists_append_bracket piece
  have hplain := forall_isNameChar_iff.mp hname
  by_cases hnil : name = []
  · subst hnil
    rcases hbrackets with rfl | ⟨tail, rfl | rfl⟩
    · exact .inr ⟨_, _, .empty⟩
    · exact .inr ⟨_, _, .missingName⟩
    · exact .inr ⟨_, _, .strayClose hplain⟩
  have hn : IsName (String.ofList name) := by
    refine isName_ofList hnil fun c hc => ⟨?_, hplain c hc⟩
    rintro rfl
    exact hdot (List.mem_append_left _ hc)
  rcases hbrackets with hopen | ⟨tail, hopen | rfl⟩
  · rw [← String.toList_ofList (l := name)]
    exact isText_or_firstFault_of_isName hn (.inl hopen)
  · rw [← String.toList_ofList (l := name)]
    exact isText_or_firstFault_of_isName hn (.inr ⟨tail, hopen⟩)
  · exact .inr ⟨_, _, .strayClose hplain⟩

/-- The reader comes through a name and brackets to what stands behind them, if that opens a bracket
or a bracket stands in front of it. -/
theorem read_append_brackets {name : String} (hname : IsName name) {brackets : List Char}
    {is : List Selector} (hbrackets : IsBrackets brackets is) {rest : List Char}
    (hopen : ∃ tail, brackets ++ rest = '[' :: tail) :
    read (name.toList ++ brackets ++ rest) =
      (readBrackets (utf8Length (name.toList ++ brackets)) rest).map fun js => ⟨name, is ++ js⟩ := by
  rw [List.append_assoc, read_append hname.toList_ne_nil hname.isNameChar (.inr hopen),
    readBrackets_append hbrackets, ← utf8Length_append]
  rcases readBrackets (utf8Length (name.toList ++ brackets)) rest with fault | js
  · rfl
  · rw [String.ofList_toList]
    rfl

theorem FirstFault.read_eq {piece : List Char} {fault : Fault} {reason : String}
    (h : FirstFault piece fault reason) : read piece = .error fault := by
  cases h with
  | empty => rfl
  | strayClose hname => exact read_stray (forall_isNameChar_iff.mpr hname) _
  | missingName => rfl
  | @trailing name front rest is c offset hname hbrackets hc hoffset =>
    have hopen : ∃ tail, front ++ [']'] ++ c :: rest = '[' :: tail := by
      obtain ⟨tail, htail⟩ := hbrackets.eq_nil_or_cons.resolve_left (by simp)
      exact ⟨tail ++ c :: rest, by rw [htail, List.cons_append]⟩
    rw [read_append_brackets hname hbrackets hopen, readBrackets, if_neg hc, utf8Length_eq,
      hoffset]
    rfl
  | @bracket name brackets rest is fault reason hname hbrackets hfault =>
    have hopen : ∃ tail, brackets ++ '[' :: rest = '[' :: tail := by
      rcases hbrackets.eq_nil_or_cons with rfl | ⟨tail, rfl⟩
      · exact ⟨rest, rfl⟩
      · exact ⟨tail ++ '[' :: rest, List.cons_append⟩
    rw [read_append_brackets hname hbrackets hopen, hfault.readBrackets_eq]
    rfl

theorem read_eq_error_iff {piece : List Char} (hdot : '.' ∉ piece) {fault : Fault} :
    read piece = .error fault ↔ FirstFault piece fault fault.message := by
  refine ⟨fun h => ?_, FirstFault.read_eq⟩
  rcases isText_or_firstFault hdot with ⟨s, hs⟩ | ⟨first, reason, hfirst⟩
  · rw [(read_eq_ok_iff hdot).mpr hs] at h
    cases h
  · rw [hfirst.read_eq] at h
    cases h
    rw [hfirst.message_eq]
    exact hfirst

end Segment

/-! ### Texts -/

theorem map_eq_error_iff {ε α β : Type} {f : α → β} {x : Except ε α} {err : ε} :
    x.map f = .error err ↔ x = .error err := by
  rcases x with first | a <;> simp [Except.map]

/-- The reader stops at the first piece that it refuses. -/
theorem readPieces_of_refused {piece : List Char} {fault : Fault}
    (hpiece : Segment.read piece = .error fault) (after : List (List Char)) :
    ∀ {before : List (List Char)}, (∀ p ∈ before, ∃ s, Segment.read p = .ok s) →
      readPieces (before ++ piece :: after) = .error ⟨String.ofList piece, fault⟩
  | [], _ => by rw [List.nil_append, readPieces, hpiece]
  | p :: before, hbefore => by
    obtain ⟨⟨s, hs⟩, hrest⟩ := List.forall_mem_cons.mp hbefore
    rw [List.cons_append, readPieces, hs, readPieces_of_refused hpiece after hrest]
    rfl

theorem exists_refused_of_readPieces {err : InvalidExpression} : ∀ {pieces : List (List Char)},
    readPieces pieces = .error err → ∃ before piece after, pieces = before ++ piece :: after ∧
      (∀ p ∈ before, ∃ s, Segment.read p = .ok s) ∧ Segment.read piece = .error err.fault ∧
      err.segment = String.ofList piece
  | [], h => by
    rw [readPieces] at h
    cases h
  | p :: pieces, h => by
    rw [readPieces] at h
    rcases hp : Segment.read p with fault | s
    · rw [hp] at h
      cases h
      exact ⟨[], p, pieces, rfl, by simp, hp, rfl⟩
    · rw [hp] at h
      have hrest : readPieces pieces = .error err := map_eq_error_iff.mp h
      obtain ⟨before, piece, after, rfl, hbefore, hpiece⟩ := exists_refused_of_readPieces hrest
      exact ⟨p :: before, piece, after, rfl, List.forall_mem_cons.mpr ⟨⟨s, hp⟩, hbefore⟩, hpiece⟩

theorem readPieces_eq_error_iff {err : InvalidExpression} {pieces : List (List Char)} :
    readPieces pieces = .error err ↔ ∃ before piece after, pieces = before ++ piece :: after ∧
      (∀ p ∈ before, ∃ s, Segment.read p = .ok s) ∧ Segment.read piece = .error err.fault ∧
      err.segment = String.ofList piece := by
  refine ⟨exists_refused_of_readPieces, ?_⟩
  rintro ⟨before, piece, after, rfl, hbefore, hpiece, hsegment⟩
  rw [readPieces_of_refused hpiece after hbefore, ← hsegment]

namespace Expression

/-- A piece without dots is a text of its own. -/
theorem parse_ofList {piece : List Char} (hdot : '.' ∉ piece) :
    Expression.parse (String.ofList piece) =
      match Segment.read piece with
      | .error fault => .error ⟨String.ofList piece, fault⟩
      | .ok s => .ok ⟨[s]⟩ := by
  have hsplit : Text.split '.' piece = [piece] := by
    have hjoined : Text.split '.' (['.'].intercalate [piece]) = [piece] :=
      Text.split_intercalate (List.cons_ne_nil piece []) (by simpa using hdot)
    rwa [List.intercalate_singleton] at hjoined
  rw [parse, String.toList_ofList, hsplit, readPieces, readPieces]
  rcases Segment.read piece with fault | s <;> rfl

theorem parse_eq_error_iff {text : String} {err : InvalidExpression} :
    Expression.parse text = .error err ↔ readPieces (Text.split '.' text.toList) = .error err := by
  rw [parse, map_eq_error_iff]

theorem parse_ofList_eq_ok_iff {piece : List Char} (hdot : '.' ∉ piece) :
    (∃ s, Expression.parse (String.ofList piece) = .ok ⟨[s]⟩) ↔ ∃ s, Segment.read piece = .ok s := by
  rw [parse_ofList hdot]
  rcases Segment.read piece with fault | s <;> simp

theorem parse_ofList_eq_error_iff {piece : List Char} (hdot : '.' ∉ piece) {err : InvalidExpression} :
    Expression.parse (String.ofList piece) = .error err ↔
      Segment.read piece = .error err.fault ∧ err.segment = String.ofList piece := by
  obtain ⟨segment, fault⟩ := err
  rw [parse_ofList hdot]
  rcases Segment.read piece with first | s
  · simp [and_comm, eq_comm]
  · simp

/-- **The first fault is told.** A text is refused with an error if and only if, of its pieces between
dots, the error names one that is refused with this error on its own, all pieces in front of it are
segments on their own, and the reason is the first fault of this piece, in its wording. So neither the
pieces behind it nor what stands behind the fault count. -/
theorem parse_tells_first_fault (text : String) (err : InvalidExpression) :
    Expression.parse text = .error err ↔
      ∃ before piece after, text.toList.splitOn '.' = before ++ piece :: after ∧
        (∀ p ∈ before, ∃ s, Expression.parse (String.ofList p) = .ok ⟨[s]⟩) ∧
        Expression.parse (String.ofList piece) = .error err ∧
        err.segment = String.ofList piece ∧
        Segment.FirstFault piece err.fault err.fault.message := by
  have hdots : ∀ p ∈ text.toList.splitOn '.', '.' ∉ p := fun p hp =>
    Text.notMem_of_mem_split (by rwa [Text.split_eq_splitOn])
  rw [parse_eq_error_iff, readPieces_eq_error_iff, Text.split_eq_splitOn]
  refine exists_congr fun before => exists_congr fun piece => exists_congr fun after =>
    and_congr_right fun hpieces => ?_
  rw [hpieces] at hdots
  have hpiece : '.' ∉ piece := hdots piece (by simp)
  refine and_congr (forall₂_congr fun p hp => ?_) ?_
  · exact (parse_ofList_eq_ok_iff (hdots p (List.mem_append_left _ hp))).symm
  · rw [parse_ofList_eq_error_iff hpiece, ← Segment.read_eq_error_iff hpiece]
    tauto

/-- The accented name takes two bytes, and the pieces behind the second one are not looked at. -/
example : Expression.parse "a.é[0][]x[.]" = .error ⟨"é[0][]x[", .trailing 'x' 7⟩ ∧
    Fault.message (.trailing 'x' 7) = "unexpected 'x' at position 7 after ']'" := by
  decide +kernel

end Expression

end TreePath
