import TreePath.Proofs.Expression.LastStep
import Mathlib.Logic.Function.Iterate

/-! # Steps back

Each step back takes one step off an expression and a piece off the end of its text. So as many steps
back as a text has steps undo adding it, and as many as an expression has lead to the empty one, where
they come to rest.

* `Expression.weight_of_dropsLast`, `Expression.weight_iterate_pollLast`: steps are counted down.
* `Expression.pollLast_append`, `Expression.iterate_pollLast_append`: what stands in front is left
  alone as long as there is something behind it.
* `Expression.text_of_dropsLast`: what is left is written as a proper beginning of the text.
* `Expression.pollLast_undoes_growth`: steps back undo growing by text. -/

namespace TreePath

namespace Expression

/-! ### Counting steps -/

theorem weight_append (before after : List Segment) :
    weight ⟨before ++ after⟩ = weight ⟨before⟩ + weight ⟨after⟩ := by
  induction before with
  | nil => exact (Nat.zero_add _).symm
  | cons s before ih =>
    have hfront : weight ⟨s :: before⟩ = s.weight + weight ⟨before⟩ := rfl
    have hwhole : weight ⟨s :: before ++ after⟩ = s.weight + weight ⟨before ++ after⟩ := rfl
    omega

theorem weight_singleton (s : Segment) : weight ⟨[s]⟩ = 1 + s.indices.length := rfl

theorem weight_of_dropsLast {d e : Expression} {step : Option Predicate} (h : e.DropsLast d step) :
    e.weight = d.weight + 1 := by
  cases h with
  | index before name is i =>
    have hlength : (is ++ [i]).length = is.length + 1 := List.length_append
    simp only [weight_append, weight_singleton]
    omega
  | name before name _ => exact weight_append before [⟨name, []⟩]
  | self before => exact weight_append before [⟨selfName, []⟩]

theorem weight_pollLast {e : Expression} (he : e ≠ empty) : e.weight = e.pollLast.weight + 1 := by
  obtain ⟨step, hstep⟩ := dropsLast_pollLast he
  exact weight_of_dropsLast hstep

theorem weight_eq_zero_iff {e : Expression} : e.weight = 0 ↔ e = empty := by
  constructor
  · intro h
    by_contra hne
    have hweight := weight_pollLast hne
    omega
  · rintro rfl
    rfl

theorem weight_iterate_pollLast (e : Expression) (n : Nat) :
    (pollLast^[n] e).weight = e.weight - n := by
  induction n with
  | zero => rfl
  | succ n ih =>
    rw [Function.iterate_succ_apply']
    by_cases hempty : pollLast^[n] e = empty
    · have hzero := weight_eq_zero_iff.mpr hempty
      have hrest : empty.pollLast.weight = 0 := rfl
      rw [hempty]
      omega
    · have hweight := weight_pollLast hempty
      omega

theorem iterate_pollLast_eq_empty_iff {e : Expression} {n : Nat} :
    pollLast^[n] e = empty ↔ e.weight ≤ n := by
  rw [← weight_eq_zero_iff, weight_iterate_pollLast]
  omega

/-! ### What stands in front -/

theorem pollLast_append (before : List Segment) {d : Expression} (hd : d ≠ empty) :
    pollLast ⟨before ++ d.segments⟩ = ⟨before ++ d.pollLast.segments⟩ := by
  obtain ⟨segments⟩ := d
  rcases List.eq_nil_or_concat' segments with rfl | ⟨front, s, rfl⟩
  · exact absurd rfl hd
  · simp only [pollLast]
    rw [← List.append_assoc, dropLastStep_append, dropLastStep_append, List.append_assoc]

theorem iterate_pollLast_append (before : List Segment) {n : Nat} : ∀ {d : Expression},
    d.weight = n → pollLast^[n] ⟨before ++ d.segments⟩ = ⟨before⟩ := by
  induction n with
  | zero =>
    intro d hd
    rw [weight_eq_zero_iff.mp hd]
    exact congrArg Expression.mk (List.append_nil before)
  | succ n ih =>
    intro d hd
    have hne : d ≠ empty := fun h => by
      rw [weight_eq_zero_iff.mpr h] at hd
      cases hd
    have hweight := weight_pollLast hne
    rw [Function.iterate_succ_apply, pollLast_append before hne]
    exact ih (by omega)

/-! ### Texts -/

theorem segmentsText_append_indices (before : List Segment) (name : String) (is js : List Selector) :
    segmentsText (before ++ [⟨name, is ++ js⟩]) =
      segmentsText (before ++ [⟨name, is⟩]) ++ Segment.bracketsText js := by
  induction before with
  | nil =>
    show name ++ Segment.bracketsText (is ++ js) = name ++ Segment.bracketsText is ++ _
    rw [bracketsText_append, String.append_assoc]
  | cons s before ih =>
    rw [List.cons_append, List.cons_append, segmentsText_cons (by simp), segmentsText_cons (by simp),
      ih]
    simp only [String.append_assoc]

theorem segmentsText_concat {before : List Segment} (h : before ≠ []) (s : Segment) :
    segmentsText (before ++ [s]) = segmentsText before ++ ("." ++ s.text) := by
  induction before with
  | nil => exact absurd rfl h
  | cons a before ih =>
    rw [List.cons_append, segmentsText_cons (by simp)]
    by_cases hnil : before = []
    · subst hnil
      simp only [List.nil_append, segmentsText, String.append_assoc]
    · rw [ih hnil, segmentsText_cons hnil]
      simp only [String.append_assoc]

/-- A segment more is text more. -/
theorem exists_segmentsText_concat (before : List Segment) {s : Segment} (hs : IsName s.name) :
    ∃ t, t ≠ "" ∧ segmentsText (before ++ [s]) = segmentsText before ++ t := by
  by_cases hnil : before = []
  · subst hnil
    refine ⟨s.text, ?_, (String.empty_append).symm⟩
    simp [Segment.text, hs.ne_empty]
  · exact ⟨"." ++ s.text, by simp, segmentsText_concat hnil s⟩

theorem text_of_dropsLast {d e : Expression} {step : Option Predicate} (he : e.IsWritable)
    (h : e.DropsLast d step) : ∃ t, t ≠ "" ∧ e.text = d.text ++ t := by
  cases h with
  | index before name is i =>
    exact ⟨Segment.bracketsText [i], by simp [Segment.bracketsText],
      segmentsText_append_indices before name is [i]⟩
  | name before name _ => exact exists_segmentsText_concat before (he.isName ⟨name, []⟩ (by simp))
  | self before => exact exists_segmentsText_concat before (he.isName ⟨selfName, []⟩ (by simp))

/-- Text in brackets behind a writable expression is one step more. -/
theorem parse_text_append_bracket {e : Expression} (he : e.IsWritable) (i : Selector) :
    ∃ f, Expression.parse (e.text ++ "[" ++ i.text ++ "]") = .ok f ∧ f.pollLast = e := by
  obtain ⟨segments⟩ := e
  rcases List.eq_nil_or_concat' segments with rfl | ⟨before, ⟨name, is⟩, rfl⟩
  · exact absurd rfl he.ne_nil
  have hwritable : IsWritable ⟨before ++ [⟨name, is ++ [i]⟩]⟩ := by
    refine ⟨by simp, fun s hs => ?_⟩
    rcases List.mem_append.mp hs with hs | hs
    · exact he.isName s (List.mem_append_left _ hs)
    · rw [List.mem_singleton.mp hs]
      exact he.isName ⟨name, is⟩ (by simp)
  have htext : text ⟨before ++ [⟨name, is⟩]⟩ ++ "[" ++ i.text ++ "]" =
      text ⟨before ++ [⟨name, is ++ [i]⟩]⟩ := by
    rw [text, text, segmentsText_append_indices]
    simp only [Segment.bracketsText, String.append_assoc, String.append_empty]
  refine ⟨_, by rw [htext]; exact parse_text hwritable, ?_⟩
  rw [pollLast]
  simp only [dropLastStep_append]
  rw [dropLastStep, if_neg (by simp), List.dropLast_concat]

/-! ### Growing and stepping back -/

/-- **Steps back undo growth.** If a text is added to an expression that can be reached, then as many
steps back as the text has steps give the expression again. The text of an expression that is not
empty can be continued by any selector in brackets, which one step back takes away. One step back
from such an expression leaves one step less and a proper beginning of its text. So the empty
expression is reached after exactly as many steps back as there are steps, and not left again. -/
theorem pollLast_undoes_growth {e : Expression} (he : e.Reachable) :
    (∀ text d, Expression.parse text = .ok d →
      ∃ f, e.addLast text = .ok f ∧ pollLast^[d.weight] f = e) ∧
    (e ≠ empty →
      (∀ i : Selector, ∃ f, Expression.parse (e.text ++ "[" ++ i.text ++ "]") = .ok f ∧
        f.pollLast = e) ∧
      e.weight = e.pollLast.weight + 1 ∧ ∃ t, t ≠ "" ∧ e.text = e.pollLast.text ++ t) ∧
    ∀ n, pollLast^[n] e = empty ↔ e.weight ≤ n := by
  refine ⟨fun text d hd => ?_, fun hne => ?_, fun n => iterate_pollLast_eq_empty_iff⟩
  · exact ⟨_, he.addLast_eq_ok hd, iterate_pollLast_append e.segments rfl⟩
  · have hwritable := he.isWritable hne
    obtain ⟨step, hstep⟩ := dropsLast_pollLast hne
    exact ⟨parse_text_append_bracket hwritable, weight_pollLast hne,
      text_of_dropsLast hwritable hstep⟩

/-- Three steps added to two, one of them with an empty bracket behind it, and a selector. -/
theorem pollLast_undoes_growth_cells :
    let e : Expression := ⟨[⟨"items", [.position 0]⟩]⟩
    let d : Expression := ⟨[⟨"a", []⟩, ⟨"b", [.position 2]⟩]⟩
    e.Reachable ∧ e ≠ empty ∧ Expression.parse "a.b[2][]" = .ok d ∧
      (∃ f, e.addLast "a.b[2][]" = .ok f ∧ pollLast^[3] f = e) ∧
      (∃ f, Expression.parse "items[0][*]" = .ok f ∧ f.pollLast = e) ∧
      e.weight = e.pollLast.weight + 1 ∧ (∃ t, t ≠ "" ∧ "items[0]" = "items" ++ t) ∧
      pollLast^[1] e ≠ empty ∧ pollLast^[2] e = empty ∧ pollLast^[7] e = empty := by
  intro e d
  have hread : Expression.parse "items[0][1]" = .ok ⟨[⟨"items", [.position 0, .position 1]⟩]⟩ := by
    decide +kernel
  have he : e.Reachable := .pollLast (.parse hread)
  have hne : e ≠ empty := by decide
  have hd : Expression.parse "a.b[2][]" = .ok d := by decide +kernel
  obtain ⟨hgrown, hback, hempty⟩ := pollLast_undoes_growth he
  obtain ⟨hbracket, hweight, htext⟩ := hback hne
  exact ⟨he, hne, hd, hgrown _ d hd, hbracket .wildcard, hweight, htext,
    fun h => absurd ((hempty 1).mp h) (by decide), (hempty 2).mpr (by decide),
    (hempty 7).mpr (by decide)⟩

end Expression

end TreePath
