import TreePath.Proofs.Expression.LastStep
import TreePath.Proofs.Overrides.Resolution
import TreePath.Proofs.Resolver.Widening
import Mathlib.Logic.Function.Iterate

/-! # Broad overrides and specific ones

There are two ways to address more than an expression does: a container in place of what is in it,
and wildcards in place of positions. The canonical order puts them on different sides. What is left
after steps back comes before the expression, since it has fewer segments or fewer selectors; what
has wildcards for positions comes after it, since the wildcard is the least selector and the larger
one comes first.

* `Expression.canonical_of_dropsLast`, `Expression.canonical_iterate_pollLast`: one step back and
  any number of them.
* `Expression.Blurs`: wildcards for some of the positions.
* `Expression.Blurs.canonical`: what is blurred comes after what it is made of.
* `OverrideSet.lt_of_canonical`: a set of overrides lists the lesser first.
* `OverrideSet.ordered_between_broader`: an override stands between those of its containers and
  those that are blurred. -/

namespace TreePath

/-! ### Steps back -/

theorem descending_append : ∀ is js : List Selector, descending is (is ++ js) = .eq
  | [], js => by cases js <;> rfl
  | i :: is, js => by
    have hself : i.order i = .eq := Std.ReflCmp.compare_self
    rw [List.cons_append, descending, hself, descending_append is js]
    rfl

theorem segmentsCanonical_append (before : List Segment) (as bs : List Segment) :
    segmentsCanonical (before ++ as) (before ++ bs) = segmentsCanonical as bs := by
  induction before with
  | nil => rfl
  | cons a before ih =>
    rw [List.cons_append, List.cons_append, segmentsCanonical, Segment.canonical_self, ih]
    rfl

namespace Expression

theorem canonical_of_dropsLast {d e : Expression} {step : Option Predicate}
    (h : e.DropsLast d step) : d.canonical e = .lt := by
  cases h with
  | index before name is i =>
    have hlength : compare is.length (is ++ [i]).length = .lt := Nat.compare_eq_lt.mpr (by simp)
    have hsegment : Segment.canonical ⟨name, is⟩ ⟨name, is ++ [i]⟩ = .lt := by
      rw [Segment.canonical, if_pos rfl, descending_append, hlength]
      rfl
    rw [canonical_of_length_eq (by simp [length]), segmentsCanonical_append, segmentsCanonical,
      hsegment]
    rfl
  | name before name _ => exact canonical_of_length_lt (by simp [length])
  | self before => exact canonical_of_length_lt (by simp [length])

theorem names_prefix_of_dropsLast {d e : Expression} {step : Option Predicate}
    (h : e.DropsLast d step) : d.names <+: e.names := by
  cases h with
  | index before name is i => simp [names]
  | name before name _ => simp [names]
  | self before => simp [names]

/-- Among expressions whose names continue each other the order is transitive: those of one length
have the same names. -/
theorem canonical_trans_of_names {a b c : Expression} (hab : a.names <+: b.names)
    (hbc : b.names <+: c.names) (h₁ : a.canonical b = .lt) (h₂ : b.canonical c = .lt) :
    a.canonical c = .lt := by
  have hnames : a.length = b.length → b.length = c.length →
      HaveAlikeNames a.names b.names c.names := by
    intro hlab hlbc
    rw [← length_names, ← length_names] at hlab hlbc
    rw [hab.eq_of_length hlab, hbc.eq_of_length hlbc]
    exact haveAlikeNames_self c.names
  have hchain := chains_canonical hnames (by rw [h₁]; rfl) (by rw [h₂]; rfl)
  rw [hchain, h₁, h₂]
  rfl

theorem canonical_iterate_pollLast {e : Expression} (he : e ≠ empty) (n : Nat) :
    (pollLast^[n + 1] e).names <+: e.names ∧ (pollLast^[n + 1] e).canonical e = .lt := by
  induction n with
  | zero =>
    obtain ⟨step, hstep⟩ := dropsLast_pollLast he
    exact ⟨names_prefix_of_dropsLast hstep, canonical_of_dropsLast hstep⟩
  | succ n ih =>
    rw [Function.iterate_succ_apply']
    -- At the empty expression the steps back come to rest.
    by_cases hempty : pollLast^[n + 1] e = empty
    · rw [hempty] at ih ⊢
      exact ih
    · obtain ⟨step, hstep⟩ := dropsLast_pollLast hempty
      have hnames := names_prefix_of_dropsLast hstep
      have hlt := canonical_of_dropsLast hstep
      exact ⟨hnames.trans ih.1, canonical_trans_of_names hnames ih.1 hlt ih.2⟩

end Expression

/-! ### Wildcards for positions -/

/-- Wildcards in place of positions come after these, or there are none. -/
theorem descending_of_wildcards {is js : List Selector}
    (h : List.Forall₂ (fun i j => i = j ∨ i = .wildcard) is js) :
    is = js ∨ descending js is = .lt := by
  induction h with
  | nil => exact .inl rfl
  | @cons i j is js hij _ ih =>
    rw [descending]
    by_cases heq : i = j
    · have hself : j.order j = .eq := Std.ReflCmp.compare_self
      rw [heq, hself]
      exact ih.imp (congrArg (j :: ·)) id
    · right
      obtain rfl := hij.resolve_left heq
      rcases j with _ | k
      · exact absurd rfl heq
      · rfl

theorem Segment.Widens.canonical {a b : Segment} (h : a.Widens b) (hname : a.name = b.name) :
    a = b ∨ b.canonical a = .lt := by
  rcases descending_of_wildcards h.indices with hindices | hlt
  · left
    obtain ⟨name, indices⟩ := a
    cases hname
    cases hindices
    rfl
  · right
    rw [Segment.canonical, if_pos hname.symm, hlt]
    rfl

theorem segmentsCanonical_of_widens {as bs : List Segment} (h : List.Forall₂ Segment.Widens as bs)
    (hnames : as.map Segment.name = bs.map Segment.name) :
    as = bs ∨ segmentsCanonical bs as = .lt := by
  induction h with
  | nil => exact .inl rfl
  | @cons a b as bs hab _ ih =>
    obtain ⟨hname, hrest⟩ := List.cons.inj hnames
    rw [segmentsCanonical]
    rcases hab.canonical hname with rfl | hlt
    · rw [Segment.canonical_self]
      exact (ih hrest).imp (congrArg (a :: ·)) id
    · rw [hlt]
      exact .inr rfl

namespace Expression

/-- The first expression is the second with wildcards in place of one or more positions. -/
structure Blurs (g e : Expression) : Prop where
  names_eq : g.names = e.names
  widens : g.Widens e
  ne : g ≠ e

theorem Blurs.canonical {g e : Expression} (h : g.Blurs e) : e.canonical g = .lt := by
  have hlength : e.length = g.length := by rw [← length_names, ← length_names, h.names_eq]
  rw [canonical_of_length_eq hlength]
  exact (segmentsCanonical_of_widens h.widens h.names_eq).resolve_left fun heq =>
    h.ne (congrArg Expression.mk heq)

end Expression

/-! ### Sets of overrides -/

namespace OverrideSet

open Expression

/-- Of two overrides the one with the lesser expression is listed first. -/
theorem lt_of_canonical {α : Type} {s : OverrideSet α}
    (hs : IsWeakOrderOn (expressions s.entries)) {i j : Nat} {a b : Override α}
    (ha : s.ordered[i]? = some a) (hb : s.ordered[j]? = some b)
    (hlt : a.expression.canonical b.expression = .lt) : i < j := by
  have hgt : b.expression.canonical a.expression = .gt := by
    rw [canonical_swap, hlt]
    rfl
  rcases Nat.lt_trichotomy i j with hij | rfl | hji
  · exact hij
  · rw [ha] at hb
    cases hb
    rw [canonical_self] at hlt
    cases hlt
  · obtain ⟨hi, rfl⟩ := List.getElem?_eq_some_iff.mp ha
    obtain ⟨hj, rfl⟩ := List.getElem?_eq_some_iff.mp hb
    have hle := List.pairwise_iff_getElem.mp (isInOrder_ordered hs).sorted j i hj hi hji
    rw [hgt] at hle
    cases hle

/-- **An expression stands between its containers and its blurred forms.** What any number of steps
back leave of an expression comes before it, and wildcards in place of one or more of its positions
give an expression that comes after it. So in a set of overrides on which the canonical order is a
weak order, the overrides of containers are listed before those of what is in them, and one with
wildcards after every one that has positions for some of these wildcards. -/
theorem ordered_between_broader {e : Expression} (he : e ≠ Expression.empty) :
    (∀ n, (pollLast^[n + 1] e).canonical e = .lt) ∧
    (∀ g : Expression, g.Blurs e → e.canonical g = .lt) ∧
    ∀ (α : Type) (s : OverrideSet α), IsWeakOrderOn (expressions s.entries) →
      s.ordered.Perm s.entries ∧
      ∀ (i j : Nat) (a b : Override α), s.ordered[i]? = some a → s.ordered[j]? = some b →
        b.expression = e →
          (∀ n, a.expression = pollLast^[n + 1] e → i < j) ∧ (a.expression.Blurs e → j < i) := by
  refine ⟨fun n => (canonical_iterate_pollLast he n).2, fun g hg => hg.canonical,
    fun α s hs => ⟨ordered_perm s, fun i j a b ha hb hbe => ⟨fun n hae => ?_, fun hae => ?_⟩⟩⟩
  · refine lt_of_canonical hs ha hb ?_
    rw [hae, hbe]
    exact (canonical_iterate_pollLast he n).2
  · refine lt_of_canonical hs hb ha ?_
    rw [hbe]
    exact hae.canonical

/-- A grid, a row of it, a cell, and the cell with one wildcard and with two. -/
theorem ordered_between_broader_grid :
    let grid (is : List Selector) : Expression := ⟨[⟨"grid", is⟩]⟩
    let cell := grid [.position 0, .position 1]
    let s : OverrideSet Nat := ⟨[⟨grid [.wildcard, .wildcard], 1⟩, ⟨cell, 2⟩, ⟨grid [], 3⟩], false⟩
    cell ≠ Expression.empty ∧ (grid [.position 0]).canonical cell = .lt ∧
      (grid []).canonical cell = .lt ∧ Expression.empty.canonical cell = .lt ∧
      (grid [.wildcard, .position 1]).Blurs cell ∧ (grid [.wildcard, .wildcard]).Blurs cell ∧
      cell.canonical (grid [.wildcard, .position 1]) = .lt ∧
      cell.canonical (grid [.wildcard, .wildcard]) = .lt ∧
      IsWeakOrderOn (expressions s.entries) ∧
      s.ordered = [⟨grid [], 3⟩, ⟨cell, 2⟩, ⟨grid [.wildcard, .wildcard], 1⟩] ∧
      ∀ i j k : Nat, s.ordered[i]? = some ⟨grid [], 3⟩ → s.ordered[j]? = some ⟨cell, 2⟩ →
        s.ordered[k]? = some ⟨grid [.wildcard, .wildcard], 1⟩ → i < j ∧ j < k := by
  intro grid cell s
  have hcell : cell ≠ Expression.empty := by decide
  have hs : IsWeakOrderOn (expressions s.entries) := by decide
  have hone : (grid [.wildcard, .position 1]).Blurs cell :=
    ⟨rfl, .cons ⟨rfl, .inl rfl, .cons (.inr rfl) (.cons (.inl rfl) .nil)⟩ .nil, by decide⟩
  have htwo : (grid [.wildcard, .wildcard]).Blurs cell :=
    ⟨rfl, .cons ⟨rfl, .inl rfl, .cons (.inr rfl) (.cons (.inr rfl) .nil)⟩ .nil, by decide⟩
  have hcells : ((grid [.wildcard, .wildcard]).canonical cell).isLE = false := by decide
  have hgrid : (cell.canonical (grid [])).isLE = false := by decide
  have hordered : s.ordered = [⟨grid [], 3⟩, ⟨cell, 2⟩, ⟨grid [.wildcard, .wildcard], 1⟩] := by
    simp [ordered, s, List.mergeSort, hcells, hgrid]
  obtain ⟨hback, hblurred, hset⟩ := ordered_between_broader hcell
  obtain ⟨-, hlisted⟩ := hset Nat s hs
  refine ⟨hcell, hback 0, hback 1, hback 2, hone, htwo, hblurred _ hone, hblurred _ htwo, hs,
    hordered, fun i j k hi hj hk => ⟨?_, ?_⟩⟩
  · exact (hlisted i j _ _ hi hj rfl).1 1 rfl
  · exact (hlisted k j _ _ hk hj rfl).2 htwo

end OverrideSet

end TreePath
