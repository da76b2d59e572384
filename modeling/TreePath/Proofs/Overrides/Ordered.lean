import TreePath.Overrides
import TreePath.Proofs.Expression.Sort

/-! # The order in which overrides are applied

A set of overrides is ordered by its expressions alone, and each constraint goes where its expression
goes. Where the expressions agree on names, their sequence is the same however they are supplied; what
remains of the supply is the order of overrides of one expression.

* `OverrideSet.map_expression_ordered`: the expressions of the ordered set are the sorted expressions.
* `OverrideSet.filter_ordered`: overrides of one expression keep the order of their supply.
* `OverrideSet.ordered_independent_of_supply`: both, for overrides pushed in any order. -/

namespace TreePath.OverrideSet

open TreePath.Expression

variable {α : Type}

/-- The expressions of overrides, in order. -/
def expressions (os : List (Override α)) : List Expression := os.map Override.expression

theorem entries_foldl_push : ∀ (os : List (Override α)) (s : OverrideSet α),
    (os.foldl push s).entries = s.entries ++ os
  | [], s => (List.append_nil s.entries).symm
  | o :: os, s => by
    rw [List.foldl_cons, entries_foldl_push os (s.push o), push, List.append_assoc]
    rfl

theorem map_expression_ordered (s : OverrideSet α) :
    expressions s.ordered = sortCanonical (expressions s.entries) :=
  List.map_mergeSort fun _ _ _ _ => rfl

theorem ordered_perm (s : OverrideSet α) : s.ordered.Perm s.entries := List.mergeSort_perm _ _

/-- Overrides of one expression tie, so that the sort leaves them as they are. -/
theorem filter_ordered {s : OverrideSet α} (hs : AgreeOnNames (expressions s.entries))
    (e : Expression) :
    s.ordered.filter (fun o => o.expression = e) = s.entries.filter (fun o => o.expression = e) := by
  have hmem : ∀ o ∈ s.entries, o.expression ∈ expressions s.entries := fun o ho =>
    List.mem_map_of_mem ho
  refine filter_mergeSort_of_mem (fun a ha b hb c hc => ?_) (fun a b => isLE_total _ _) ?_
  · exact hs.isLE_trans (hmem a ha) (hmem b hb) (hmem c hc)
  · refine List.pairwise_of_forall_mem_list fun a ha b hb => ?_
    have ha : a.expression = e := by simpa using (List.mem_filter.mp ha).2
    have hb : b.expression = e := by simpa using (List.mem_filter.mp hb).2
    rw [ha, hb, canonical_self]
    rfl

/-- **The order of application does not depend on the order of supply.** Among expressions that agree
on names the comparison is a total order that ties equal expressions only. So every permutation of
them is sorted into the same list: a permutation with the shorter expressions in front and nothing
behind something larger. Overrides of these expressions, pushed in any order and with any
constraints, are put in just that order, each with its own constraint, and those of one expression
stay in the order in which they were pushed. -/
theorem ordered_independent_of_supply {es : List Expression} (hes : AgreeOnNames es) :
    (∀ a ∈ es, ∀ b ∈ es, (a.canonical b = .eq ↔ a = b) ∧
      b.canonical a = (a.canonical b).swap ∧
      ∀ c ∈ es, (a.canonical b).isLE → (b.canonical c).isLE → (a.canonical c).isLE) ∧
    (∀ ds : List Expression, ds.Perm es → sortCanonical ds = sortCanonical es) ∧
    (sortCanonical es).Perm es ∧
    ((sortCanonical es).Pairwise fun a b => a.length ≤ b.length ∧ a.canonical b ≠ .gt) ∧
    ∀ (α : Type) (os : List (Override α)) (isStrict : Bool), (expressions os).Perm es →
      let s := os.foldl push (empty.withStrict isStrict)
      expressions s.ordered = sortCanonical es ∧ s.ordered.Perm os ∧
        ∀ e, s.ordered.filter (fun o => o.expression = e) = os.filter (fun o => o.expression = e) := by
  have hperm : (sortCanonical es).Perm es := List.mergeSort_perm es _
  refine ⟨fun a ha b hb => ⟨hes.canonical_eq_iff ha hb, canonical_swap a b, fun c hc =>
    hes.isLE_trans ha hb hc⟩, fun ds => sortCanonical_eq_of_perm hes, hperm, ?_, ?_⟩
  · refine (pairwise_sortCanonical hes).imp fun {a b} hab => ⟨length_le_of_isLE hab, fun hgt => ?_⟩
    rw [hgt] at hab
    cases hab
  · intro α os isStrict hos s
    have hentries : s.entries = os := entries_foldl_push os (empty.withStrict isStrict)
    refine ⟨?_, ?_, fun e => ?_⟩
    · rw [map_expression_ordered, hentries, sortCanonical_eq_of_perm hes hos]
    · have h := ordered_perm s
      rwa [hentries] at h
    · have hs : AgreeOnNames (expressions s.entries) := by rw [hentries]; exact hes.perm hos
      rw [filter_ordered hs e, hentries]

/-- The larger position comes first, the wildcard last of one length; of the two overrides of `x[0]`
the one pushed first stays in front. -/
theorem ordered_independent_of_supply_positions :
    let x (i : Selector) : Expression := ⟨[⟨"x", [i]⟩]⟩
    let yz : Expression := ⟨[⟨"y", []⟩, ⟨"z", [.position 2]⟩]⟩
    let es := [x (.position 1), x (.position 0), x (.position 0), x .wildcard, yz]
    let os : List (Override Nat) :=
      [⟨yz, 1⟩, ⟨x (.position 0), 2⟩, ⟨x .wildcard, 3⟩, ⟨x (.position 1), 4⟩, ⟨x (.position 0), 5⟩]
    AgreeOnNames es ∧ (expressions os).Perm es ∧
      let s := os.foldl push (empty.withStrict true)
      expressions s.ordered = es ∧
        s.ordered.filter (fun o => o.expression = x (.position 0)) =
          [⟨x (.position 0), 2⟩, ⟨x (.position 0), 5⟩] := by
  intro x yz es os
  have hes : AgreeOnNames es := by decide
  have hos : (expressions os).Perm es := by decide
  have hsorted : es.Pairwise fun a b => (a.canonical b).isLE := by decide
  obtain ⟨-, -, -, -, hsupply⟩ := ordered_independent_of_supply hes
  obtain ⟨hexpressions, -, hfilter⟩ := hsupply Nat os true hos
  refine ⟨hes, hos, ?_, hfilter _⟩
  rw [hexpressions]
  exact List.mergeSort_of_pairwise hsorted

end TreePath.OverrideSet
