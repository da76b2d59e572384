import TreePath.Text.Split

/-! # Splitting and joining

Cutting text at a separator is undone by joining the pieces with that separator, and undoes joining
pieces that do not hold it.

* `intercalate_split`: the pieces joined are the text.
* `split_intercalate`: joined pieces without the separator are the pieces again.
* `split_append_cons`: texts with a separator between them are cut apart there. -/

namespace TreePath.Text

theorem split_eq_splitOn (sep : Char) : ∀ cs : List Char, split sep cs = cs.splitOn sep
  | [] => rfl
  | c :: cs => by
    rw [split, split_eq_splitOn sep cs, List.splitOn_cons_eq_if_modifyHead]
    by_cases h : c = sep
    · rw [if_pos h, if_pos (beq_iff_eq.mpr h)]
    · rw [if_neg h, if_neg (by rw [beq_iff_eq]; exact h)]
      obtain ⟨piece, rest, hp⟩ := List.exists_cons_of_ne_nil (List.splitOn_ne_nil sep cs)
      rw [hp, List.modifyHead_cons]

theorem split_ne_nil (sep : Char) (cs : List Char) : split sep cs ≠ [] := by
  rw [split_eq_splitOn]; exact List.splitOn_ne_nil sep cs

theorem intercalate_split (sep : Char) (cs : List Char) : [sep].intercalate (split sep cs) = cs := by
  rw [split_eq_splitOn]; exact List.intercalate_splitOn sep

theorem split_intercalate {sep : Char} {pieces : List (List Char)} (hne : pieces ≠ [])
    (h : ∀ p ∈ pieces, sep ∉ p) : split sep ([sep].intercalate pieces) = pieces := by
  rw [split_eq_splitOn]; exact List.splitOn_intercalate sep h hne

theorem split_append_cons (sep : Char) (cs ds : List Char) :
    split sep (cs ++ sep :: ds) = split sep cs ++ split sep ds := by
  rw [split_eq_splitOn, split_eq_splitOn, split_eq_splitOn, List.splitOn_append_cons_self]

/-- No piece holds the separator. -/
theorem notMem_of_mem_split {sep : Char} : ∀ {cs p : List Char}, p ∈ split sep cs → sep ∉ p
  | [], p, hp => by
    rw [split, List.mem_singleton] at hp
    rw [hp]; exact List.not_mem_nil
  | c :: cs, p, hp => by
    obtain ⟨piece, rest, hs⟩ := List.exists_cons_of_ne_nil (split_ne_nil sep cs)
    have ih : ∀ q, q = piece ∨ q ∈ rest → sep ∉ q := fun q hq =>
      notMem_of_mem_split (by rw [hs]; exact List.mem_cons.mpr hq)
    rw [split, hs] at hp
    by_cases h : c = sep
    · rw [if_pos h] at hp
      rcases List.mem_cons.mp hp with rfl | hp
      · exact List.not_mem_nil
      · exact ih p (List.mem_cons.mp hp)
    · rw [if_neg h] at hp
      rcases List.mem_cons.mp hp with rfl | hp
      · intro hm
        rcases List.mem_cons.mp hm with rfl | hm
        · exact h rfl
        · exact ih piece (Or.inl rfl) hm
      · exact ih p (Or.inr hp)

end TreePath.Text
