import TreePath.Expression.Order
import TreePath.Expression.Parser
import Mathlib.Control.Monad.Basic

/-! # Laws of the canonical order

Segments of one name are ordered like words: by their selectors from the left, the larger first, and
a word after its beginnings. Segments of different names are ordered by their number of selectors
alone. Each rule is transitive; a mixture of the two is not, and so there are cycles among
expressions of which two, but not all three, have one name at some place.

* `Segment.canonical_of_name_eq`, `Segment.canonical_of_name_ne`: the two rules.
* `Chains`: three comparisons as a transitive order makes them.
* `HaveAlikeNames`: at each place three names are all the same or all different.
* `Expression.canonical_trans_iff`: the order is transitive on alike names only.
* `Expression.canonical_cycle`: three expressions each of which comes before the next.
* `Expression.canonical_laws`: an expression ties with itself, turning a comparison round reverses
  it, and the names tell whether some selectors make a cycle. -/

namespace TreePath

/-! ### Selectors -/

instance : Std.TransCmp Selector.order where
  eq_swap {i j} := by
    cases i <;> cases j
    case position.position => exact Std.OrientedOrd.eq_swap
    all_goals rfl
  isLE_trans {i j k} hij hjk := by
    cases i <;> cases j <;> cases k
    case position.position.position => exact Std.TransOrd.isLE_trans hij hjk
    all_goals first | rfl | cases hij | cases hjk

/-- Selectors with the larger first. -/
def Selector.reverseOrder (i j : Selector) : Ordering := j.order i

instance : Std.TransCmp Selector.reverseOrder :=
  inferInstanceAs (Std.TransCmp fun i j => Selector.order j i)

/-! ### Segments -/

theorem descending_then_length : ∀ is js : List Selector,
    (descending is js).then (compare is.length js.length) = is.compareLex Selector.reverseOrder js
  | [], [] => rfl
  | [], _ :: _ => rfl
  | _ :: _, [] => rfl
  | i :: is, j :: js => by
    have hlength : compare (i :: is).length (j :: js).length = compare is.length js.length := by
      simp [Nat.compare_eq_ite_lt]
    rw [descending, hlength, Ordering.then_assoc, descending_then_length is js,
      List.compareLex_cons_cons, Selector.reverseOrder]

namespace Segment

theorem canonical_of_name_eq {a b : Segment} (h : a.name = b.name) :
    a.canonical b = a.indices.compareLex Selector.reverseOrder b.indices := by
  rw [canonical, if_pos h, descending_then_length]

theorem canonical_of_name_ne {a b : Segment} (h : a.name ≠ b.name) :
    a.canonical b = compare a.indices.length b.indices.length := by
  rw [canonical, if_neg h, Ordering.eq_then]

theorem canonical_self (a : Segment) : a.canonical a = .eq := by
  rw [canonical_of_name_eq rfl]
  exact Std.ReflCmp.compare_self

theorem canonical_swap (a b : Segment) : b.canonical a = (a.canonical b).swap := by
  by_cases h : a.name = b.name
  · rw [canonical_of_name_eq h, canonical_of_name_eq h.symm]
    exact Std.OrientedCmp.eq_swap
  · rw [canonical_of_name_ne h, canonical_of_name_ne (Ne.symm h)]
    exact Std.OrientedOrd.eq_swap

end Segment

/-! ### Three comparisons -/

/-- The comparisons of the first with the second, the second with the third and the first with the
third of three things, as a transitive order makes them. -/
def Chains (o₁ o₂ o₃ : Ordering) : Prop := o₁.isLE → o₂.isLE → o₃ = o₁.then o₂

theorem chains_of_transCmp {α : Type} (cmp : α → α → Ordering) [Std.TransCmp cmp] (x y z : α) :
    Chains (cmp x y) (cmp y z) (cmp x z) := by
  intro hxy hyz
  rcases h : cmp x y with _ | _ | _
  · exact Std.TransCmp.lt_of_lt_of_isLE h hyz
  · exact Std.TransCmp.congr_left h
  · rw [h] at hxy; cases hxy

/-- Ties are broken by comparisons that chain where all three tie. -/
theorem Chains.then {o₁ o₂ o₃ p₁ p₂ p₃ : Ordering} (ho : Chains o₁ o₂ o₃)
    (hp : o₁ = .eq → o₂ = .eq → Chains p₁ p₂ p₃) :
    Chains (o₁.then p₁) (o₂.then p₂) (o₃.then p₃) := by
  intro h₁ h₂
  rw [Ordering.isLE_then_iff_and] at h₁ h₂
  rw [ho h₁.1 h₂.1]
  -- After a strict first comparison the tie-breaks do not count. If only the second comparison is
  -- strict, then the tie-break of the first one is strict or a tie itself.
  rcases o₁ with _ | _ | _
  · rfl
  · rcases o₂ with _ | _ | _
    · have hle : p₁.isLE := h₁.2.resolve_left (by decide)
      rcases p₁ with _ | _ | _
      · rfl
      · rfl
      · cases hle
    · exact hp rfl rfl (h₁.2.resolve_left (by decide)) (h₂.2.resolve_left (by decide))
    · cases h₂.1
  · cases h₁.1

/-! ### Three segments and three expressions -/

/-- Three names that are all the same or all different. -/
def SameOrDistinct (x y z : String) : Prop := (x = y ∧ y = z) ∨ (x ≠ y ∧ y ≠ z ∧ x ≠ z)

/-- At each place of three lists of names they are all the same or all different. -/
def HaveAlikeNames (xs ys zs : List String) : Prop :=
  ∀ (i : Nat) (x y z : String), xs[i]? = some x → ys[i]? = some y → zs[i]? = some z →
    SameOrDistinct x y z

/-- The names of the segments, in order. -/
def Expression.names (e : Expression) : List String := e.segments.map Segment.name

theorem Segment.chains_canonical {a b c : Segment} (h : SameOrDistinct a.name b.name c.name) :
    Chains (a.canonical b) (b.canonical c) (a.canonical c) := by
  rcases h with ⟨hab, hbc⟩ | ⟨hab, hbc, hac⟩
  · rw [canonical_of_name_eq hab, canonical_of_name_eq hbc, canonical_of_name_eq (hab.trans hbc)]
    exact chains_of_transCmp _ _ _ _
  · rw [canonical_of_name_ne hab, canonical_of_name_ne hbc, canonical_of_name_ne hac]
    exact chains_of_transCmp _ _ _ _

theorem segmentsCanonical_self : ∀ as : List Segment, segmentsCanonical as as = .eq
  | [] => rfl
  | a :: as => by rw [segmentsCanonical, Segment.canonical_self, segmentsCanonical_self as]; rfl

theorem segmentsCanonical_swap : ∀ as bs : List Segment,
    segmentsCanonical bs as = (segmentsCanonical as bs).swap
  | [], [] => rfl
  | [], _ :: _ => rfl
  | _ :: _, [] => rfl
  | a :: as, b :: bs => by
    rw [segmentsCanonical, segmentsCanonical, Segment.canonical_swap, segmentsCanonical_swap as bs,
      Ordering.swap_then]

theorem chains_segmentsCanonical : ∀ {as bs cs : List Segment}, as.length = bs.length →
    bs.length = cs.length →
    HaveAlikeNames (as.map Segment.name) (bs.map Segment.name) (cs.map Segment.name) →
      Chains (segmentsCanonical as bs) (segmentsCanonical bs cs) (segmentsCanonical as cs)
  | [], [], [], _, _, _ => fun _ _ => rfl
  | a :: as, b :: bs, c :: cs, hab, hbc, hnames => by
    have hhead : SameOrDistinct a.name b.name c.name := hnames 0 _ _ _ rfl rfl rfl
    have htail := chains_segmentsCanonical (Nat.succ.inj hab) (Nat.succ.inj hbc)
      fun i x y z hx hy hz => hnames (i + 1) x y z hx hy hz
    rw [segmentsCanonical, segmentsCanonical, segmentsCanonical]
    exact (Segment.chains_canonical hhead).then fun _ _ => htail

namespace Expression

theorem canonical_self (a : Expression) : a.canonical a = .eq := by
  have hlength : compare a.length a.length = .eq := Std.ReflCmp.compare_self
  rw [canonical, hlength, segmentsCanonical_self]
  rfl

theorem canonical_swap (a b : Expression) : b.canonical a = (a.canonical b).swap := by
  have hlength : compare b.length a.length = (compare a.length b.length).swap :=
    Std.OrientedOrd.eq_swap
  rw [canonical, canonical, hlength, segmentsCanonical_swap, Ordering.swap_then]

theorem canonical_of_length_lt {a b : Expression} (h : a.length < b.length) :
    a.canonical b = .lt := by
  rw [canonical, Nat.compare_eq_lt.mpr h]
  rfl

theorem canonical_of_length_eq {a b : Expression} (h : a.length = b.length) :
    a.canonical b = segmentsCanonical a.segments b.segments := by
  rw [canonical, Nat.compare_eq_eq.mpr h, Ordering.eq_then]

theorem chains_canonical {a b c : Expression}
    (h : a.length = b.length → b.length = c.length → HaveAlikeNames a.names b.names c.names) :
    Chains (a.canonical b) (b.canonical c) (a.canonical c) := by
  have hlengths := chains_of_transCmp compare a.length b.length c.length
  refine hlengths.then fun hab hbc => ?_
  have hab : a.length = b.length := Nat.compare_eq_eq.mp hab
  have hbc : b.length = c.length := Nat.compare_eq_eq.mp hbc
  exact chains_segmentsCanonical hab hbc (h hab hbc)

end Expression

/-! ### Cycles -/

/-- Of a name given twice and a different third, selectors make a cycle: two of them put the same
names in order, and their numbers give the other two comparisons. -/
theorem Segment.exists_cycle {x y z : String} (h : ¬ SameOrDistinct x y z) :
    ∃ is js ks : List Selector,
      canonical ⟨x, is⟩ ⟨y, js⟩ = .lt ∧ canonical ⟨y, js⟩ ⟨z, ks⟩ = .lt ∧
        canonical ⟨x, is⟩ ⟨z, ks⟩ = .gt := by
  let one : List Selector := [.position 0]
  let two : List Selector := [.position 0, .position 0]
  let three : List Selector := [.position 1, .position 0, .position 0]
  by_cases hxy : x = y
  · have hyz : y ≠ z := fun hyz => h (.inl ⟨hxy, hyz⟩)
    refine ⟨three, one, two, ?_⟩
    rw [canonical_of_name_eq hxy, canonical_of_name_ne hyz,
      canonical_of_name_ne (show x ≠ z from hxy ▸ hyz)]
    exact ⟨rfl, rfl, rfl⟩
  by_cases hyz : y = z
  · refine ⟨two, three, one, ?_⟩
    rw [canonical_of_name_ne hxy, canonical_of_name_eq hyz,
      canonical_of_name_ne (show x ≠ z from hyz ▸ hxy)]
    exact ⟨rfl, rfl, rfl⟩
  · have hxz : x = z := Classical.byContradiction fun hxz => h (.inr ⟨hxy, hyz, hxz⟩)
    refine ⟨one, two, three, ?_⟩
    rw [canonical_of_name_ne hxy, canonical_of_name_ne hyz, canonical_of_name_eq hxz]
    exact ⟨rfl, rfl, rfl⟩

/-- Segments of the names, with the selectors at one place and none at the others. -/
def selectingAt (is : List Selector) : Nat → List String → List Segment
  | _, [] => []
  | 0, x :: xs => ⟨x, is⟩ :: xs.map fun y => ⟨y, []⟩
  | i + 1, x :: xs => ⟨x, []⟩ :: selectingAt is i xs

theorem names_selectingAt (is : List Selector) : ∀ (i : Nat) (xs : List String),
    (selectingAt is i xs).map Segment.name = xs
  | _, [] => by rw [selectingAt, List.map_nil]
  | 0, x :: xs => by simp [selectingAt, Function.comp_def]
  | i + 1, x :: xs => by simp [selectingAt, names_selectingAt is i xs]

theorem Segment.canonical_bare (x y : String) : canonical ⟨x, []⟩ ⟨y, []⟩ = .eq := by
  by_cases h : x = y
  · rw [canonical_of_name_eq h]; rfl
  · rw [canonical_of_name_ne h]; rfl

theorem segmentsCanonical_bare : ∀ {xs ys : List String}, xs.length = ys.length →
    segmentsCanonical (xs.map fun x => ⟨x, []⟩) (ys.map fun y => ⟨y, []⟩) = .eq
  | [], [], _ => rfl
  | x :: xs, y :: ys, h => by
    rw [List.map_cons, List.map_cons, segmentsCanonical, Segment.canonical_bare,
      segmentsCanonical_bare (Nat.succ.inj h)]
    rfl

/-- Where no other place has selectors, the one that has them decides. -/
theorem segmentsCanonical_selectingAt (is js : List Selector) : ∀ {i : Nat} {xs ys : List String}
    {x y : String}, xs.length = ys.length → xs[i]? = some x → ys[i]? = some y →
    segmentsCanonical (selectingAt is i xs) (selectingAt js i ys) =
      Segment.canonical ⟨x, is⟩ ⟨y, js⟩
  | 0, x :: xs, y :: ys, _, _, h, rfl, rfl => by
    rw [selectingAt, selectingAt, segmentsCanonical, segmentsCanonical_bare (Nat.succ.inj h),
      Ordering.then_eq]
  | i + 1, x :: xs, y :: ys, _, _, h, hx, hy => by
    rw [selectingAt, selectingAt, segmentsCanonical, Segment.canonical_bare, Ordering.eq_then]
    exact segmentsCanonical_selectingAt is js (Nat.succ.inj h) hx hy

namespace Expression

theorem length_names (e : Expression) : e.names.length = e.length := List.length_map _

theorem canonical_selectingAt {xs ys : List String} {x y : String} {i : Nat}
    (hlength : xs.length = ys.length) (hx : xs[i]? = some x) (hy : ys[i]? = some y)
    (is js : List Selector) :
    (⟨selectingAt is i xs⟩ : Expression).canonical ⟨selectingAt js i ys⟩ =
      Segment.canonical ⟨x, is⟩ ⟨y, js⟩ := by
  have hlengths : compare (⟨selectingAt is i xs⟩ : Expression).length
      (⟨selectingAt js i ys⟩ : Expression).length = .eq := by
    rw [← length_names, ← length_names, names, names, names_selectingAt, names_selectingAt, hlength]
    exact Std.ReflCmp.compare_self
  rw [canonical, hlengths, Ordering.eq_then, segmentsCanonical_selectingAt is js hlength hx hy]

/-- Among expressions of given names the order is transitive, whatever their selectors, exactly if
the names are alike or not equally many. -/
theorem canonical_trans_iff (xs ys zs : List String) :
    (∀ a b c : Expression, a.names = xs → b.names = ys → c.names = zs →
        a.canonical b = .lt → b.canonical c = .lt → a.canonical c = .lt) ↔
      (xs.length = ys.length → ys.length = zs.length → HaveAlikeNames xs ys zs) := by
  constructor
  · intro htrans hxy hyz i x y z hx hy hz
    refine Classical.byContradiction fun hnames => ?_
    obtain ⟨is, js, ks, hab, hbc, hac⟩ := Segment.exists_cycle hnames
    have hlt := htrans ⟨selectingAt is i xs⟩ ⟨selectingAt js i ys⟩ ⟨selectingAt ks i zs⟩
      (names_selectingAt is i xs) (names_selectingAt js i ys) (names_selectingAt ks i zs)
      ((canonical_selectingAt hxy hx hy is js).trans hab)
      ((canonical_selectingAt hyz hy hz js ks).trans hbc)
    rw [canonical_selectingAt (hxy.trans hyz) hx hz is ks, hac] at hlt
    cases hlt
  · rintro h a b c rfl rfl rfl hab hbc
    rw [length_names, length_names, length_names] at h
    have hac := chains_canonical h (by rw [hab]; rfl) (by rw [hbc]; rfl)
    rw [hac, hab, hbc]
    rfl

/-- **The order has cycles.** With one selector `x` comes before `y` with two and this before `x`
with three, by their numbers alone; but with the larger selector in front the last `x` comes before
the first. -/
theorem canonical_cycle :
    let a : Expression := ⟨[⟨"x", [.position 0]⟩]⟩
    let b : Expression := ⟨[⟨"y", [.position 0, .position 0]⟩]⟩
    let c : Expression := ⟨[⟨"x", [.position 1, .position 0, .position 0]⟩]⟩
    Expression.parse "x[0]" = .ok a ∧ Expression.parse "y[0][0]" = .ok b ∧
      Expression.parse "x[1][0][0]" = .ok c ∧
      a.canonical b = .lt ∧ b.canonical c = .lt ∧ c.canonical a = .lt ∧ a.canonical c ≠ .lt := by
  intro a b c
  have ha : Expression.parse "x[0]" = .ok a := by decide +kernel
  have hb : Expression.parse "y[0][0]" = .ok b := by decide +kernel
  have hc : Expression.parse "x[1][0][0]" = .ok c := by decide +kernel
  exact ⟨ha, hb, hc, by decide, by decide, by decide, by decide⟩

/-- An expression ties with itself, comparing the other way round reverses the answer, and the
names of three expressions tell whether the order is transitive whatever selectors stand in the
brackets: the expressions differ in length, or at each place the names are all the same or all
different. -/
theorem canonical_laws (a b c : Expression) :
    a.canonical a = .eq ∧ b.canonical a = (a.canonical b).swap ∧
      ((∀ a' b' c' : Expression, a'.names = a.names → b'.names = b.names → c'.names = c.names →
          a'.canonical b' = .lt → b'.canonical c' = .lt → a'.canonical c' = .lt) ↔
        (a.length = b.length → b.length = c.length → HaveAlikeNames a.names b.names c.names)) := by
  have htrans := canonical_trans_iff a.names b.names c.names
  rw [length_names, length_names, length_names] at htrans
  exact ⟨canonical_self a, canonical_swap a b, htrans⟩

theorem canonical_laws_positions :
    let a : Expression := ⟨[⟨"x", [.position 1]⟩, ⟨"k", []⟩]⟩
    let b : Expression := ⟨[⟨"x", [.position 0]⟩, ⟨"k", []⟩]⟩
    let c : Expression := ⟨[⟨"x", [.wildcard]⟩, ⟨"k", []⟩]⟩
    HaveAlikeNames a.names b.names c.names ∧ a.canonical b = .lt ∧ b.canonical c = .lt ∧
      a.canonical c = .lt := by
  intro a b c
  have hnames : HaveAlikeNames a.names b.names c.names := by
    intro i x y z hx hy hz
    rw [show b.names = a.names from rfl, hx] at hy
    rw [show c.names = a.names from rfl, hx] at hz
    exact .inl ⟨Option.some.inj hy, Option.some.inj (hy.symm.trans hz)⟩
  have hab : a.canonical b = .lt := by decide
  have hbc : b.canonical c = .lt := by decide
  have htrans := (canonical_laws a b c).2.2.mpr fun _ _ => hnames
  exact ⟨hnames, hab, hbc, htrans a b c rfl rfl rfl hab hbc⟩

end Expression

end TreePath
