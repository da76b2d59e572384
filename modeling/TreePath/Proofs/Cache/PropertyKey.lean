import TreePath.Cache.PropertyKey

/-! # Keys up to sequence numbers

Keys are the same exactly if erasing their sequence numbers makes them equal, at every depth. So a
store may be indexed with the erased keys, and a hash of what keys feed it agrees on the same keys.

* `PropertyKey.same_iff`, `RootKey.same_iff`: the same keys are those with one identity.
* `PropertyKey.equivalence_same`: being the same is an equivalence.
* `PropertyKey.levels`, `PropertyKey.same_iff_levels`: what being the same depends on.
* `PropertyKey.digest_eq_of_same`: the same keys feed the same data. -/

namespace TreePath

theorem PropertyKey.same_iff : ∀ {a b : PropertyKey}, a.same b ↔ a.identity = b.identity
  | field t n as, field t' n' as' => by simp [same, identity, and_assoc]
  | field .., mapValue .. => by simp [same, identity]
  | mapValue .., field .. => by simp [same, identity]
  | mapValue t as m i, mapValue t' as' m' i' => by
    have ih : m.same m' ↔ m.identity = m'.identity := same_iff
    simp [same, identity, ih, and_assoc]

theorem RootKey.same_iff {a b : RootKey} : a.same b ↔ a.identity = b.identity := by
  rw [same, PropertyKey.same_iff, identity, identity, RootKey.mk.injEq]

namespace PropertyKey

theorem equivalence_same : Equivalence fun a b : PropertyKey => a.same b = true where
  refl _ := same_iff.mpr rfl
  symm h := same_iff.mpr (same_iff.mp h).symm
  trans h₁ h₂ := same_iff.mpr ((same_iff.mp h₁).trans (same_iff.mp h₂))

/-- Type, name and annotations of a property, and then of the map it is a value of, and so on. -/
def levels : PropertyKey → List (String × Option String × List String)
  | field t n as => [(t, n, as)]
  | mapValue t as m _ => (t, none, as) :: levels m

theorem levels_ne_nil (a : PropertyKey) : a.levels ≠ [] := by
  cases a <;> exact List.cons_ne_nil _ _

theorem same_iff_levels : ∀ {a b : PropertyKey}, a.same b ↔ a.levels = b.levels
  | field t n as, field t' n' as' => by simp [same, levels, and_assoc]
  | field .., mapValue _ _ m _ => by simp [same, levels, m.levels_ne_nil.symm]
  | mapValue _ _ m _, field .. => by simp [same, levels, m.levels_ne_nil]
  | mapValue t as m i, mapValue t' as' m' i' => by
    have ih : m.same m' ↔ m.levels = m'.levels := same_iff_levels
    simp [same, levels, ih]

theorem digest_identity : ∀ a : PropertyKey, a.identity.digest = a.digest
  | field .. => rfl
  | mapValue t as m i => by rw [identity, digest, digest, digest_identity m]

theorem digest_eq_of_same {a b : PropertyKey} (h : a.same b) : a.digest = b.digest := by
  rw [← digest_identity a, same_iff.mp h, digest_identity b]

theorem identity_identity : ∀ a : PropertyKey, a.identity.identity = a.identity
  | field .. => rfl
  | mapValue t as m i => by rw [identity, identity, identity_identity m]

end PropertyKey

end TreePath
