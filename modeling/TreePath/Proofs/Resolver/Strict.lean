import TreePath.Proofs.Resolver.Selection

/-! # Strict parts of a resolver

A strict part can sit anywhere in a resolver and is run on as many places as the parts before it
lead to. All that it does is to fail where it would select nothing. To say so, a resolver is run
without its strictness (`erase`); this run tells what each strict part is handed, in the order of
evaluation (`handed`).

* `Resolver.resolve_erase`: without strictness nothing fails.
* `Resolver.resolve_eq_outcome`: a resolver fails with the first of its strict parts that is handed a
  place where it selects nothing, and otherwise selects what it selects without strictness.
* `Resolver.resolve_strictness`: when a resolver fails, with what error, and what its strict form
  does. -/

namespace TreePath.Resolver

/-! ### Without strictness -/

/-- The resolver with its strict parts made lenient. -/
def erase : Resolver → Resolver
  | composite outer inner => composite outer.erase inner.erase
  | strict inner => inner.erase
  | r => r

theorem isPlain_erase (r : Resolver) : r.erase.IsPlain := by
  induction r with
  | composite outer inner ihOuter ihInner => exact ⟨ihOuter, ihInner⟩
  | strict inner ih => exact ih
  | _ => exact trivial

theorem predicates_erase (r : Resolver) : r.erase.predicates = r.predicates := by
  induction r with
  | composite outer inner ihOuter ihInner => rw [erase, predicates, predicates, ihOuter, ihInner]
  | strict inner ih => rw [erase, predicates, ih]
  | _ => rfl

theorem resolve_erase (r : Resolver) (p : Place) :
    r.erase.resolve p = .ok (select r.predicates p) := by
  rw [resolve_eq_select (isPlain_erase r), predicates_erase]

/-! ### What strict parts are handed -/

/-- The places of an answer; a failure has none. -/
def placesOf : Except NoMatch (List Place) → List Place
  | .ok places => places
  | .error _ => []

/-- The strict parts with the places that they are handed, in the order of evaluation: the outer
part of a composite comes before the inner one, which is handed the outer results from left to
right, and a strict part comes after those inside it. -/
def handed : Resolver → Place → List (Resolver × Place)
  | composite outer inner, p =>
    outer.handed p ++ (placesOf (outer.erase.resolve p)).flatMap fun q => inner.handed q
  | strict inner, p => inner.handed p ++ [(inner, p)]
  | _, _ => []

theorem handed_composite (outer inner : Resolver) (p : Place) :
    (composite outer inner).handed p =
      outer.handed p ++ (select outer.predicates p).flatMap fun q => inner.handed q := by
  rw [handed, resolve_erase, placesOf]

/-- Whether a resolver selects nothing at its place. -/
def isUnmet (call : Resolver × Place) : Bool := (select call.1.predicates call.2).isEmpty

theorem isUnmet_iff {s : Resolver} {q : Place} :
    isUnmet (s, q) = true ↔ s.erase.resolve q = .ok [] := by
  rw [isUnmet, resolve_erase, List.isEmpty_iff, Except.ok.injEq]

/-! ### The first failure -/

/-- The failure of the first call that selects nothing, or else the places. -/
def outcome (calls : List (Resolver × Place)) (places : List Place) :
    Except NoMatch (List Place) :=
  match calls.find? isUnmet with
  | some call => .error ⟨call.1.text⟩
  | none => .ok places

theorem outcome_append (before after : List (Resolver × Place)) (places : List Place) :
    outcome (before ++ after) places =
      match before.find? isUnmet with
      | some call => .error ⟨call.1.text⟩
      | none => outcome after places := by
  rw [outcome, List.find?_append]
  rcases before.find? isUnmet with _ | call <;> rfl

theorem outcome_eq_ok_iff {calls : List (Resolver × Place)} {places found : List Place} :
    outcome calls places = .ok found ↔ calls.find? isUnmet = none ∧ places = found := by
  rw [outcome]
  rcases calls.find? isUnmet with _ | call <;> simp

theorem outcome_eq_error_iff {calls : List (Resolver × Place)} {places : List Place}
    {err : NoMatch} :
    outcome calls places = .error err ↔
      ∃ call, calls.find? isUnmet = some call ∧ err = ⟨call.1.text⟩ := by
  rw [outcome]
  rcases calls.find? isUnmet with _ | call <;> simp [eq_comm]

theorem collect_eq_outcome {f : Place → Except NoMatch (List Place)} {g : Place → List Place}
    {calls : Place → List (Resolver × Place)} (h : ∀ p, f p = outcome (calls p) (g p)) :
    ∀ ps : List Place, collect f ps = outcome (ps.flatMap calls) (ps.flatMap g)
  | [] => rfl
  | p :: ps => by
    rw [collect, h p, collect_eq_outcome h ps, List.flatMap_cons, List.flatMap_cons,
      outcome_append, outcome]
    rcases (calls p).find? isUnmet with _ | call
    · simp only [outcome]
      rcases (ps.flatMap calls).find? isUnmet with _ | call <;> rfl
    · rfl

theorem resolve_eq_outcome (r : Resolver) (p : Place) :
    r.resolve p = outcome (r.handed p) (select r.predicates p) := by
  induction r generalizing p with
  | identity => rfl
  | byName n => simp [resolve, handed, predicates, select, outcome]
  | byIndex i => simp [resolve, handed, predicates, select, outcome]
  | composite outer inner ihOuter ihInner =>
    rw [resolve, ihOuter p, handed_composite, outcome_append, predicates, select_append, outcome]
    -- Up to the first failure the run with strictness finds what the run without it finds, so that
    -- the inner part is handed the same places in both.
    rcases (outer.handed p).find? isUnmet with _ | call
    · exact collect_eq_outcome ihInner _
    · rfl
  | strict inner ih =>
    rw [resolve, ih p, handed, outcome_append, predicates, outcome]
    rcases (inner.handed p).find? isUnmet with _ | call
    · rcases hs : select inner.predicates p with _ | ⟨x, xs⟩ <;> simp [outcome, isUnmet, hs]
    · rfl

theorem resolve_eq_error_iff {r : Resolver} {p : Place} {err : NoMatch} :
    r.resolve p = .error err ↔
      ∃ call, (r.handed p).find? isUnmet = some call ∧ err = ⟨call.1.text⟩ := by
  rw [resolve_eq_outcome, outcome_eq_error_iff]

/-- The first call that selects nothing has only calls before it that select something. -/
theorem find?_isUnmet_eq_some_iff {calls : List (Resolver × Place)} {s : Resolver} {q : Place} :
    calls.find? isUnmet = some (s, q) ↔
      ∃ before after, calls = before ++ (s, q) :: after ∧
        (∀ t m, (t, m) ∈ before → t.erase.resolve m ≠ .ok []) ∧ s.erase.resolve q = .ok [] := by
  rw [List.find?_eq_some_iff_append]
  constructor
  · rintro ⟨hunmet, before, after, hcalls, hbefore⟩
    refine ⟨before, after, hcalls, fun t m hm ht => ?_, isUnmet_iff.mp hunmet⟩
    have hmet := hbefore (t, m) hm
    rw [isUnmet_iff.mpr ht] at hmet
    cases hmet
  · rintro ⟨before, after, hcalls, hbefore, hempty⟩
    refine ⟨isUnmet_iff.mpr hempty, before, after, hcalls, fun (t, m) hm => ?_⟩
    rw [Bool.not_eq_true', ← Bool.not_eq_true, isUnmet_iff]
    exact hbefore t m hm

/-! ### Strictness -/

/-- An answer, or a failure with the text if the answer is empty. -/
def orNoMatch (text : String) : Except NoMatch (List Place) → Except NoMatch (List Place)
  | .ok [] => .error ⟨text⟩
  | answer => answer

theorem resolve_strict (r : Resolver) (p : Place) :
    (strict r).resolve p = orNoMatch r.text (r.resolve p) := by
  rw [resolve]
  rcases r.resolve p with err | places
  · rfl
  · rcases places with _ | ⟨x, xs⟩ <;> rfl

theorem orNoMatch_orNoMatch (text : String) (answer : Except NoMatch (List Place)) :
    orNoMatch text (orNoMatch text answer) = orNoMatch text answer := by
  rcases answer with err | places
  · rfl
  · rcases places with _ | ⟨x, xs⟩ <;> rfl

theorem resolve_toStrict (r : Resolver) (p : Place) :
    r.toStrict.resolve p = orNoMatch r.text (r.resolve p) := by
  cases r with
  | strict inner =>
    have hs : (strict inner).toStrict = strict inner := rfl
    rw [hs, resolve_strict, text, orNoMatch_orNoMatch]
  | _ => exact resolve_strict _ p

/-- **Strictness only turns emptiness into failure.** A success is that of the resolver without
strictness. There is a failure exactly if some strict part is handed a place where it selects
nothing, and the first such part is the one that the error names. The strict form of a resolver
fails where the resolver selects nothing, and otherwise does what the resolver does. -/
theorem resolve_strictness (r : Resolver) (p : Place) :
    (∀ places, r.resolve p = .ok places → r.erase.resolve p = .ok places) ∧
    ((∃ err, r.resolve p = .error err) ↔
      ∃ s q, (s, q) ∈ r.handed p ∧ s.erase.resolve q = .ok []) ∧
    (∀ err, r.resolve p = .error err ↔
      ∃ before s q after, r.handed p = before ++ (s, q) :: after ∧
        (∀ t m, (t, m) ∈ before → t.erase.resolve m ≠ .ok []) ∧
        s.erase.resolve q = .ok [] ∧ err = ⟨s.text⟩) ∧
    r.toStrict.resolve p = orNoMatch r.text (r.resolve p) := by
  refine ⟨fun places h => ?_, ?_, fun err => ?_, resolve_toStrict r p⟩
  · rw [resolve_eq_outcome, outcome_eq_ok_iff] at h
    rw [resolve_erase, h.2]
  · simp only [resolve_eq_error_iff]
    constructor
    · rintro ⟨-, ⟨s, q⟩, hfind, -⟩
      exact ⟨s, q, List.mem_of_find?_eq_some hfind, isUnmet_iff.mp (List.find?_some hfind)⟩
    · rintro ⟨s, q, hmem, hempty⟩
      have hsome : ((r.handed p).find? isUnmet).isSome = true :=
        List.find?_isSome.mpr ⟨(s, q), hmem, isUnmet_iff.mpr hempty⟩
      obtain ⟨call, hcall⟩ := Option.isSome_iff_exists.mp hsome
      exact ⟨_, call, hcall, rfl⟩
  · rw [resolve_eq_error_iff]
    constructor
    · rintro ⟨⟨s, q⟩, hfind, rfl⟩
      obtain ⟨before, after, hcalls, hbefore, hempty⟩ := find?_isUnmet_eq_some_iff.mp hfind
      exact ⟨before, s, q, after, hcalls, hbefore, hempty, rfl⟩
    · rintro ⟨before, s, q, after, hcalls, hbefore, hempty, rfl⟩
      have hfind := find?_isUnmet_eq_some_iff.mpr ⟨before, after, hcalls, hbefore, hempty⟩
      exact ⟨(s, q), hfind, rfl⟩

end TreePath.Resolver
