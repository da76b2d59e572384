import TreePath.Proofs.Resolver.Selection
import TreePath.Proofs.Tree.Address

/-! # Expressions evaluated on a document

An expression can be evaluated on a value without a tree. A name goes from a mapping to the values
of the entries that it calls and from a sequence to all items; a selector goes from a sequence to
the item at its position and from a mapping to all values; tags are transparent, and a scalar leads
nowhere. This finds what the compiled expression selects in the tree of the value.

* `Spot`: a value in a document with the way to it, and `Spot.place`, its place in the tree.
* `Spot.named`, `Spot.indexed`: the rules for one step.
* `Expression.evaluate`: the steps of an expression in turn.
* `Spot.childrenPassing_place`: one step in the tree is one step in the document.
* `Resolver.resolve_ofValue_evaluates`: so is every expression, and every node of the tree is that
  of a value. -/

namespace TreePath

open Yaml (Value)

/-! ### Values in a document -/

namespace Yaml.Value

/-- The value without the tags in front of it. -/
def bare : Value → Value
  | .tagged _ v => v.bare
  | v => v

def isScalar : Value → Bool
  | .null | .bool _ | .number _ | .string _ => true
  | _ => false

theorem steps_bare : ∀ v : Value, v.bare.steps = v.steps
  | .tagged _ v => by rw [bare, steps, steps_bare v]
  | .mapping _ | .sequence _ | .null | .bool _ | .number _ | .string _ => rfl

theorem steps_of_isScalar {v : Value} (h : v.bare.isScalar = true) : v.steps = [] := by
  rw [← steps_bare]
  revert h
  cases v.bare <;> simp [isScalar, steps]

theorem isSized_bare : ∀ {v : Value}, v.bare.IsSized ↔ v.IsSized
  | .tagged _ v => by rw [bare, IsSized, isSized_bare]
  | .mapping _ | .sequence _ | .null | .bool _ | .number _ | .string _ => Iff.rfl

theorem bare_cases : ∀ v : Value,
    (∃ entries, v.bare = .mapping entries) ∨ (∃ items, v.bare = .sequence items) ∨
      v.bare.isScalar = true
  | .tagged _ v => bare_cases v
  | .mapping entries => .inl ⟨entries, rfl⟩
  | .sequence items => .inr (.inl ⟨items, rfl⟩)
  | .null | .bool _ | .number _ | .string _ => .inr (.inr rfl)

end Yaml.Value

/-- A value in a document: the child indexes that lead to it, the last step of the way unless it is
the root, and the value itself. -/
structure Spot where
  way : List Nat
  step : Option Descent
  value : Value

namespace Spot

def root (v : Value) : Spot := ⟨[], none, v⟩

/-- The entries of a mapping or the items of a sequence, in order. -/
def children (p : Spot) : List Spot :=
  p.value.steps.zipIdx.map fun s => ⟨p.way ++ [s.2], some s.1.1, s.1.2⟩

/-- The spot at the end of a way down. -/
def at? (p : Spot) : List Nat → Option Spot
  | [] => some p
  | i :: way =>
    match p.children[i]? with
    | some c => c.at? way
    | none => none

/-- The node of the tree for a spot. -/
def node (p : Spot) : Node :=
  match p.step with
  | some d => d.label (Node.ofValue p.value)
  | none => Node.ofValue p.value

def place (p : Spot) : Place := ⟨p.way, p.node⟩

end Spot

/-! ### The rules -/

/-- Whether a name calls an entry: it is the key, or one of the two is `*`. -/
def Descent.isCalled (name : String) : Descent → Bool
  | .entry key => name == key || name == wildcardText || key == wildcardText
  | .item _ => false

namespace Spot

/-- Where a name leads: to the entries that it calls, or to all items. -/
def named (name : String) (p : Spot) : List Spot :=
  match p.value.bare with
  | .mapping _ => p.children.filter fun c => c.step.any (Descent.isCalled name)
  | .sequence _ => p.children
  | _ => []

/-- Where a selector leads: to all entries, or to the item at the position. -/
def indexed (selector : Selector) (p : Spot) : List Spot :=
  match p.value.bare with
  | .mapping _ => p.children
  | .sequence _ =>
    match selector with
    | .wildcard => p.children
    | .position i => p.children[i.toNat]?.toList
  | _ => []

/-- Where a step leads. -/
def next (p : Spot) : Predicate → List Spot
  | .name name => p.named name
  | .index s => p.indexed s

end Spot

/-- A segment leads to where its name leads, `$` staying in place, and then its selectors. -/
def Segment.evaluate (s : Segment) (ps : List Spot) : List Spot :=
  s.indices.foldl (fun ps i => ps.flatMap (Spot.indexed i))
    (if s.name = selfName then ps else ps.flatMap (Spot.named s.name))

/-- The segments in turn, from the root of a document. -/
def Expression.evaluate (e : Expression) (v : Value) : List Spot :=
  e.segments.foldl (fun ps s => s.evaluate ps) [.root v]

/-! ### The tree of a document -/

theorem Node.name_ofValue : ∀ v : Value, (ofValue v).name = none
  | .tagged _ v => by rw [ofValue, name_ofValue v]
  | .mapping _ | .sequence _ | .null | .bool _ | .number _ | .string _ => by rw [ofValue] <;> simp

theorem Node.position_ofValue : ∀ v : Value, (ofValue v).position = none
  | .tagged _ v => by rw [ofValue, position_ofValue v]
  | .mapping _ | .sequence _ | .null | .bool _ | .number _ | .string _ => by rw [ofValue] <;> simp

/-- A node has a text exactly if its value is a scalar under its tags. -/
theorem Node.value_ofValue : ∀ v : Value,
    (ofValue v).value = if v.bare.isScalar then some (scalarText v.bare) else none
  | .tagged _ v => by rw [ofValue, value_ofValue v, Value.bare]
  | .mapping _ | .sequence _ | .null | .bool _ | .number _ | .string _ => by
    rw [ofValue] <;> simp [Value.bare, Value.isScalar]

namespace Spot

theorem node_eq_label_or (p : Spot) :
    p.node = Node.ofValue p.value ∨ ∃ d : Descent, p.node = d.label (Node.ofValue p.value) := by
  unfold node
  rcases p.step with _ | d
  · exact .inl rfl
  · exact .inr ⟨d, rfl⟩

theorem children_node (p : Spot) : p.node.children = (Node.ofValue p.value).children := by
  rcases p.node_eq_label_or with h | ⟨d, h⟩
  · rw [h]
  · rw [h, Descent.children_label]

theorem value_node (p : Spot) :
    p.node.value = if p.value.bare.isScalar then some (scalarText p.value.bare) else none := by
  rw [← Node.value_ofValue]
  rcases p.node_eq_label_or with h | ⟨d, h⟩
  · rw [h]
  · rw [h]
    cases d <;> rfl

/-- The children of a node in the tree are those of its value. -/
theorem children_node_eq_map (p : Spot) : p.node.children = p.children.map node := by
  rw [children_node, Node.children_ofValue, children, List.map_map]
  conv_lhs => rw [← List.zipIdx_map_fst 0 p.value.steps, List.map_map]
  rfl

theorem at?_node : ∀ (way : List Nat) (p : Spot), p.node.at? way = (p.at? way).map node
  | [], _ => rfl
  | i :: way, p => by
    rw [Node.at?, at?, children_node_eq_map, List.getElem?_map]
    rcases p.children[i]? with _ | c
    · rfl
    · exact at?_node way c

theorem childrenFrom_eq_map (path : List Nat) : ∀ (ns : List Node) (i : Nat),
    Place.childrenFrom path i ns = (ns.zipIdx i).map fun n => ⟨path ++ [n.2], n.1⟩
  | [], _ => rfl
  | n :: ns, i => by
    rw [Place.childrenFrom, childrenFrom_eq_map path ns, List.zipIdx_cons, List.map_cons]

/-- The places below a place of the tree are those of the spots below its spot. -/
theorem children_place (p : Spot) : p.place.children = p.children.map place := by
  rw [Place.children, childrenFrom_eq_map, place, children_node, Node.children_ofValue,
    List.zipIdx_map, List.map_map, children, List.map_map]
  rfl

/-! ### One step -/

theorem children_of_isScalar {p : Spot} (h : p.value.bare.isScalar = true) : p.children = [] := by
  rw [children, Value.steps_of_isScalar h]
  rfl

/-- A scalar leads nowhere. -/
theorem next_of_isScalar {p : Spot} (h : p.value.bare.isScalar = true) (q : Predicate) :
    p.next q = [] := by
  cases q with
  | name name =>
    unfold next named
    revert h
    cases p.value.bare <;> simp [Value.isScalar]
  | index s =>
    unfold next indexed
    revert h
    cases p.value.bare <;> simp [Value.isScalar]

section Step
variable {p c : Spot} {entries : List (Value × Value)} {items : List Value} {i : Nat}

theorem step_eq_entry (hp : p.value.bare = .mapping entries) (hc : c ∈ p.children) :
    ∃ key, c.step = some (.entry key) := by
  rw [children, ← Value.steps_bare, hp, List.mem_map] at hc
  obtain ⟨s, hs, rfl⟩ := hc
  have hstep : s.1 ∈ (Value.mapping entries).steps := List.fst_mem_of_mem_zipIdx hs
  rw [Value.steps] at hstep
  obtain ⟨e, -, he⟩ := List.mem_map.mp hstep
  exact ⟨scalarText e.1, by rw [← he]⟩

theorem step_eq_item (hp : p.value.bare = .sequence items) (hc : p.children[i]? = some c) :
    i < items.length ∧ c.step = some (.item i) := by
  rw [children, ← Value.steps_bare, hp, Value.steps, List.getElem?_map, List.getElem?_zipIdx,
    List.getElem?_map, List.getElem?_zipIdx] at hc
  rcases h : items[i]? with _ | item
  · simp [h] at hc
  · have hi : i < items.length := (List.getElem?_eq_some_iff.mp h).1
    rw [h] at hc
    cases hc
    exact ⟨hi, by simp⟩

theorem test_name_of_entry {key : String} (hc : c.step = some (.entry key)) (name : String) :
    (Predicate.name name).test c.node = c.step.any (Descent.isCalled name) := by
  have hname : c.node.name = some key := by rw [node, hc]; rfl
  rw [Predicate.test, hname, hc]
  rfl

theorem test_index_of_entry {key : String} (hc : c.step = some (.entry key)) (s : Selector) :
    (Predicate.index s).test c.node = true := by
  have hposition : c.node.position = none := by rw [node, hc]; exact Node.position_ofValue c.value
  rw [Predicate.test, hposition]

theorem test_name_of_item (hc : c.step = some (.item i)) (name : String) :
    (Predicate.name name).test c.node = true := by
  have hname : c.node.name = none := by rw [node, hc]; exact Node.name_ofValue c.value
  rw [Predicate.test, hname]

theorem test_index_of_item (hc : c.step = some (.item i)) (s : Selector) :
    (Predicate.index s).test c.node = s.selects (UInt64.ofNat i) := by
  have hposition : c.node.position = some (UInt64.ofNat i) := by rw [node, hc]; rfl
  rw [Predicate.test, hposition]

end Step

/-- Of a list in which only the element at `i` passes the filter leaves this one. -/
theorem filter_eq_toList_getElem? {α : Type} {q : α → Bool} : ∀ {cs : List α} {i : Nat},
    (∀ (j : Nat) (c : α), cs[j]? = some c → (q c = true ↔ j = i)) → cs.filter q = cs[i]?.toList
  | [], _, _ => rfl
  | c :: cs, 0, h => by
    have hhead : q c = true := (h 0 c rfl).mpr rfl
    have hrest : cs.filter q = [] := List.filter_eq_nil_iff.mpr fun d hd ht => by
      obtain ⟨j, hj⟩ := List.mem_iff_getElem?.mp hd
      exact absurd ((h (j + 1) d hj).mp ht) (by simp)
    rw [List.filter_cons_of_pos hhead, hrest]
    rfl
  | c :: cs, i + 1, h => by
    have hhead : ¬ q c = true := fun ht => absurd ((h 0 c rfl).mp ht) (by simp)
    rw [List.filter_cons_of_neg hhead, filter_eq_toList_getElem? fun j d hd => by
      simpa using h (j + 1) d hd]
    rfl

theorem filter_test_name (name : String) (p : Spot) :
    (p.children.filter fun c => (Predicate.name name).test c.node) = p.next (.name name) := by
  rcases p.value.bare_cases with ⟨entries, hp⟩ | ⟨items, hp⟩ | hp
  · rw [next, named, hp]
    refine List.filter_congr fun c hc => ?_
    obtain ⟨key, hkey⟩ := step_eq_entry hp hc
    exact test_name_of_entry hkey name
  · rw [next, named, hp]
    refine List.filter_eq_self.mpr fun c hc => ?_
    obtain ⟨i, hi⟩ := List.mem_iff_getElem?.mp hc
    exact test_name_of_item (step_eq_item hp hi).2 name
  · rw [children_of_isScalar hp, next_of_isScalar hp, List.filter_nil]

theorem filter_test_index {p : Spot} (hsized : p.value.bare.IsSized) (s : Selector) :
    (p.children.filter fun c => (Predicate.index s).test c.node) = p.next (.index s) := by
  rcases p.value.bare_cases with ⟨entries, hp⟩ | ⟨items, hp⟩ | hp
  · unfold next indexed
    rw [hp]
    refine List.filter_eq_self.mpr fun c hc => ?_
    obtain ⟨key, hkey⟩ := step_eq_entry hp hc
    exact test_index_of_entry hkey s
  · have hlength : items.length < UInt64.size := by rwa [hp] at hsized
    have htest : ∀ (j : Nat) (c : Spot), p.children[j]? = some c →
        j < UInt64.size ∧ (Predicate.index s).test c.node = s.selects (UInt64.ofNat j) := by
      intro j c hc
      obtain ⟨hj, hstep⟩ := step_eq_item hp hc
      exact ⟨hj.trans hlength, test_index_of_item hstep s⟩
    cases s with
    | wildcard =>
      rw [next, indexed, hp]
      refine List.filter_eq_self.mpr fun c hc => ?_
      obtain ⟨j, hj⟩ := List.mem_iff_getElem?.mp hc
      exact (htest j c hj).2
    | position i =>
      rw [next, indexed, hp]
      -- Below the size of a word different indexes have different words.
      refine filter_eq_toList_getElem? fun j c hc => ?_
      obtain ⟨hj, ht⟩ := htest j c hc
      rw [ht, Selector.selects, beq_iff_eq, ← UInt64.toNat_inj, UInt64.toNat_ofNat_of_lt' hj,
        eq_comm]
  · rw [children_of_isScalar hp, next_of_isScalar hp, List.filter_nil]

theorem filter_test {p : Spot} (hp : p.value.IsSized) (q : Predicate) :
    (p.children.filter fun c => q.test c.node) = p.next q := by
  cases q with
  | name name => exact filter_test_name name p
  | index s => exact filter_test_index (Value.isSized_bare.mpr hp) s

/-- **A step in the tree of a document is a step in the document.** -/
theorem childrenPassing_place {p : Spot} (hp : p.value.IsSized) (q : Predicate) :
    Resolver.childrenPassing q p.place = (p.next q).map place := by
  rw [Resolver.childrenPassing, children_place, List.filter_map, ← filter_test hp]
  rfl

/-! ### The steps in turn -/

theorem everywhere_of_mem_children {P : Value → Prop} {p c : Spot} (hp : p.value.Everywhere P)
    (hc : c ∈ p.children) : c.value.Everywhere P := by
  obtain ⟨s, hs, rfl⟩ := List.mem_map.mp hc
  exact hp.ofStep s.1 (List.fst_mem_of_mem_zipIdx hs)

/-- The spots after several steps, each of which goes on from all spots so far. -/
def follow (qs : List Predicate) (ps : List Spot) : List Spot :=
  qs.foldl (fun ps q => ps.flatMap fun p => p.next q) ps

theorem select_place : ∀ (qs : List Predicate) {ps : List Spot},
    (∀ p ∈ ps, p.value.Everywhere Value.IsSized) →
      (ps.map place).flatMap (select qs) = (follow qs ps).map place
  | [], ps, _ => by
    have hself : select [] = fun p => [p] := rfl
    rw [hself, List.flatMap_singleton', follow, List.foldl_nil]
  | q :: qs, ps, h => by
    have hstep : (ps.map place).flatMap (Resolver.childrenPassing q) =
        (ps.flatMap fun p => p.next q).map place := by
      rw [List.flatMap_map, List.map_flatMap]
      exact List.flatMap_congr fun p hp => childrenPassing_place (h p hp).here q
    have hnext : ∀ c ∈ ps.flatMap fun p => p.next q, c.value.Everywhere Value.IsSized := by
      intro c hc
      obtain ⟨p, hp, hc⟩ := List.mem_flatMap.mp hc
      rw [← filter_test (h p hp).here] at hc
      exact everywhere_of_mem_children (h p hp) (List.mem_filter.mp hc).1
    have hselect : select (q :: qs) =
        fun p => (Resolver.childrenPassing q p).flatMap (select qs) := rfl
    rw [hselect, ← List.flatMap_assoc, hstep, select_place qs hnext, follow, follow,
      List.foldl_cons]

end Spot

theorem Segment.evaluate_eq_follow (s : Segment) (ps : List Spot) :
    s.evaluate ps = Spot.follow s.predicates ps := by
  rw [evaluate, predicates, Spot.follow, List.foldl_append, List.foldl_map]
  have hiff : s.isSelf = true ↔ s.name = selfName := beq_iff_eq
  by_cases hself : s.name = selfName
  · rw [if_pos hself, if_pos (hiff.mpr hself)]
    rfl
  · rw [if_neg hself, if_neg (hiff.not.mpr hself)]
    rfl

theorem Expression.evaluate_eq_follow (e : Expression) (v : Value) :
    e.evaluate v = Spot.follow (Resolver.compile e).predicates [.root v] := by
  rw [evaluate, Resolver.predicates_compile, Spot.follow, List.foldl_flatMap]
  simp only [Segment.evaluate_eq_follow]
  rfl

namespace Resolver

/-- **Resolving in the tree of a document is evaluating on the document.** An expression selects in
the tree the places of what it is evaluated to, in order. The nodes of the tree are those of the
values of the document; a node has a text exactly if its value is a scalar under its tags, which is
then the text of this scalar, and such a node has no children. -/
theorem resolve_ofValue_evaluates (v : Value) :
    (v.Everywhere Value.IsSized → ∀ e : Expression,
      (compile e).resolve (.root (Node.ofValue v)) = .ok ((e.evaluate v).map Spot.place)) ∧
    (∀ way, (Node.ofValue v).at? way = ((Spot.root v).at? way).map Spot.node) ∧
    ∀ p : Spot,
      (p.node.value = if p.value.bare.isScalar then some (scalarText p.value.bare) else none) ∧
      (p.value.bare.isScalar = true → p.node.children = []) := by
  refine ⟨fun hv e => ?_, fun way => Spot.at?_node way (.root v),
    fun p => ⟨p.value_node, fun h => ?_⟩⟩
  · have hroot : ∀ p ∈ [Spot.root v], p.value.Everywhere Value.IsSized := by
      simpa [Spot.root] using hv
    have hselect := Spot.select_place (compile e).predicates hroot
    rw [List.map_singleton, List.flatMap_singleton] at hselect
    rw [resolve_compile, e.evaluate_eq_follow, ← hselect]
    rfl
  · rw [p.children_node_eq_map, Spot.children_of_isScalar h, List.map_nil]

/-- Below a tagged sequence, an entry that is called and one whose key is the wildcard; a name takes
all items, and a position all entries. The tag does not keep a scalar from having a text. -/
theorem resolve_ofValue_evaluates_tagged :
    let v : Value := .mapping [(.string "a", .tagged "t" (.sequence [.null,
      .mapping [(.string "b", .bool true), (.string "c", .null), (.string "*", .string "x")]]))]
    let found : List Place := [⟨[0, 1, 0], Node.leaf "b" "true"⟩, ⟨[0, 1, 2], Node.leaf "*" "x"⟩]
    let p : Spot := ⟨[0], some (.entry "k"), .tagged "t" (.bool false)⟩
    v.Everywhere Value.IsSized ∧
      (compile ⟨[⟨"a", [.position 1]⟩, ⟨"b", []⟩]⟩).resolve (.root (Node.ofValue v)) = .ok found ∧
      (compile ⟨[⟨"$", [.position 7]⟩, ⟨"z", []⟩, ⟨"b", []⟩]⟩).resolve (.root (Node.ofValue v)) =
        .ok found ∧
      p.value.bare.isScalar = true ∧ p.node.value = some "false" ∧ p.node.children = [] := by
  intro v found p
  have hleaf : ∀ u : Value, u.steps = [] → u.IsSized → u.Everywhere Value.IsSized := fun u hu hs =>
    .intro hs (by simp [hu])
  have hv : v.Everywhere Value.IsSized := by
    refine .intro trivial ?_
    simp only [v, Value.steps, List.map, List.mem_singleton, forall_eq]
    refine .intro (by show 2 < UInt64.size; decide) ?_
    simp only [Value.steps, List.zipIdx, List.map, List.forall_mem_cons]
    refine ⟨hleaf _ rfl trivial, .intro trivial ?_, by simp⟩
    simp only [Value.steps, List.map, List.forall_mem_cons]
    exact ⟨hleaf _ rfl trivial, hleaf _ rfl trivial, hleaf _ rfl trivial, by simp⟩
  obtain ⟨hresolve, -, htext⟩ := resolve_ofValue_evaluates v
  have hp : p.value.bare.isScalar = true := rfl
  obtain ⟨hvalue, hchildren⟩ := htext p
  exact ⟨hv, hresolve hv _, hresolve hv _, hp, hvalue, hchildren hp⟩

end Resolver

end TreePath
