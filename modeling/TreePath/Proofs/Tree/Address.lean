import TreePath.Proofs.Expression.RoundTrip
import TreePath.Proofs.Resolver.Query
import TreePath.Proofs.Tree.Document

/-! # Addresses of the nodes of a document

The address of a node is the text of the steps that lead to it from the root: a dot and the key for
an entry, the index in brackets for an item, and `$` in front for the root. In a document whose keys
are names and differ within each mapping, the address of a node selects that node and no other.

* `Descent.text`, `Descent.predicate`: the text of a step and what it asks for.
* `Yaml.Value.route?`: the steps along a way of child indexes.
* `Yaml.Value.select_route`: the predicates of a route lead to the node at its end alone.
* `query_address`: so does the text of the route. -/

namespace TreePath

open Yaml (Value)

/-! ### Routes -/

/-- A step as it is written in an address. -/
def Descent.text : Descent → String
  | .entry key => "." ++ key
  | .item i => "[" ++ Nat.repr i ++ "]"

def Descent.predicate : Descent → Predicate
  | .entry key => .name key
  | .item i => .index (.position (UInt64.ofNat i))

/-- A step that an address can tell: to a key that is a name other than `$`, or to an index of 64
bits. -/
def Descent.IsWritable : Descent → Prop
  | .entry key => IsName key ∧ key ≠ selfName
  | .item i => i < UInt64.size

def routeText : List Descent → String
  | [] => ""
  | d :: ds => d.text ++ routeText ds

namespace Yaml.Value

/-- The steps along a way of child indexes. -/
def route? : Value → List Nat → Option (List Descent)
  | _, [] => some []
  | v, i :: way =>
    match v.steps[i]? with
    | some s => (s.2.route? way).map (s.1 :: ·)
    | none => none

def keyTexts : Value → List String
  | .mapping entries => entries.map fun e => scalarText e.1
  | .tagged _ v => v.keyTexts
  | _ => []

/-- The keys of a mapping differ, are names of the grammar, and are neither `*` nor `$`. -/
structure HasNames (v : Value) : Prop where
  nodup : v.keyTexts.Nodup
  isName : ∀ k ∈ v.keyTexts, IsName k
  ne_wildcard : wildcardText ∉ v.keyTexts
  ne_self : selfName ∉ v.keyTexts

/-- A sequence is no longer than a word of 64 bits can tell, as any sequence in memory. -/
def IsSized : Value → Prop
  | .sequence items => items.length < UInt64.size
  | .tagged _ v => v.IsSized
  | _ => True

/-! ### One step -/

/-- The steps are all to entries, with the keys in order, or all to items. -/
theorem step_cases : ∀ {v : Value}, v.IsSized →
    (∀ (i : Nat) (s : Descent × Value), v.steps[i]? = some s →
      ∃ k, v.keyTexts[i]? = some k ∧ s.1 = .entry k) ∨
    ∀ (i : Nat) (s : Descent × Value), v.steps[i]? = some s →
      i < UInt64.size ∧ s.1 = .item i
  | .mapping entries, _ => by
    left
    intro i s h
    rw [steps, List.getElem?_map, Option.map_eq_some_iff] at h
    obtain ⟨e, he, rfl⟩ := h
    exact ⟨scalarText e.1, by rw [keyTexts, List.getElem?_map, he]; rfl, rfl⟩
  | .sequence items, hs => by
    right
    intro i s h
    rw [steps, List.getElem?_map, List.getElem?_zipIdx, Option.map_map, Option.map_eq_some_iff] at h
    obtain ⟨u, hu, rfl⟩ := h
    have hi : i < items.length := (List.getElem?_eq_some_iff.mp hu).1
    exact ⟨hi.trans (by rwa [IsSized] at hs), by simp⟩
  | .tagged _ v, hs => by
    rw [IsSized] at hs
    rw [steps, keyTexts]
    exact step_cases hs
  | .null, _ | .bool _, _ | .number _, _ | .string _, _ => by
    right
    intro i s h
    simp [steps] at h

theorem HasNames.namesOverlap {v : Value} (hn : v.HasNames) {k l : String} (hk : k ∈ v.keyTexts)
    (hl : l ∈ v.keyTexts) : namesOverlap k l = true ↔ k = l := by
  have hk' : k ≠ wildcardText := by rintro rfl; exact hn.ne_wildcard hk
  have hl' : l ≠ wildcardText := by rintro rfl; exact hn.ne_wildcard hl
  simp [TreePath.namesOverlap, hk', hl']

/-- A step passes what it asks for itself, and no other step does. -/
theorem test_predicate_iff {v : Value} (hn : v.HasNames) (hs : v.IsSized) {i j : Nat}
    {s t : Descent × Value} (hi : v.steps[i]? = some s) (hj : v.steps[j]? = some t) (n : Node) :
    s.1.predicate.test (t.1.label n) = true ↔ i = j := by
  rcases step_cases hs with h | h
  · obtain ⟨k, hk, hsk⟩ := h i s hi
    obtain ⟨l, hl, htl⟩ := h j t hj
    rw [hsk, htl]
    show TreePath.namesOverlap k l = true ↔ i = j
    rw [hn.namesOverlap (List.mem_of_getElem? hk) (List.mem_of_getElem? hl)]
    constructor
    · rintro rfl
      exact (List.getElem?_inj (List.getElem?_eq_some_iff.mp hk).1 hn.nodup).mp (hk.trans hl.symm)
    · rintro rfl
      exact Option.some.inj (hk.symm.trans hl)
  · obtain ⟨hlt, hsi⟩ := h i s hi
    obtain ⟨hlt', htj⟩ := h j t hj
    rw [hsi, htj]
    show (UInt64.ofNat i == UInt64.ofNat j) = true ↔ i = j
    rw [beq_iff_eq]
    constructor
    · intro he
      have hnat := congrArg UInt64.toNat he
      rwa [UInt64.toNat_ofNat_of_lt' hlt, UInt64.toNat_ofNat_of_lt' hlt'] at hnat
    · rintro rfl; rfl

theorem isWritable_of_step {v : Value} (hn : v.HasNames) (hs : v.IsSized) {i : Nat}
    {s : Descent × Value} (h : v.steps[i]? = some s) : s.1.IsWritable := by
  rcases step_cases hs with hc | hc
  · obtain ⟨k, hk, hsk⟩ := hc i s h
    have hm := List.mem_of_getElem? hk
    rw [hsk]
    refine ⟨hn.isName k hm, ?_⟩
    rintro rfl
    exact hn.ne_self hm
  · obtain ⟨hlt, hsi⟩ := hc i s h
    rw [hsi]
    exact hlt

end Yaml.Value

/-! ### Selecting along a route -/

theorem childrenPassing_eq_singleton {q : Predicate} {p : Place} {i : Nat} {c : Node}
    (hc : p.node.children[i]? = some c)
    (hq : ∀ j d, p.node.children[j]? = some d → (q.test d = true ↔ i = j)) :
    Resolver.childrenPassing q p = [⟨p.path ++ [i], c⟩] := by
  have hmem : ∀ x, x ∈ Resolver.childrenPassing q p ↔ x = ⟨p.path ++ [i], c⟩ := by
    intro x
    rw [mem_childrenPassing]
    constructor
    · rintro ⟨j, d, hd, ht, rfl⟩
      obtain rfl := (hq j d hd).mp ht
      rw [hc] at hd
      cases hd; rfl
    · rintro rfl
      exact ⟨i, c, hc, (hq i c hc).mpr rfl, rfl⟩
  have hpw : (Resolver.childrenPassing q p).Pairwise (Place.Before p.path) :=
    (Place.children_pairwise p).filter _
  -- Two children that pass would both be the child at `i`, yet stand in order.
  rcases hl : Resolver.childrenPassing q p with _ | ⟨x, _ | ⟨y, rest⟩⟩
  · have := (hmem _).mpr rfl
    rw [hl] at this
    simp at this
  · rw [(hmem x).mp (by rw [hl]; simp)]
  · rw [hl] at hpw
    have hx := (hmem x).mp (by rw [hl]; simp)
    have hy := (hmem y).mp (by rw [hl]; simp)
    have hxy := ((List.pairwise_cons.mp hpw).1 y (by simp)).lt [] []
    rw [hx, hy] at hxy
    exact absurd hxy (List.lt_irrefl _)

/-- **A route leads to its end alone.** -/
theorem Yaml.Value.select_route : ∀ {way : List Nat} {v : Value} {n m : Node} (path : List Nat),
    v.Everywhere HasNames → v.Everywhere IsSized → n.children = (Node.ofValue v).children →
      n.at? way = some m → ∃ ds, v.route? way = some ds ∧ (∀ d ∈ ds, d.IsWritable) ∧
        select (ds.map Descent.predicate) ⟨path, n⟩ = [⟨path ++ way, m⟩]
  | [], v, n, m, path, _, _, _, hm => by
    cases hm
    exact ⟨[], by simp [route?], by simp, by simp [select]⟩
  | i :: way, v, n, m, path, hn, hs, hch, hm => by
    obtain ⟨c, hc, hm⟩ := Node.at?_cons_eq_some.mp hm
    have hchild : ∀ (j : Nat) (d : Node), n.children[j]? = some d →
        ∃ t : Descent × Value, v.steps[j]? = some t ∧ t.1.label (Node.ofValue t.2) = d := by
      intro j d hd
      rwa [hch, Node.children_ofValue, List.getElem?_map, Option.map_eq_some_iff] at hd
    -- The node of a step has a name or a position of its own, but the children of its value.
    obtain ⟨s, hstep, rfl⟩ := hchild i c hc
    have hmem := List.mem_of_getElem? hstep
    obtain ⟨ds, hroute, hds, hsel⟩ := select_route (path ++ [i]) (hn.ofStep s hmem)
      (hs.ofStep s hmem) (s.1.children_label _) hm
    refine ⟨s.1 :: ds, by simp [route?, hstep, hroute], ?_, ?_⟩
    · intro d hd
      rcases List.mem_cons.mp hd with rfl | hd
      · exact isWritable_of_step hn.here hs.here hstep
      · exact hds d hd
    · have hone := childrenPassing_eq_singleton (p := ⟨path, n⟩) (q := s.1.predicate) hc
        fun j d hd => by
          obtain ⟨t, ht, rfl⟩ := hchild j d hd
          exact test_predicate_iff hn.here hs.here hstep ht _
      rw [List.map_cons, select, hone, List.flatMap_singleton, hsel, List.append_assoc]
      rfl

/-! ### Reading an address -/

/-- The segments of an address that starts with the segment `s`: selectors join the segment before
them. -/
def segmentsAlong (s : Segment) : List Descent → List Segment
  | [] => [s]
  | .item i :: ds => segmentsAlong ⟨s.name, s.indices ++ [.position (UInt64.ofNat i)]⟩ ds
  | .entry key :: ds => s :: segmentsAlong ⟨key, []⟩ ds

theorem segmentsAlong_ne_nil : ∀ (ds : List Descent) (s : Segment), segmentsAlong s ds ≠ []
  | [], _ => by simp [segmentsAlong]
  | .item _ :: ds, _ => by rw [segmentsAlong]; exact segmentsAlong_ne_nil ds _
  | .entry _ :: _, _ => by simp [segmentsAlong]

theorem segmentsText_along : ∀ {ds : List Descent} (s : Segment), (∀ d ∈ ds, d.IsWritable) →
    Expression.segmentsText (segmentsAlong s ds) = s.text ++ routeText ds
  | [], s, _ => by rw [segmentsAlong, Expression.segmentsText, routeText, String.append_empty]
  | .item i :: ds, s, h => by
    have hi : i < UInt64.size := h (.item i) (by simp)
    rw [segmentsAlong, segmentsText_along _ fun d hd => h d (by simp [hd]), Segment.text,
      bracketsText_append, routeText, Segment.text]
    simp [Segment.bracketsText, Selector.text, Descent.text, String.append_assoc,
      UInt64.toNat_ofNat_of_lt' hi]
  | .entry key :: ds, s, h => by
    rw [segmentsAlong, segmentsText_cons (segmentsAlong_ne_nil ds _),
      segmentsText_along _ fun d hd => h d (by simp [hd]), routeText]
    simp [Segment.text, Segment.bracketsText, Descent.text, String.append_assoc]

theorem isName_along : ∀ {ds : List Descent} {s : Segment}, IsName s.name →
    (∀ d ∈ ds, d.IsWritable) → ∀ t ∈ segmentsAlong s ds, IsName t.name
  | [], s, hs, _, t, ht => by
    rw [segmentsAlong, List.mem_singleton] at ht
    rw [ht]; exact hs
  | .item i :: ds, s, hs, h, t, ht => by
    rw [segmentsAlong] at ht
    exact isName_along (by exact hs) (fun d hd => h d (by simp [hd])) t ht
  | .entry key :: ds, s, hs, h, t, ht => by
    have hkey : IsName key ∧ key ≠ selfName := h (.entry key) (by simp)
    rw [segmentsAlong] at ht
    rcases List.mem_cons.mp ht with rfl | ht
    · exact hs
    · exact isName_along (by exact hkey.1) (fun d hd => h d (by simp [hd])) t ht

theorem predicates_along : ∀ {ds : List Descent} (s : Segment), (∀ d ∈ ds, d.IsWritable) →
    (segmentsAlong s ds).flatMap Segment.predicates = s.predicates ++ ds.map Descent.predicate
  | [], s, _ => by simp [segmentsAlong]
  | .item i :: ds, s, h => by
    rw [segmentsAlong, predicates_along _ fun d hd => h d (by simp [hd])]
    simp [Segment.predicates, Segment.isSelf, Descent.predicate]
  | .entry key :: ds, s, h => by
    have hkey : IsName key ∧ key ≠ selfName := h (.entry key) (by simp)
    rw [segmentsAlong, List.flatMap_cons, predicates_along _ fun d hd => h d (by simp [hd])]
    simp [Segment.predicates, Segment.isSelf, Descent.predicate, hkey.2]

/-- An address selects what its first segment and then its steps ask for. -/
theorem query_along {root : Node} {s : Segment} {ds : List Descent} {x : Place}
    (hs : IsName s.name) (hds : ∀ d ∈ ds, d.IsWritable)
    (hsel : select (s.predicates ++ ds.map Descent.predicate) (.root root) = [x]) :
    query root (s.text ++ routeText ds) true = .ok [x] := by
  have hw : (Expression.mk (segmentsAlong s ds)).IsWritable :=
    ⟨segmentsAlong_ne_nil ds s, isName_along hs hds⟩
  have hp := Expression.parse_text hw
  rw [Expression.text, segmentsText_along s hds] at hp
  rw [query_of_parse hp, Resolver.predicates_compile, predicates_along s hds, hsel,
    if_neg (by simp)]

/-- **The address of a node selects that node and no other.** So does the address without `$.` in
front, if it starts with an entry. -/
theorem query_address (v : Value) (hn : v.Everywhere Value.HasNames) (hs : v.Everywhere Value.IsSized)
    (way : List Nat) (m : Node) (hm : (Node.ofValue v).at? way = some m) :
    ∃ ds, v.route? way = some ds ∧
      query (Node.ofValue v) (selfName ++ routeText ds) true = .ok [⟨way, m⟩] ∧
      ∀ key rest, ds = .entry key :: rest →
        query (Node.ofValue v) (key ++ routeText rest) true = .ok [⟨way, m⟩] := by
  obtain ⟨ds, hroute, hds, hsel⟩ := Value.select_route [] hn hs rfl hm
  refine ⟨ds, hroute, ?_, ?_⟩
  · have hself : IsName selfName := ⟨by decide, by simp [selfName]⟩
    exact query_along (s := ⟨selfName, []⟩) hself hds hsel
  · rintro key rest rfl
    have hkey : IsName key ∧ key ≠ selfName := hds (.entry key) (by simp)
    have hrest : ∀ d ∈ rest, d.IsWritable := fun d hd => hds d (by simp [hd])
    have ht : (Segment.mk key []).text = key := String.append_empty
    have hp : (Segment.mk key []).predicates = [.name key] := by
      simp [Segment.predicates, Segment.isSelf, hkey.2]
    have hq : query (Node.ofValue v) ((Segment.mk key []).text ++ routeText rest) true =
        .ok [⟨way, m⟩] := query_along hkey.1 hrest (by rw [hp]; exact hsel)
    rwa [ht] at hq

/-- An entry below a tagged item. -/
theorem query_address_tagged :
    let v : Value := .mapping [(.string "a",
      .sequence [.null, .tagged "t" (.mapping [(.string "b", .bool true)])])]
    v.Everywhere Value.HasNames ∧ v.Everywhere Value.IsSized ∧
      query (Node.ofValue v) "$.a[1].b" true = .ok [⟨[0, 1, 0], Node.leaf "b" "true"⟩] ∧
      query (Node.ofValue v) "a[1].b" true = .ok [⟨[0, 1, 0], Node.leaf "b" "true"⟩] := by
  intro v
  have hnone : ∀ u : Value, u.keyTexts = [] → u.HasNames := fun u hu =>
    ⟨by simp [hu], by simp [hu], by simp [hu], by simp [hu]⟩
  have hone : ∀ (u : Value) (k : String), u.keyTexts = [k] → IsName k → wildcardText ≠ k →
      selfName ≠ k → u.HasNames := fun u k hu hk hw hs =>
    ⟨by simp [hu], by simpa [hu] using hk, by simpa [hu] using hw, by simpa [hu] using hs⟩
  have hn : v.Everywhere Value.HasNames := by
    refine .intro (hone v "a" rfl ⟨by decide, by simp⟩ (by decide) (by decide)) ?_
    simp only [v, Value.steps, List.map, List.mem_singleton, forall_eq]
    refine .intro (hnone _ rfl) ?_
    simp only [Value.steps, List.zipIdx, List.map, List.forall_mem_cons]
    refine ⟨.intro (hnone _ rfl) (by simp [Value.steps]), .intro ?_ ?_, by simp⟩
    · exact hone _ "b" rfl ⟨by decide, by simp⟩ (by decide) (by decide)
    simp only [Value.steps, List.map, List.mem_singleton, forall_eq]
    exact .intro (hnone _ rfl) (by simp [Value.steps])
  have hs : v.Everywhere Value.IsSized := by
    refine .intro trivial ?_
    simp only [v, Value.steps, List.map, List.mem_singleton, forall_eq]
    refine .intro (by show 2 < UInt64.size; decide) ?_
    simp only [Value.steps, List.zipIdx, List.map, List.forall_mem_cons]
    refine ⟨.intro trivial (by simp [Value.steps]), .intro trivial ?_, by simp⟩
    simp only [Value.steps, List.map, List.mem_singleton, forall_eq]
    exact .intro trivial (by simp [Value.steps])
  obtain ⟨ds, hroute, hq, hq'⟩ := query_address v hn hs [0, 1, 0] (Node.leaf "b" "true") rfl
  have hds : ds = [.entry "a", .item 1, .entry "b"] := (Option.some.inj hroute).symm
  subst hds
  exact ⟨hn, hs, hq, hq' "a" _ rfl⟩

end TreePath
