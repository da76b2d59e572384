import TreePath.Tree.Document
import Mathlib.Data.List.Basic

/-! # The steps of a document

A value is left downwards over its *steps*: the entries of a mapping, each told by the text of its
key, and the items of a sequence, each told by its index. Tags are transparent, and scalars have no
steps. The tree of a value has a child for each step.

* `Yaml.Value.steps`: the steps of a value, with the values that they lead to.
* `Node.children_ofValue`: the children of the tree of a value.
* `Yaml.Value.Everywhere`: what holds of a value and of every value below it. -/

namespace TreePath

/-- A step down in a document. -/
inductive Descent where
  | entry (key : String)
  | item (index : Nat)
  deriving DecidableEq, Repr

namespace Yaml.Value

/-- The steps down from a value, with the values that they lead to. -/
def steps : Value → List (Descent × Value)
  | .mapping entries => entries.map fun e => (.entry (scalarText e.1), e.2)
  | .sequence items => items.zipIdx.map fun e => (.item e.2, e.1)
  | .tagged _ v => v.steps
  | _ => []

/-- A property of a value and of every value below it. -/
inductive Everywhere (P : Value → Prop) : Value → Prop
  | intro {v : Value} : P v → (∀ s ∈ v.steps, Everywhere P s.2) → Everywhere P v

theorem Everywhere.here {P : Value → Prop} {v : Value} (h : v.Everywhere P) : P v := by
  cases h; assumption

theorem Everywhere.ofStep {P : Value → Prop} {v : Value} (h : v.Everywhere P) :
    ∀ s ∈ v.steps, s.2.Everywhere P := by
  cases h; assumption

end Yaml.Value

open Yaml (Value)

/-- The node of a step: an entry has a name, an item a position. -/
def Descent.label : Descent → Node → Node
  | .entry key, n => n.withName key
  | .item i, n => n.withPosition (UInt64.ofNat i)

theorem Descent.children_label (d : Descent) (n : Node) : (d.label n).children = n.children := by
  cases d <;> rfl

namespace Node

theorem ofEntries_eq_map : ∀ entries : List (Value × Value),
    ofEntries entries = entries.map fun e => (ofValue e.2).withName (scalarText e.1)
  | [] => rfl
  | (k, v) :: rest => by rw [ofEntries, ofEntries_eq_map rest, List.map_cons]

theorem ofItems_eq_map : ∀ (items : List Value) (i : Nat),
    ofItems i items = (items.zipIdx i).map fun e => (ofValue e.1).withPosition (UInt64.ofNat e.2)
  | [], _ => rfl
  | v :: rest, i => by rw [ofItems, ofItems_eq_map rest, List.zipIdx_cons, List.map_cons]

/-- **The tree of a value has a child for each step.** -/
theorem children_ofValue : ∀ v : Value,
    (ofValue v).children = v.steps.map fun s => s.1.label (ofValue s.2)
  | .mapping entries => by
    rw [ofValue, ofEntries_eq_map, Value.steps, List.map_map]
    rfl
  | .sequence items => by
    rw [ofValue, ofItems_eq_map, Value.steps, List.map_map]
    rfl
  | .tagged _ v => by
    rw [ofValue, Value.steps]
    exact children_ofValue v
  | .null | .bool _ | .number _ | .string _ => by rw [ofValue, Value.steps] <;> simp

end Node

end TreePath
