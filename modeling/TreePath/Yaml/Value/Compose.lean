import TreePath.Yaml.Event
import TreePath.Yaml.Value.Scalar

/-! # From events to values

An alias stands for the node of an anchor. Anchors are numbered by the names given before them, so
that a name given anew can take the number of a later name; the alias leads to the last node of its
number, wherever in the document that is. Two limits keep the value of a document in bounds:
collections are nested at most 128 deep, and aliases are followed at most 100 times for each event.

* `numberAliases`: the numbers of anchors in the place of their names.
* `Tree`: a node as it is written, and `Tree.ofEvents?` the node that a list of events starts with.
* `Tree.value`: the value of a node.
* `Value.parse?`: the value of a text. -/

namespace TreePath.Yaml

/-! ### Anchors -/

/-- The numbers of names, and the events where the nodes of numbers start, the last first. -/
structure Anchors where
  names : List (String × Nat)
  starts : List (Nat × Nat)

namespace Anchors

def empty : Anchors := ⟨[], []⟩

/-- Gives a name to the node that starts at event `i`. -/
def define (name : String) (i : Nat) (a : Anchors) : Anchors :=
  let id := a.names.length
  ⟨(name, id) :: a.names.filter (·.1 != name), (id, i) :: a.starts⟩

/-- The number of a name that was given. -/
def number? (name : String) (a : Anchors) : Option Nat := a.names.lookup name

/-- The event where the node of a number starts. -/
def start? (id : Nat) (a : Anchors) : Option Nat := a.starts.lookup id

/-- The anchors behind an event, the one at `i`. -/
def behind (e : Event String) (i : Nat) (a : Anchors) : Anchors :=
  match e with
  | .scalar (some name) _ _ _ | .sequenceStart (some name) _ | .mappingStart (some name) _ =>
    a.define name i
  | _ => a

/-- The event with a number in the place of a name, which has to be given. -/
def numbered? (e : Event String) (a : Anchors) : Option (Event Nat) :=
  match e with
  | .reference name => (a.number? name).map .reference
  | .scalar anchor tag text isPlain => some (.scalar anchor tag text isPlain)
  | .sequenceStart anchor tag => some (.sequenceStart anchor tag)
  | .sequenceEnd => some .sequenceEnd
  | .mappingStart anchor tag => some (.mappingStart anchor tag)
  | .mappingEnd => some .mappingEnd

end Anchors

/-- Numbers the aliases of events, the first of which is the one at `i`, and gives all anchors. -/
def numberAliases (a : Anchors) (i : Nat) :
    List (Event String) → Option (List (Event Nat) × Anchors)
  | [] => some ([], a)
  | e :: es =>
    match a.numbered? e, numberAliases (a.behind e i) (i + 1) es with
    | some e, some (rest, a) => some (e :: rest, a)
    | _, _ => none

/-! ### Nodes -/

/-- A node as it is written; an alias is the number of an anchor. -/
inductive Tree where
  | reference (id : Nat)
  | scalar (tag : Option TagText) (text : String) (isPlain : Bool)
  | sequence (tag : Option TagText) (items : List Tree)
  | mapping (tag : Option TagText) (entries : List (Tree × Tree))
  deriving Repr, Inhabited

/-- A collection that is read in part, the last item or entry first. -/
inductive OpenTree where
  | sequence (tag : Option TagText) (items : List Tree)
  | mapping (tag : Option TagText) (entries : List (Tree × Tree)) (key : Option Tree)

namespace OpenTree

/-- The collection with one more node: an item, a key, or the value of the last key. -/
def add (t : Tree) : OpenTree → OpenTree
  | sequence tag items => sequence tag (t :: items)
  | mapping tag entries none => mapping tag entries (some t)
  | mapping tag entries (some key) => mapping tag ((key, t) :: entries) none

/-- The whole collection. -/
def close : OpenTree → Tree
  | sequence tag items => .sequence tag items.reverse
  | mapping tag entries _ => .mapping tag entries.reverse

end OpenTree

namespace Tree

/-- Reads on inside of open collections, the innermost first, up to the end of the outermost. -/
def readFrom (outer : List OpenTree) : List (Event Nat) → Option Tree
  | [] => none
  | e :: es =>
    match e, outer with
    | .sequenceStart _ tag, _ => readFrom (.sequence tag [] :: outer) es
    | .mappingStart _ tag, _ => readFrom (.mapping tag [] none :: outer) es
    | .reference id, [] => some (.reference id)
    | .reference id, o :: rest => readFrom (o.add (.reference id) :: rest) es
    | .scalar _ tag text isPlain, [] => some (.scalar tag text isPlain)
    | .scalar _ tag text isPlain, o :: rest =>
      readFrom (o.add (.scalar tag text isPlain) :: rest) es
    | _, [] => none
    | _, [o] => some o.close
    | _, o :: p :: rest => readFrom (p.add o.close :: rest) es

/-- The node that events start with. -/
def ofEvents? (es : List (Event Nat)) : Option Tree := readFrom [] es

end Tree

/-! ### Values -/

/-- The name of a tag of the document, which starts with `!`. -/
def documentTag? (tag : TagText) : Option String :=
  match tag with
  | [] => none
  | b :: rest =>
    if b = 33 then String.fromUTF8? ⟨(if rest.isEmpty then [b] else rest).toArray⟩ else none

/-- The value of a scalar. A tag of the document stays with it. -/
def scalarValue? (tag : Option TagText) (text : String) (isPlain : Bool) : Option Value :=
  let bare := if isPlain then readUntagged text else some (.string text)
  match tag with
  | none => bare
  | some tag =>
    match documentTag? tag with
    | some name => bare.map (.tagged name)
    | none => if tag.head? = some 33 then bare else readTagged tag text

/-- A collection with the tag that it has in the document, if any. -/
def withTag (tag : Option TagText) (v : Value) : Value :=
  match tag.bind documentTag? with
  | some name => .tagged name v
  | none => v

/-- A computation that may follow some number of aliases. -/
abbrev Expansion := StateT Nat Option

namespace Tree

/-- The node that an alias leads to; any other node is left as it is. -/
def follow (find : Nat → Option Tree) (t : Tree) : Expansion Tree :=
  match t with
  | reference id => do
    let left ← get
    if left = 0 then failure
    set (left - 1)
    match find id with
    | some t => return t
    | none => failure
  | t => return t

/-- The value of a node in which collections are nested at most `depth` deep. No two keys of a
mapping are equal. -/
def value (find : Nat → Option Tree) : (depth : Nat) → Tree → Expansion Value
  | depth, t => do
    match depth, ← t.follow find with
    | _, scalar tag text isPlain =>
      match scalarValue? tag text isPlain with
      | some v => return v
      | none => failure
    | depth + 1, sequence tag items =>
      let vs ← items.mapM (value find depth)
      return withTag tag (.sequence vs)
    | depth + 1, mapping tag entries =>
      let es ← entries.foldlM (fun (done : List (Value × Value)) (k, v) => do
        let k ← value find depth k
        if done.any (·.1.same k) then failure
        let v ← value find depth v
        return done ++ [(k, v)]) []
      return withTag tag (.mapping es)
    | _, _ => failure

end Tree

/-- How deep collections are nested. -/
def maxDepth : Nat := 128

/-- How often aliases are followed for each event. -/
def maxAliasesPerEvent : Nat := 100

/-- The value of a document, null if it has no events. -/
def Value.ofEvents? (es : List (Event String)) : Option Value := do
  if es.isEmpty then return .null
  let (numbered, anchors) ← numberAliases .empty 0 es
  let find (id : Nat) : Option Tree :=
    (anchors.start? id).bind fun i => Tree.ofEvents? (numbered.drop i)
  let tree ← Tree.ofEvents? numbered
  let (v, _) ← (tree.value find maxDepth).run (maxAliasesPerEvent * es.length)
  return v

/-- The value of a text. -/
def Value.parse? (text : String) : Option Value := (events? text).bind Value.ofEvents?

end TreePath.Yaml
