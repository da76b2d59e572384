import TreePath.Yaml.Token.Layout

/-! # Events of a YAML document

A document is a node: an alias, a scalar, or a collection of nodes, in block or in flow style. Its
events list it from the start to the end, with one event for an alias or a scalar and two for a
collection. A node may be missing where its place is marked; an empty plain scalar stands for it.

A stream of more than one document is refused, and an empty stream has no events.

* `Grammar.node` and the functions beside it: the events of a node from its tokens.
* `events?`: the events of a whole text. -/

namespace TreePath.Yaml

/-- An event of a node. A node other than an alias may have an anchor and a tag; an alias leads to a
node, which it names by a `ν`. -/
inductive Event (ν : Type) where
  | reference (target : ν)
  | scalar (anchor : Option String) (tag : Option TagText) (text : String) (isPlain : Bool)
  | sequenceStart (anchor : Option String) (tag : Option TagText)
  | sequenceEnd
  | mappingStart (anchor : Option String) (tag : Option TagText)
  | mappingEnd
  deriving DecidableEq, Repr, Inhabited

/-- Tokens to read, events read, and what the handles of tags stand for. -/
structure Grammar.State where
  tokens : List Token
  events : Array (Event String)
  handles : List (String × TagText)

/-- A reader of tokens that may refuse them. -/
abbrev Grammar := StateT Grammar.State Option

namespace Grammar

/-- The next token; nothing is behind the end of the stream. -/
def peek : Grammar Token := return (← get).tokens.headD .streamEnd

def skip : Grammar Unit := modify fun s => { s with tokens := s.tokens.drop 1 }

def emit (e : Event String) : Grammar Unit := modify fun s => { s with events := s.events.push e }

/-- A missing node. -/
def missing : Grammar Unit := emit (.scalar none none "" true)

/-- The whole tag of a handle and the rest behind it. -/
def expandTag (handle : String) (rest : TagText) : Grammar TagText := do
  if handle.isEmpty then return rest
  match (← get).handles.lookup handle with
  | some start => return start ++ rest
  | none => failure

/-- An anchor, if one is next. -/
def anchor? : Grammar (Option String) := do
  match ← peek with
  | .anchor name => skip; return some name
  | _ => return none

/-- A tag, if one is next. -/
def tag? : Grammar (Option (String × TagText)) := do
  match ← peek with
  | .tag handle rest => skip; return some (handle, rest)
  | _ => return none

/-- An anchor and a tag in either order, each of which may be missing. -/
def properties : Grammar (Option String × Option TagText) := do
  let first ← anchor?
  let tag ← tag?
  let anchor ← if first.isNone && tag.isSome then anchor? else pure first
  match tag with
  | some (handle, rest) => return (anchor, some (← expandTag handle rest))
  | none => return (anchor, none)

/-- A token that cannot start a node, inside of block collections. -/
def endsBlockNode : Token → Bool
  | .key | .value | .blockEnd => true
  | _ => false

mutual

/-- A node. Outside of flow collections it may be a block collection, and where `isValue` holds a
sequence may be indented as little as the mapping around it. -/
def node : Nat → (inBlock isValue : Bool) → Grammar Unit
  | 0, _, _ => failure
  | fuel + 1, inBlock, isValue => do
    if let .reference name ← peek then
      skip
      emit (.reference name)
    else
      let (anchor, tag) ← properties
      match ← peek with
      | .item =>
        if isValue then
          emit (.sequenceStart anchor tag)
          indentlessItems fuel
        else nothing anchor tag
      | .scalar text isPlain =>
        skip
        emit (.scalar anchor tag text isPlain)
      | .flowSequenceStart =>
        skip
        emit (.sequenceStart anchor tag)
        flowItems fuel true
      | .flowMappingStart =>
        skip
        emit (.mappingStart anchor tag)
        flowEntries fuel true
      | .blockSequenceStart =>
        if inBlock then
          skip
          emit (.sequenceStart anchor tag)
          blockItems fuel
        else nothing anchor tag
      | .blockMappingStart =>
        if inBlock then
          skip
          emit (.mappingStart anchor tag)
          blockEntries fuel
        else nothing anchor tag
      | _ => nothing anchor tag
where
  /-- A missing node is allowed if it has an anchor or a tag. -/
  nothing (anchor : Option String) (tag : Option TagText) : Grammar Unit :=
    if anchor.isSome || tag.isSome then emit (.scalar anchor tag "" true) else failure

/-- The items of a block sequence. -/
def blockItems : Nat → Grammar Unit
  | 0 => failure
  | fuel + 1 => do
    match ← peek with
    | .item =>
      skip
      match ← peek with
      | .item | .blockEnd => missing
      | _ => node fuel true false
      blockItems fuel
    | .blockEnd =>
      skip
      emit .sequenceEnd
    | _ => failure

/-- The items of a block sequence that is indented as little as the mapping around it. -/
def indentlessItems : Nat → Grammar Unit
  | 0 => failure
  | fuel + 1 => do
    match ← peek with
    | .item =>
      skip
      match ← peek with
      | .item | .key | .value | .blockEnd => missing
      | _ => node fuel true false
      indentlessItems fuel
    | _ => emit .sequenceEnd

/-- The entries of a block mapping. -/
def blockEntries : Nat → Grammar Unit
  | 0 => failure
  | fuel + 1 => do
    match ← peek with
    | .key =>
      skip
      if endsBlockNode (← peek) then missing else node fuel true true
      match ← peek with
      | .value =>
        skip
        if endsBlockNode (← peek) then missing else node fuel true true
      | _ => missing
      blockEntries fuel
    | .blockEnd =>
      skip
      emit .mappingEnd
    | _ => failure

/-- The items of a flow sequence, behind its bracket or behind an item. A key among them makes a
mapping of one entry. Where its node is missing, the token in its place goes with it. -/
def flowItems : Nat → (isFirst : Bool) → Grammar Unit
  | 0, _ => failure
  | fuel + 1, isFirst => do
    if (← peek) == .flowSequenceEnd then
      skip
      emit .sequenceEnd
    else
      if !isFirst then
        if (← peek) == .comma then skip else failure
      match ← peek with
      | .flowSequenceEnd =>
        skip
        emit .sequenceEnd
      | .key =>
        skip
        emit (.mappingStart none none)
        match ← peek with
        | .value | .comma | .flowSequenceEnd =>
          skip
          missing
        | _ => node fuel false false
        match ← peek with
        | .value =>
          skip
          match ← peek with
          | .comma | .flowSequenceEnd => missing
          | _ => node fuel false false
        | _ => missing
        emit .mappingEnd
        flowItems fuel false
      | _ =>
        node fuel false false
        flowItems fuel false

/-- The entries of a flow mapping, behind its brace or behind an entry. -/
def flowEntries : Nat → (isFirst : Bool) → Grammar Unit
  | 0, _ => failure
  | fuel + 1, isFirst => do
    if (← peek) == .flowMappingEnd then
      skip
      emit .mappingEnd
    else
      if !isFirst then
        if (← peek) == .comma then skip else failure
      match ← peek with
      | .flowMappingEnd =>
        skip
        emit .mappingEnd
      | .key =>
        skip
        match ← peek with
        | .value | .comma | .flowMappingEnd => missing
        | _ => node fuel false false
        match ← peek with
        | .value =>
          skip
          match ← peek with
          | .comma | .flowMappingEnd => missing
          | _ => node fuel false false
        | _ => missing
        flowEntries fuel false
      | _ =>
        node fuel false false
        missing
        flowEntries fuel false

end

/-! ### Documents -/

/-- The handles that every document has. -/
def defaultHandles : List (String × TagText) :=
  [("!", "!".toUTF8.toList), ("!!", "tag:yaml.org,2002:".toUTF8.toList)]

/-- Reads directives up to the start of the document: at most one version, 1.1 or 1.2, and each
handle at most once. -/
def directives (hasVersion : Bool) (handles : List (String × TagText)) :
    List Token → Option (List (String × TagText) × List Token)
  | .version major minor :: ts =>
    if hasVersion || major ≠ 1 || (minor ≠ 1 && minor ≠ 2) then none
    else directives true handles ts
  | .tagHandle handle start :: ts =>
    if (handles.lookup handle).isSome then none
    else directives hasVersion (handles ++ [(handle, start)]) ts
  | .documentStart :: ts => some (handles, ts)
  | _ => none

/-- A token that cannot start the node of a document. -/
def endsDocument : Token → Bool
  | .version _ _ | .tagHandle _ _ | .documentStart | .documentEnd | .streamEnd => true
  | _ => false

/-- The node of the only document, if there is one. -/
def document (fuel : Nat) : Grammar Unit := do
  match ← peek with
  | .streamEnd => return
  | .version _ _ | .tagHandle _ _ | .documentStart =>
    let (handles, tokens) ← directives false [] (← get).tokens
    modify fun s => { s with tokens, handles := handles ++ defaultHandles }
    if endsDocument (← peek) then missing else node fuel true false
  | _ => node fuel true false

/-- A stream of at most one document, which may be followed by marks of its end. -/
def stream (fuel : Nat) : Grammar Unit := do
  document fuel
  let rest := (← get).tokens.dropWhile (· == .documentEnd)
  if rest.headD .streamEnd == .streamEnd then return else failure

end Grammar

/-- The events of a text. No more than three steps lie between two tokens. -/
def events? (text : String) : Option (List (Event String)) := do
  let tokens ← tokens? text
  let start : Grammar.State := ⟨tokens.toList, #[], Grammar.defaultHandles⟩
  let (_, s) ← (Grammar.stream (4 * tokens.size + 8)).run start
  return s.events.toList

end TreePath.Yaml
