import PlanService.Yaml.Token

/-! # Nodes of a YAML document

The tree that tokens spell: scalars, sequences and mappings, and aliases of nodes that were
given a name before.  `Document.ofText` reads a text that holds at most one document.

Anchors are numbered by how many different names came before them.  A name given again takes
the number after all those so far, which a later new name then takes as well; of several
nodes with one number an alias means the last.
-/

namespace PlanService.Yaml

inductive Node where
  | scalar (anchor : Option Nat) (tag : Option String) (style : ScalarStyle) (text : String)
  | sequence (anchor : Option Nat) (items : List Node)
  | mapping (anchor : Option Nat) (entries : List (Node × Node))
  | reference (anchor : Nat)
  deriving Repr, BEq, Inhabited

namespace Node

def empty : Node := scalar none none .plain ""

/-! ## Reading tokens -/

/-- The state of reading a document: the tokens to come, the numbers of the anchors' names,
and what the declared tag handles stand for. -/
structure State where
  tokens : List Token
  names : List (String × Nat) := []
  handles : List (List Char × List Char) := []

abbrev Read (α : Type) := StateT State (Except Fault) α

def peek : Read (Option Token) := return (← get).tokens.head?

def skip : Read Unit := modify fun s => { s with tokens := s.tokens.drop 1 }

def fail {α : Type} : Read α := throw .shape

def anchorNumber (name : String) : Read Nat := do
  let s ← get
  let number := (s.names.map (·.1)).eraseDups.length
  set { s with names := (name, number) :: s.names }
  return number

def usualHandles : List (List Char × List Char) :=
  [(['!'], ['!']), (['!', '!'], "tag:yaml.org,2002:".toList)]

def fullTag (handle rest : List Char) : Read String := do
  if handle.isEmpty then return String.ofList rest
  match ((← get).handles ++ usualHandles).lookup handle with
  | some start => return String.ofList (start ++ rest)
  | none => throw .tag

def properties : Read (Option Nat × Option String) := do
  match ← peek with
  | some (.anchor name) =>
    skip
    let anchor ← anchorNumber name
    match ← peek with
    | some (.tag handle rest) =>
      skip
      return (some anchor, some (← fullTag handle rest))
    | _ => return (some anchor, none)
  | some (.tag handle rest) =>
    skip
    match ← peek with
    | some (.anchor name) =>
      skip
      let tag ← fullTag handle rest
      return (some (← anchorNumber name), some tag)
    | _ => return (none, some (← fullTag handle rest))
  | _ => return (none, none)

/-- Where a node stands: in a block collection, or where a block sequence may go without
further indentation, or in a flow collection. -/
inductive Place where
  | block
  | blockValue
  | flow
  deriving Repr, DecidableEq

/-- Whether the entry of a block collection is empty before this token. -/
def endsEntry (sequence : Bool) : Option Token → Bool
  | some .blockEnd => true
  | some .blockEntry => sequence
  | some .key | some .value => !sequence
  | _ => false

mutual

/-- A node.  The first argument bounds the number of steps. -/
def node : Nat → Place → Read Node
  | 0, _ => fail
  | fuel + 1, place => do
    match ← peek with
    | some (.reference name) =>
      skip
      match (← get).names.lookup name with
      | some number => return .reference number
      | none => throw (.reference name)
    | _ =>
      let (anchor, tag) ← properties
      match place, ← peek with
      | .blockValue, some .blockEntry => return .sequence anchor (← openItems fuel)
      | _, some (.scalar style text) =>
        skip
        return .scalar anchor (tag.filter (· != "!")) style text
      | _, some .flowSequenceStart =>
        skip
        return .sequence anchor (← flowItems fuel true)
      | _, some .flowMappingStart =>
        skip
        return .mapping anchor (← flowEntries fuel true)
      | .flow, _ => if anchor.isSome || tag.isSome then emptyNode anchor tag else fail
      | _, some .blockSequenceStart =>
        skip
        return .sequence anchor (← blockItems fuel)
      | _, some .blockMappingStart =>
        skip
        return .mapping anchor (← blockEntries fuel)
      | _, _ => if anchor.isSome || tag.isSome then emptyNode anchor tag else fail

def emptyNode (anchor : Option Nat) (tag : Option String) : Read Node :=
  return .scalar anchor tag .plain ""

def blockItems : Nat → Read (List Node)
  | 0 => fail
  | fuel + 1 => do
    match ← peek with
    | some .blockEntry =>
      skip
      let item ← if endsEntry true (← peek) then pure empty else node fuel .block
      return item :: (← blockItems fuel)
    | some .blockEnd =>
      skip
      return []
    | _ => fail

/-- The items of a block sequence that is not indented further than its key. -/
def openItems : Nat → Read (List Node)
  | 0 => fail
  | fuel + 1 => do
    match ← peek with
    | some .blockEntry =>
      skip
      let next ← peek
      let item ← if endsEntry true next || endsEntry false next then pure empty else node fuel .block
      return item :: (← openItems fuel)
    | _ => return []

def blockEntries : Nat → Read (List (Node × Node))
  | 0 => fail
  | fuel + 1 => do
    match ← peek with
    | some .blockEnd =>
      skip
      return []
    | some .key =>
      skip
      let key ← if endsEntry false (← peek) then pure empty else node fuel .blockValue
      let value ← blockValue fuel
      return (key, value) :: (← blockEntries fuel)
    | _ => fail

def blockValue : Nat → Read Node
  | 0 => fail
  | fuel + 1 => do
    match ← peek with
    | some .value =>
      skip
      if endsEntry false (← peek) then return empty else node fuel .blockValue
    | _ => return empty

/-- The items of a flow sequence; an entry with a key is a mapping of its own. -/
def flowItems : Nat → Bool → Read (List Node)
  | 0, _ => fail
  | fuel + 1, first => do
    if (← peek) == some .flowSequenceEnd then
      skip
      return []
    if !first then
      if (← peek) == some .flowEntry then skip else fail
    match ← peek with
    | some .flowSequenceEnd =>
      skip
      return []
    | some .key =>
      skip
      let item ← flowPair fuel
      return item :: (← flowItems fuel false)
    | _ =>
      let item ← node fuel .flow
      return item :: (← flowItems fuel false)

/-- The only entry of a mapping that is written as an item of a flow sequence.  Without a
key, the token after the sign is passed over. -/
def flowPair : Nat → Read Node
  | 0 => fail
  | fuel + 1 => do
    let key ←
      match ← peek with
      | some .value | some .flowEntry | some .flowSequenceEnd => do
        skip
        pure empty
      | _ => node fuel .flow
    let value ←
      match ← peek with
      | some .value => do
        skip
        match ← peek with
        | some .flowEntry | some .flowSequenceEnd => pure empty
        | _ => node fuel .flow
      | _ => pure empty
    return .mapping none [(key, value)]

def flowEntries : Nat → Bool → Read (List (Node × Node))
  | 0, _ => fail
  | fuel + 1, first => do
    if (← peek) == some .flowMappingEnd then
      skip
      return []
    if !first then
      if (← peek) == some .flowEntry then skip else fail
    match ← peek with
    | some .flowMappingEnd =>
      skip
      return []
    | some .key =>
      skip
      let key ←
        match ← peek with
        | some .value | some .flowEntry | some .flowMappingEnd => pure empty
        | _ => node fuel .flow
      let value ← flowValue fuel
      return (key, value) :: (← flowEntries fuel false)
    | _ =>
      let key ← node fuel .flow
      return (key, empty) :: (← flowEntries fuel false)

def flowValue : Nat → Read Node
  | 0 => fail
  | fuel + 1 => do
    match ← peek with
    | some .value =>
      skip
      match ← peek with
      | some .flowEntry | some .flowMappingEnd => return empty
      | _ => node fuel .flow
    | _ => return empty

end

/-! ## Documents -/

/-- The directives before a document: at most one version, and no handle twice. -/
def directives : Nat → Bool → Read Unit
  | 0, _ => fail
  | fuel + 1, versionSeen => do
    match ← peek with
    | some (.version major minor) =>
      if versionSeen || major != 1 || !(minor == 1 || minor == 2) then throw .directive
      skip
      directives fuel true
    | some (.tagDirective handle start) =>
      let s ← get
      if (s.handles.lookup handle).isSome then throw .directive
      set { s with handles := (handle, start) :: s.handles }
      skip
      directives fuel versionSeen
    | _ => return

def skipEnds : Read Unit :=
  modify fun s => { s with tokens := s.tokens.dropWhile (· == .documentEnd) }

def noMore : Read Unit := do
  skipEnds
  match ← peek with
  | none => return
  | some _ => throw .documents

/-- The only document of a text; none if the text holds nothing. -/
def document (fuel : Nat) : Read (Option Node) := do
  match ← peek with
  | none => return none
  | some (.version _ _) | some (.tagDirective _ _) | some .documentStart =>
    directives fuel false
    if (← peek) != some .documentStart then fail
    skip
    let root ←
      match ← peek with
      | none | some .documentStart | some .documentEnd | some (.version _ _)
      | some (.tagDirective _ _) => pure empty
      | _ => node fuel .block
    noMore
    return some root
  | some _ =>
    let root ← node fuel .block
    noMore
    return some root

/-! ## Aliases -/

mutual

def anchored : Node → List (Nat × Node)
  | scalar anchor tag style text =>
    (anchor.map fun n => (n, scalar anchor tag style text)).toList
  | sequence anchor items =>
    (anchor.map fun n => (n, sequence anchor items)).toList ++ anchoredItems items
  | mapping anchor entries =>
    (anchor.map fun n => (n, mapping anchor entries)).toList ++ anchoredEntries entries
  | reference _ => []

def anchoredItems : List Node → List (Nat × Node)
  | [] => []
  | item :: rest => item.anchored ++ anchoredItems rest

def anchoredEntries : List (Node × Node) → List (Nat × Node)
  | [] => []
  | (key, value) :: rest => key.anchored ++ value.anchored ++ anchoredEntries rest

end

end Node

/-- A document: its root, which is missing in a text without content, and the nodes that
aliases can mean. -/
structure Document where
  root : Option Node
  anchors : List (Nat × Node) := []
  deriving Repr

namespace Document

def ofRoot (root : Option Node) : Document where
  root
  anchors := ((root.map Node.anchored).getD []).reverse

def ofText (text : String) : Except Fault Document := do
  let tokens ← Token.ofText text
  let (root, _) ← (Node.document (4 * tokens.length + 4)).run { tokens }
  return ofRoot root

/-- The node that is meant by a node: for an alias, the one with its anchor. -/
def follow (document : Document) : Node → Node
  | .reference number => (document.anchors.lookup number).getD .empty
  | node => node

end Document

end PlanService.Yaml
