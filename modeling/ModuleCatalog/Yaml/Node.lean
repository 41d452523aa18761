import ModuleCatalog.Assoc
import ModuleCatalog.Yaml.Tag
import ModuleCatalog.Yaml.Token.Lexer

/-!
# The nodes of a document

A document is a graph: an alias refers to the node of its anchor, which may even contain the alias.
Nodes therefore have numbers, and collections hold the numbers of their parts.
-/

namespace ModuleCatalog.Yaml

abbrev NodeId := Nat

/-- What a node holds. -/
inductive Content
  | scalar (value : Text)
  | sequence (items : List NodeId)
  | mapping (entries : List (NodeId × NodeId))
  deriving DecidableEq, Repr

structure Node where
  tag : Tag
  content : Content
  deriving DecidableEq, Repr

/-- The nodes of a document, found by number. -/
abbrev Nodes := Array Node

/-- The tokens still to come, the meaning of tag handles, the nodes so far and the named ones. -/
structure Composer where
  stream : TokenStream
  handles : List (Text × Text)
  anchors : List (Text × NodeId)
  nodes : Nodes

abbrev Compose (α : Type) := StateT Composer (Except Problem) α

namespace Compose

def fail {α : Type} : Compose α := throw .malformed

/-- The next token; the end of the tokens is the fault that ended them. -/
def peek : Compose Token := do
  let s ← get
  match s.stream.tokens with
  | token :: _ => pure token
  | [] => throw (s.stream.problem.getD .malformed)

/-- Leave the next token behind. -/
def skip : Compose Unit :=
  modify fun s => { s with stream := { s.stream with tokens := s.stream.tokens.tail } }

/-- Take the next token if it is a given one, and say whether it was. -/
def take? (token : Token) : Compose Bool := do
  if (← peek) = token then
    skip
    pure true
  else pure false

/-- Take a given token. -/
def take (token : Token) : Compose Unit := do
  if !(← take? token) then fail

def isNext (tokens : List Token) : Compose Bool := do
  let token ← peek
  pure (tokens.contains token)

/-- A new node. -/
def addNode (node : Node) : Compose NodeId := do
  let s ← get
  set { s with nodes := s.nodes.push node }
  pure s.nodes.size

/-- Give a node its parts. -/
def setContent (id : NodeId) (content : Content) : Compose Unit :=
  modify fun s => { s with nodes := s.nodes.modify id fun node => { node with content } }

/-- An empty scalar stands for null. -/
def emptyNode : Compose NodeId := addNode ⟨.null, .scalar []⟩

/-- The anchor and the tag in front of a node, in either order. -/
def properties : Compose (Option Text × Option TagText) := do
  match ← peek with
  | .anchor name =>
    skip
    match ← peek with
    | .tag tag =>
      skip
      pure (some name, some tag)
    | _ => pure (some name, none)
  | .tag tag =>
    skip
    match ← peek with
    | .anchor name =>
      skip
      pure (some name, some tag)
    | _ => pure (none, some tag)
  | _ => pure (none, none)

/-- The full name of a written tag. -/
def tagName (tag : TagText) : Compose Text := do
  match tag.handle with
  | none => pure tag.suffix
  | some handle =>
    match Assoc.get? handle (← get).handles with
    | some expansion => pure (expansion ++ tag.suffix)
    | none => fail

/-- Name a new node by an anchor; a name must not be given twice. -/
def checkAnchor (anchor : Option Text) : Compose Unit := do
  match anchor with
  | none => pure ()
  | some name => if (Assoc.get? name (← get).anchors).isSome then fail

def register (anchor : Option Text) (id : NodeId) : Compose Unit := do
  match anchor with
  | none => pure ()
  | some name => modify fun s => { s with anchors := Assoc.put name id s.anchors }

/-- A new node under an anchor. -/
def anchored (anchor : Option Text) (node : Node) : Compose NodeId := do
  checkAnchor anchor
  let id ← addNode node
  register anchor id
  pure id

/-- The tag of a node: the exclamation mark alone leaves the choice to the rules, as no tag does. -/
def nodeTag (name : Option Text) (chosen : Tag) : Tag :=
  match name with
  | none => chosen
  | some name => if name = "!" then chosen else Tag.ofName name

mutual

/-- A node. Block collections are allowed only in block context, and lists without indentation only as
parts of a block mapping. The first argument bounds the number of nested steps. -/
def node : Nat → Bool → Bool → Compose NodeId
  | 0, _, _ => fail
  | fuel + 1, inBlock, maybeList => do
    match ← peek with
    | .alias name =>
      skip
      match Assoc.get? name (← get).anchors with
      | some id => pure id
      | none => fail
    | _ =>
      let (anchor, tag) ← properties
      let name ← match tag with
        | none => pure none
        | some tag => do pure (some (← tagName tag))
      let list : Node := ⟨nodeTag name .sequence, .sequence []⟩
      let table : Node := ⟨nodeTag name .mapping, .mapping []⟩
      match ← peek, inBlock with
      | .blockEntry, _ =>
        if maybeList then
          let id ← anchored anchor list
          setContent id (.sequence (← openList fuel))
          pure id
        else bareNode anchor name
      | .scalar value plain, _ =>
        skip
        let chosen := if plain || name.isSome then Tag.ofPlain value else .text
        anchored anchor ⟨nodeTag name chosen, .scalar value⟩
      | .flowSequenceStart, _ =>
        let id ← anchored anchor list
        skip
        setContent id (.sequence (← flowList fuel true))
        pure id
      | .flowMappingStart, _ =>
        let id ← anchored anchor table
        skip
        setContent id (.mapping (← flowTable fuel true))
        pure id
      | .blockSequenceStart, true =>
        let id ← anchored anchor list
        skip
        setContent id (.sequence (← blockList fuel))
        pure id
      | .blockMappingStart, true =>
        let id ← anchored anchor table
        skip
        setContent id (.mapping (← blockTable fuel))
        pure id
      | _, _ => bareNode anchor name

/-- A node of which there are properties only. -/
def bareNode (anchor name : Option Text) : Compose NodeId := do
  if anchor.isNone && name.isNone then fail
  else anchored anchor ⟨nodeTag name .null, .scalar []⟩

/-- A node, or the empty one if a token follows that cannot begin any. -/
def nodeUnless : Nat → List Token → Bool → Bool → Compose NodeId
  | 0, _, _, _ => fail
  | fuel + 1, ends, inBlock, maybeList => do
    if ← isNext ends then emptyNode else node fuel inBlock maybeList

/-- The entries of an indented list, up to its end. -/
def blockList : Nat → Compose (List NodeId)
  | 0 => fail
  | fuel + 1 => do
    if ← take? .blockEntry then
      let item ← nodeUnless fuel [.blockEntry, .blockEnd] true false
      pure (item :: (← blockList fuel))
    else
      take .blockEnd
      pure []

/-- The entries of a list without indentation, which ends where no entry follows. -/
def openList : Nat → Compose (List NodeId)
  | 0 => fail
  | fuel + 1 => do
    if ← take? .blockEntry then
      let item ← nodeUnless fuel [.blockEntry, .key, .value, .blockEnd] true false
      pure (item :: (← openList fuel))
    else pure []

/-- What follows a colon, or the empty node if there is none. -/
def valueUnless : Nat → List Token → Bool → Compose NodeId
  | 0, _, _ => fail
  | fuel + 1, ends, inBlock => do
    if ← take? .value then nodeUnless fuel ends inBlock inBlock else emptyNode

/-- The entries of a block mapping, up to its end. -/
def blockTable : Nat → Compose (List (NodeId × NodeId))
  | 0 => fail
  | fuel + 1 => do
    if ← take? .key then
      let ends : List Token := [.key, .value, .blockEnd]
      let key ← nodeUnless fuel ends true true
      let value ← valueUnless fuel ends true
      pure ((key, value) :: (← blockTable fuel))
    else
      take .blockEnd
      pure []

/-- The items of a flow sequence, up to its end. An item with a key is a mapping of one entry. -/
def flowList : Nat → Bool → Compose (List NodeId)
  | 0, _ => fail
  | fuel + 1, first => do
    if ← take? .flowSequenceEnd then pure []
    else
      if !first then take .flowEntry
      match ← peek with
      | .key =>
        let id ← addNode ⟨.mapping, .mapping []⟩
        skip
        let key ← nodeUnless fuel [.value, .flowEntry, .flowSequenceEnd] false false
        let value ← valueUnless fuel [.flowEntry, .flowSequenceEnd] false
        setContent id (.mapping [(key, value)])
        pure (id :: (← flowList fuel false))
      | .flowSequenceEnd =>
        skip
        pure []
      | _ =>
        let item ← node fuel false false
        pure (item :: (← flowList fuel false))

/-- The entries of a flow mapping, up to its end. An entry without a key sign has no value. -/
def flowTable : Nat → Bool → Compose (List (NodeId × NodeId))
  | 0, _ => fail
  | fuel + 1, first => do
    if ← take? .flowMappingEnd then pure []
    else
      if !first then take .flowEntry
      match ← peek with
      | .key =>
        skip
        let key ← nodeUnless fuel [.value, .flowEntry, .flowMappingEnd] false false
        let value ← valueUnless fuel [.flowEntry, .flowMappingEnd] false
        pure ((key, value) :: (← flowTable fuel false))
      | .flowMappingEnd =>
        skip
        pure []
      | _ =>
        let key ← node fuel false false
        let value ← emptyNode
        pure ((key, value) :: (← flowTable fuel false))

end

/-! ## Documents -/

def defaultHandles : List (Text × Text) := [("!", "!"), ("!!", Tag.standardNamespace)]

/-- The directives in front of a document, of which `version` says that there was a version among
them. The first argument bounds their number. -/
def directives : Nat → Bool → List (Text × Text) → Compose (List (Text × Text))
  | 0, _, _ => fail
  | fuel + 1, version, handles => do
    match ← peek with
    | .directive directive =>
      skip
      match directive with
      | .version major => if version || major ≠ 1 then fail else directives fuel true handles
      | .tag handle expansion =>
        if (Assoc.get? handle handles).isSome then fail
        else directives fuel version (Assoc.put handle expansion handles)
      | .other => directives fuel version handles
    | _ => pure handles

/-- Handles of a document, with the standard ones where they are not declared. -/
def withDefaults (handles : List (Text × Text)) : List (Text × Text) :=
  handles ++ defaultHandles.filter fun (handle, _) => (Assoc.get? handle handles).isNone

/-- Over the marks that end a document. The first argument bounds their number. -/
def skipDocumentEnds : Nat → Compose Unit
  | 0 => pure ()
  | fuel + 1 => do
    if ← take? .documentEnd then skipDocumentEnds fuel

/-- The root of the only document of a stream; a stream may also be empty. -/
def root (fuel : Nat) : Compose (Option NodeId) := do
  let found ← match ← peek with
    | .streamEnd => pure none
    | .directive _ | .documentStart => do
      let handles ← directives fuel false []
      modify fun s => { s with handles := withDefaults handles }
      take .documentStart
      match ← peek with
      | .directive _ | .documentStart | .documentEnd | .streamEnd => do pure (some (← emptyNode))
      | _ => do pure (some (← node fuel true false))
    | _ => do pure (some (← node fuel true false))
  skipDocumentEnds fuel
  if (← peek) = .streamEnd then pure found else fail

end Compose

/-- The nodes of the document that a text holds, and the root, if there is a document. -/
def Nodes.ofText (t : Text) : Except Problem (Option NodeId × Nodes) :=
  let stream := TokenStream.ofText t
  let start : Composer := ⟨stream, Compose.defaultHandles, [], #[]⟩
  ((Compose.root (3 * stream.tokens.length + 10)).run start).map fun (root, s) => (root, s.nodes)

end ModuleCatalog.Yaml
