import ModuleCatalog.Yaml.Value.Scalar

/-!
# From nodes to values

Values are made from the root on, level by level: the parts of a collection are made after all
collections that were met before it. A mapping takes over the entries of the mappings it merges, in
front of its own; among several of them the entries of the first win. Collections are no keys.
-/

namespace ModuleCatalog.Yaml

/-- The nodes, the collections still to be filled and the filled ones. -/
structure Builder where
  nodes : Nodes
  seen : List NodeId
  waiting : List NodeId
  filled : List (NodeId × Collection)

abbrev Build (α : Type) := StateT Builder (Except Problem) α

namespace Build

def fail {α : Type} : Build α := throw .malformed

def node (id : NodeId) : Build Node := do
  match (← get).nodes[id]? with
  | some node => pure node
  | none => fail

def setNode (id : NodeId) (node : Node) : Build Unit :=
  modify fun s => { s with nodes := s.nodes.setIfInBounds id node }

/-- The text of a node for a scalar tag: a mapping stands for the value under its equals sign. The
first argument bounds the number of such mappings. -/
def scalarText : Nat → NodeId → Build Text
  | 0, _ => fail
  | fuel + 1, id => do
    match (← node id).content with
    | .scalar value => pure value
    | .sequence _ => fail
    | .mapping entries =>
      let nodes := (← get).nodes
      match entries.find? fun (key, _) => (nodes[key]?.map (·.tag)) = some .value with
      | some (_, value) => scalarText fuel value
      | none => fail

/-- The value of a scalar of a tag. -/
def scalar (id : NodeId) (make : Text → Except Problem Value) : Build Value := do
  let text ← scalarText ((← get).nodes.size + 1) id
  make text

def isScalar (content : Content) : Bool :=
  match content with
  | .scalar _ => true
  | _ => false

/-- A date or time, which must not be hidden in a mapping. -/
def timestamp (id : NodeId) : Build Value := do
  let text ← scalarText ((← get).nodes.size + 1) id
  if isScalar (← node id).content then Scalar.timestamp text else throw .timestampNotText

/-- The value of a node; collections are put in line to be filled when they are first met. -/
def value (id : NodeId) : Build Value := do
  let node ← node id
  match node.tag with
  | .null => scalar id fun _ => .ok .null
  | .boolean => scalar id Scalar.boolean
  | .integer => scalar id Scalar.integer
  | .float => scalar id Scalar.float
  | .text => scalar id fun t => .ok (.text t)
  | .binary => scalar id Scalar.binary
  | .timestamp => timestamp id
  | .sequence | .mapping | .set | .orderedMapping | .pairs =>
    modify fun s =>
      if s.seen.contains id then s
      else { s with seen := id :: s.seen, waiting := s.waiting ++ [id] }
    pure (.collection id)
  | .merge | .value | .other _ => fail

def entriesOf (content : Content) : Build (List (NodeId × NodeId)) :=
  match content with
  | .mapping entries => pure entries
  | _ => fail

/-- The entries of a mapping. -/
def entries (id : NodeId) : Build (List (NodeId × NodeId)) := do entriesOf (← node id).content

/-- The number of entries of all mappings. -/
def entryCount (nodes : Nodes) : Nat :=
  nodes.foldl (fun n node =>
    match node.content with
    | .mapping entries => n + entries.length
    | _ => n) 0

/-- More than the number of entries that merging can bring together in one mapping. -/
def entryLimit (nodes : Nodes) : Nat := (entryCount nodes + 1) * (entryCount nodes + 1)

mutual

/-- Take over the entries of all merged mappings, and make plain texts of keys that are an equals sign.
The first argument bounds the number of nested merges. -/
def merge : Nat → NodeId → Build Unit
  | 0, _ => fail
  | fuel + 1, id => do
    let merged ← mergeFrom fuel id (entryLimit (← get).nodes) 0 []
    let own ← entries id
    setNode id { (← node id) with content := .mapping (merged ++ own) }

/-- Go through the entries of a mapping from an index on, and collect what is merged. -/
def mergeFrom (fuel : Nat) (id : NodeId) : Nat → Nat → List (NodeId × NodeId) →
    Build (List (NodeId × NodeId))
  | 0, _, merged => pure merged
  | count + 1, index, merged => do
    match (← entries id)[index]? with
    | none => pure merged
    | some (key, source) =>
      let keyNode ← node key
      match keyNode.tag with
      | .merge =>
        setNode id { (← node id) with content := .mapping ((← entries id).eraseIdx index) }
        let more ← match (← node source).content with
          | .mapping _ => do
            mergeNested fuel source
            entries source
          | .sequence items => do
            let parts ← mergeAll fuel items
            pure parts.reverse.flatten
          | .scalar _ => fail
        mergeFrom fuel id count index (merged ++ more)
      | .value =>
        setNode key { keyNode with tag := .text }
        mergeFrom fuel id count (index + 1) merged
      | _ => mergeFrom fuel id count (index + 1) merged

/-- The entries of each of several mappings. -/
def mergeAll (fuel : Nat) : List NodeId → Build (List (List (NodeId × NodeId)))
  | [] => pure []
  | id :: ids => do
    let _ ← entries id
    mergeNested fuel id
    let part ← entries id
    let parts ← mergeAll fuel ids
    pure (part :: parts)

/-- The same one level further down. -/
def mergeNested : Nat → NodeId → Build Unit
  | 0, _ => fail
  | fuel + 1, id => merge fuel id

end

/-- The entries of a mapping with all merges done, as values. A collection is no key. -/
def filledEntries (id : NodeId) : Build (List (Value × Value)) := do
  let _ ← entries id
  merge (2 * entryCount (← get).nodes + 4) id
  (← entries id).mapM fun (key, item) => do
    match ← value key with
    | .collection _ => fail
    | key => pure (key, ← value item)

/-- The only entry of a mapping in a list of pairs. -/
def pair (id : NodeId) : Build (Value × Value) := do
  match ← entries id with
  | [(key, item)] => do
    let key ← value key
    pure (key, ← value item)
  | _ => fail

def itemsOf (content : Content) : Build (List NodeId) :=
  match content with
  | .sequence items => pure items
  | _ => fail

/-- Make the parts of a collection. -/
def fill (id : NodeId) : Build Unit := do
  let node ← node id
  let collection ← match node.tag with
    | .sequence => do pure (Collection.sequence (← (← itemsOf node.content).mapM value))
    | .mapping => do pure (Collection.mapping (← filledEntries id))
    | .set => do pure (Collection.set ((← filledEntries id).map (·.1)))
    | .orderedMapping | .pairs => do
      pure (Collection.pairs (← (← itemsOf node.content).mapM pair))
    | _ => fail
  modify fun s => { s with filled := s.filled ++ [(id, collection)] }

/-- Fill the collections in line. The first argument bounds their number. -/
def fillAll : Nat → Build Unit
  | 0 => pure ()
  | fuel + 1 => do
    match (← get).waiting with
    | [] => pure ()
    | id :: rest =>
      modify fun s => { s with waiting := rest }
      fill id
      fillAll fuel

end Build

/-- The document that a text holds; a text without any holds null. -/
def Document.parse (t : Text) : Except Problem Document := do
  match ← Nodes.ofText t with
  | (none, _) => .ok ⟨.null, []⟩
  | (some root, nodes) =>
    let make : Build Value := do
      let root ← Build.value root
      Build.fillAll (nodes.size + 1)
      pure root
    let (root, s) ← make.run ⟨nodes, [], [], []⟩
    .ok ⟨root, s.filled⟩

end ModuleCatalog.Yaml
