import HollowNode.Yaml.Token

namespace HollowNode.Yaml

inductive Node
  | alias (id : Nat)
  | scalar (text : String) (style : Style) (tag : Option String)
  | seq (items : List Node)
  | map (fields : List (Node × Node))
deriving Inhabited, Repr

/-- A node with an anchor, and the number of nodes with anchors that start before it. -/
structure Anchored where
  id : Nat
  order : Nat
  node : Node
deriving Repr

structure Document where
  root : Node
  anchored : List Anchored
deriving Repr

/-- The node that an alias stands for: of all nodes with its number the one that starts last. -/
def Document.resolve? (d : Document) (id : Nat) : Option Node :=
  let candidates := d.anchored.filter (·.id = id)
  (candidates.find? fun a => candidates.all fun b => b.order ≤ a.order).map (·.node)

structure Source where
  tokens : List Token
  handles : List (String × String) := []
  names : List (String × Nat) := []
  started : Nat := 0
  anchored : List Anchored := []

abbrev Reading := StateT Source Option

namespace Reading

def peek : Reading (Option Token) := do return (← get).tokens.head?

def advance : Reading Unit := modify fun s => { s with tokens := s.tokens.drop 1 }

def emptyNode : Node := .scalar "" .plain none

def anchorNamed (name : String) : Reading (Nat × Nat) := do
  let s ← get
  let id := s.names.length
  let known := s.names.any (·.1 = name)
  let names := if known then s.names.map fun p => if p.1 = name then (name, id) else p
    else s.names ++ [(name, id)]
  set { s with names, started := s.started + 1 }
  return (id, s.started)

def aliasNamed (name : String) : Reading Node := do
  match (← get).names.find? (·.1 = name) with
  | some (_, id) => return .alias id
  | none => failure

def fullTag (handle suffix : String) : Reading String := do
  if handle.isEmpty then return suffix
  else
    match (← get).handles.find? (·.1 = handle) with
    | some (_, expansion) => return expansion ++ suffix
    | none => failure

def properties : Reading (Option String × Option String) := do
  let anchor? : Reading (Option String) := do
    match ← peek with
    | some (.anchor n) => advance; return some n
    | _ => return none
  let tag? : Reading (Option (String × String)) := do
    match ← peek with
    | some (.tag h s) => advance; return some (h, s)
    | _ => return none
  let first ← anchor?
  let tag ← tag?
  let anchor ← if first.isNone ∧ tag.isSome then anchor? else pure first
  match tag with
  | some (h, s) => return (anchor, some (← fullTag h s))
  | none => return (anchor, none)

def keep (place : Option (Nat × Nat)) (node : Node) : Reading Node := do
  match place with
  | some (id, order) => modify fun s => { s with anchored := ⟨id, order, node⟩ :: s.anchored }
  | none => pure ()
  return node

def isOneOf (t : Option Token) (ts : List Token) : Bool := t.any (· ∈ ts)

mutual

/-- A node; `block` allows blocks, and `indentless` allows a sequence in the column of its key. -/
def node (block indentless : Bool) : (room : Nat) → Reading Node
  | 0 => failure
  | room + 1 => do
    match ← peek with
    | some (.alias name) => advance; aliasNamed name
    | _ =>
      let (anchor, tag) ← properties
      let place ← anchor.mapM anchorNamed
      let t ← peek
      match t with
      | some (.scalar text style) => advance; keep place (.scalar text style tag)
      | some .flowSequence => advance; keep place (.seq (← flowItems true room))
      | some .flowMapping => advance; keep place (.map (← flowFields true room))
      | _ =>
        if indentless ∧ t = some .blockEntry then keep place (.seq (← indentlessItems room))
        else if block ∧ t = some .blockSequence then do
          advance; keep place (.seq (← blockItems room))
        else if block ∧ t = some .blockMapping then do
          advance; keep place (.map (← blockFields room))
        else if anchor.isSome ∨ tag.isSome then keep place (.scalar "" .plain tag)
        else failure

def nodeUnless (stops : List Token) (block indentless : Bool) : (room : Nat) → Reading Node
  | 0 => failure
  | room + 1 => do
    if isOneOf (← peek) stops then return emptyNode else node block indentless room

def blockItems : (room : Nat) → Reading (List Node)
  | 0 => failure
  | room + 1 => do
    match ← peek with
    | some .blockEntry =>
      advance
      let item ← nodeUnless [.blockEntry, .blockEnd] true false room
      return item :: (← blockItems room)
    | some .blockEnd => advance; return []
    | _ => failure

def indentlessItems : (room : Nat) → Reading (List Node)
  | 0 => failure
  | room + 1 => do
    match ← peek with
    | some .blockEntry =>
      advance
      let item ← nodeUnless [.blockEntry, .key, .value, .blockEnd] true false room
      return item :: (← indentlessItems room)
    | _ => return []

def blockFields : (room : Nat) → Reading (List (Node × Node))
  | 0 => failure
  | room + 1 => do
    match ← peek with
    | some .key =>
      advance
      let key ← nodeUnless [.key, .value, .blockEnd] true true room
      let value ← blockValue room
      return (key, value) :: (← blockFields room)
    | some .blockEnd => advance; return []
    | _ => failure

def blockValue : (room : Nat) → Reading Node
  | 0 => failure
  | room + 1 => do
    match ← peek with
    | some .value => advance; nodeUnless [.key, .value, .blockEnd] true true room
    | _ => return emptyNode

/-- The entries of a sequence in brackets, the comma before them included. A key there makes a
mapping of one field. -/
def flowItems (first : Bool) : (room : Nat) → Reading (List Node)
  | 0 => failure
  | room + 1 => do
    match ← peek with
    | some .flowSequenceEnd => advance; return []
    | t =>
      if !first then if t = some .flowEntry then advance else failure
      match ← peek with
      | some .flowSequenceEnd => advance; return []
      | some .key =>
        advance
        let key ← if isOneOf (← peek) [.value, .flowEntry, .flowSequenceEnd] then do
            advance
            pure emptyNode
          else node false false room
        let value ← flowValue .flowSequenceEnd room
        return .map [(key, value)] :: (← flowItems false room)
      | _ =>
        let item ← node false false room
        return item :: (← flowItems false room)

def flowFields (first : Bool) : (room : Nat) → Reading (List (Node × Node))
  | 0 => failure
  | room + 1 => do
    match ← peek with
    | some .flowMappingEnd => advance; return []
    | t =>
      if !first then if t = some .flowEntry then advance else failure
      match ← peek with
      | some .flowMappingEnd => advance; return []
      | some .key =>
        advance
        let key ← nodeUnless [.value, .flowEntry, .flowMappingEnd] false false room
        let value ← flowValue .flowMappingEnd room
        return (key, value) :: (← flowFields false room)
      | _ =>
        let key ← node false false room
        return (key, emptyNode) :: (← flowFields false room)

def flowValue (close : Token) : (room : Nat) → Reading Node
  | 0 => failure
  | room + 1 => do
    match ← peek with
    | some .value => advance; nodeUnless [.flowEntry, close] false false room
    | _ => return emptyNode

end

def directives : (room : Nat) → (versionSeen : Bool) → Reading Unit
  | 0, _ => failure
  | room + 1, versionSeen => do
    match ← peek with
    | some (.version major minor) =>
      if versionSeen ∨ major ≠ 1 ∨ (minor ≠ 1 ∧ minor ≠ 2) then failure
      else do
        advance
        directives room true
    | some (.tagHandle handle expansion) =>
      if (← get).handles.any (·.1 = handle) then failure
      else do
        modify fun s => { s with handles := s.handles ++ [(handle, expansion)] }
        advance
        directives room versionSeen
    | _ => return ()

def standardHandles : List (String × String) := [("!", "!"), ("!!", "tag:yaml.org,2002:")]

def isDirective : Option Token → Bool
  | some (.version ..) | some (.tagHandle ..) => true
  | _ => false

def document (room : Nat) (first : Bool) : Reading Document := do
  modify fun s => { s with handles := [], names := [], started := 0, anchored := [] }
  let t ← peek
  let root ←
    if first ∧ !isDirective t ∧ t ≠ some .documentStart then do
      modify fun s => { s with handles := standardHandles }
      node true false room
    else do
      directives room false
      modify fun s => { s with handles := s.handles ++ standardHandles }
      if (← peek) ≠ some .documentStart then failure
      advance
      let t ← peek
      if t.isNone ∨ isDirective t ∨ isOneOf t [.documentStart, .documentEnd] then pure emptyNode
      else node true false room
  if (← peek) = some .documentEnd then advance
  return ⟨root, (← get).anchored⟩

def skipEnds : (room : Nat) → Reading Unit
  | 0 => return ()
  | room + 1 => do
    if (← peek) = some .documentEnd then
      advance
      skipEnds room

def documents : (room : Nat) → (first : Bool) → Reading (List Document)
  | 0, _ => failure
  | room + 1, first => do
    if !first then skipEnds room
    if (← peek).isNone then return []
    else
      let d ← document (2 * room + 8) first
      return d :: (← documents room false)

end Reading

def Document.ofText? (s : String) : Option (List Document) := do
  let tokens ← Token.ofText? s
  let (documents, _) ← (Reading.documents (tokens.length + 1) true).run { tokens }
  return documents

end HollowNode.Yaml
