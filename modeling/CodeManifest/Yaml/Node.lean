import CodeManifest.Yaml.Token

namespace CodeManifest.Yaml

/-- A node with its tag, if it has one. A scalar that is plain gets its type from its text. -/
inductive Node where
  | scalar (tag : Option Text) (isPlain : Bool) (text : Text)
  | sequence (tag : Option Text) (items : List Node)
  | mapping (tag : Option Text) (entries : List (Node × Node))
  deriving Inhabited

namespace Node

/-- Nothing at all. -/
def empty : Node := .scalar none true []

end Node

/-- Tokens in the middle of being read, with the nodes of the anchors so far. -/
structure Composer where
  rest : List Token
  anchors : Keyed Text Node := []

abbrev Compose := StateT Composer (Except Defect)

namespace Compose

/-- The handles that every document knows. -/
def standardHandles : Keyed Text Text := [(['!'], ['!']), (['!', '!'], "tag:yaml.org,2002:")]

def malformed {α : Type} : Compose α := fun _ => .error .malformed

def require (b : Bool) : Compose Unit := if b then pure () else malformed

def peek : Compose (Option Token) := do return (← get).rest.head?

def advance : Compose Unit := modify fun c => { c with rest := c.rest.tail }

/-- Takes the token `t`, if it stands here. -/
def takes (t : Token) : Compose Bool := do
  if (← peek) = some t then
    advance
    return true
  else return false

/-- Does one of these tokens stand here? The end of all tokens counts as none. -/
def isAt (ts : List Token) : Compose Bool := do return (← peek).any ts.contains

/-- Gives the next node a name, which must be a new one. -/
def bind (anchor : Option Text) (n : Node) : Compose Node := do
  match anchor with
  | none => return n
  | some a =>
    let c ← get
    require (Keyed.get? a c.anchors).isNone
    set { c with anchors := c.anchors.put a n }
    return n

/-- What stands in front of a node: an anchor and a tag, in any order. -/
structure Properties where
  anchor : Option Text := none
  tag : Option Text := none

/-- The tag that a handle with an end makes. -/
def tagOf (handles : Keyed Text Text) (handle : Option Text) (ending : Text) : Compose Text := do
  match handle with
  | none => return ending
  | some h =>
    match Keyed.get? h handles with
    | some start => return start ++ ending
    | none => malformed

def tagHere (handles : Keyed Text Text) : Compose (Option Text) := do
  match ← peek with
  | some (.tag h e) => advance; return some (← tagOf handles h e)
  | _ => return none

def anchorHere : Compose (Option Text) := do
  match ← peek with
  | some (.anchor a) => advance; return some a
  | _ => return none

def properties (handles : Keyed Text Text) : Compose Properties := do
  match ← anchorHere with
  | some a => return ⟨some a, ← tagHere handles⟩
  | none =>
    match ← tagHere handles with
    | some t => return ⟨← anchorHere, some t⟩
    | none => return {}

/-- A scalar under a tag. The tag of one exclamation mark makes any text a plain one. -/
def scalar (tag : Option Text) (isPlain : Bool) (t : Text) : Node :=
  if tag = some ['!'] then .scalar none true t else .scalar tag isPlain t

/-- A tag of one exclamation mark says nothing on a collection. -/
def collectionTag (tag : Option Text) : Option Text := tag.filter (· ≠ ['!'])

/-- Where a node stands. -/
inductive Place where
  | flow
  | block
  /-- where a sequence need not be indented -/
  | entry
  deriving DecidableEq

mutual

/-- A node. `fuel` bounds how many readers are nested. -/
def node (handles : Keyed Text Text) : Nat → Place → Compose Node
  | 0, _ => malformed
  | fuel + 1, place => do
    match ← peek with
    | some (.alias a) =>
      advance
      match Keyed.get? a (← get).anchors with
      | some n => return n
      | none => malformed
    | _ =>
      let p ← properties handles
      let tag := collectionTag p.tag
      match ← peek with
      | some (.scalar t isPlain) =>
        advance
        bind p.anchor (scalar p.tag isPlain t)
      | some .flowSequence =>
        advance
        bind p.anchor (.sequence tag (← flowItems handles fuel true))
      | some .flowMapping =>
        advance
        bind p.anchor (.mapping tag (← flowEntries handles fuel true))
      | t =>
        if t = some .blockEntry && place = .entry then
          bind p.anchor (.sequence tag (← looseItems handles fuel))
        else if t = some .blockSequence && place ≠ .flow then
          advance
          bind p.anchor (.sequence tag (← blockItems handles fuel))
        else if t = some .blockMapping && place ≠ .flow then
          advance
          bind p.anchor (.mapping tag (← blockEntries handles fuel))
        else
          require (p.anchor.isSome || p.tag.isSome)
          bind p.anchor (scalar p.tag true [])

/-- A node, or nothing in front of one of the tokens `stops`. -/
def nodeBefore (handles : Keyed Text Text) : Nat → Place → List Token → Compose Node
  | 0, _, _ => malformed
  | fuel + 1, place, stops => do
    if ← isAt stops then return .empty else node handles fuel place

/-- The items of a block up to its end. -/
def blockItems (handles : Keyed Text Text) : Nat → Compose (List Node)
  | 0 => malformed
  | fuel + 1 => do
    if ← takes .blockEntry then
      let n ← nodeBefore handles fuel .block [.blockEntry, .blockEnd]
      return n :: (← blockItems handles fuel)
    else
      require (← takes .blockEnd)
      return []

/-- The items of a sequence that is not indented. -/
def looseItems (handles : Keyed Text Text) : Nat → Compose (List Node)
  | 0 => malformed
  | fuel + 1 => do
    if ← takes .blockEntry then
      let n ← nodeBefore handles fuel .block [.blockEntry, .key, .value, .blockEnd]
      return n :: (← looseItems handles fuel)
    else return []

/-- The entries of a block up to its end. -/
def blockEntries (handles : Keyed Text Text) : Nat → Compose (List (Node × Node))
  | 0 => malformed
  | fuel + 1 => do
    if ← takes .key then
      let k ← nodeBefore handles fuel .entry [.key, .value, .blockEnd]
      let v ←
        if ← takes .value then nodeBefore handles fuel .entry [.key, .value, .blockEnd]
        else pure .empty
      return (k, v) :: (← blockEntries handles fuel)
    else
      require (← takes .blockEnd)
      return []

/-- The items between square brackets. A key among them is a mapping of one entry. -/
def flowItems (handles : Keyed Text Text) : Nat → Bool → Compose (List Node)
  | 0, _ => malformed
  | fuel + 1, first => do
    if ← takes .flowSequenceEnd then return []
    if !first then require (← takes .flowEntry)
    if ← takes .key then
      let k ← nodeBefore handles fuel .flow [.value, .flowEntry, .flowSequenceEnd]
      let v ←
        if ← takes .value then nodeBefore handles fuel .flow [.flowEntry, .flowSequenceEnd]
        else pure .empty
      return .mapping none [(k, v)] :: (← flowItems handles fuel false)
    else if ← takes .flowSequenceEnd then return []
    else
      let n ← node handles fuel .flow
      return n :: (← flowItems handles fuel false)

/-- The entries between braces. -/
def flowEntries (handles : Keyed Text Text) : Nat → Bool → Compose (List (Node × Node))
  | 0, _ => malformed
  | fuel + 1, first => do
    if ← takes .flowMappingEnd then return []
    if !first then require (← takes .flowEntry)
    if ← takes .key then
      let k ← nodeBefore handles fuel .flow [.value, .flowEntry, .flowMappingEnd]
      let v ←
        if ← takes .value then nodeBefore handles fuel .flow [.flowEntry, .flowMappingEnd]
        else pure .empty
      return (k, v) :: (← flowEntries handles fuel false)
    else if ← takes .flowMappingEnd then return []
    else
      let k ← node handles fuel .flow
      return (k, .empty) :: (← flowEntries handles fuel false)

end

/-- The handles that the directives in front of a document add, and whether they tell the version. -/
def directives : Nat → Keyed Text Text → Bool → Compose (Keyed Text Text)
  | 0, _, _ => malformed
  | fuel + 1, handles, versioned => do
    match ← peek with
    | some (.directive d) =>
      advance
      match d with
      | .version major =>
        require (!versioned && major = 1)
        directives fuel handles true
      | .tag h start =>
        require (Keyed.get? h handles).isNone
        directives fuel (handles.put h start) versioned
      | .other => directives fuel handles versioned
    | _ => return handles

def isDirective : Token → Bool
  | .directive _ => true
  | _ => false

/-- Takes the marks of the ends of documents. -/
def documentEnds : Nat → Compose Unit
  | 0 => pure ()
  | fuel + 1 => do if ← takes .documentEnd then documentEnds fuel

/-- The one document of a text, if there is one. Only the first document may do without a mark. -/
def document : Compose (Option Node) := do
  let size := (← get).rest.length
  let fuel := 3 * (size + 1)
  let start ← peek
  let n ←
    if start.isNone then pure none
    else if start.any fun t => isDirective t || t = .documentStart then do
      let declared ← directives fuel [] false
      let handles := declared ++ standardHandles.filter fun e => (Keyed.get? e.1 declared).isNone
      require (← takes .documentStart)
      let here ← peek
      if here.all fun t => isDirective t || t = .documentStart || t = .documentEnd then
        pure (some Node.empty)
      else pure (some (← node handles fuel .block))
    else pure (some (← node standardHandles fuel .block))
  documentEnds (size + 1)
  require (← peek).isNone
  return n

end Compose

/-- The node of the document that a text holds, if it holds one. -/
def Node.ofText (t : Text) : Except Defect (Option Node) := do
  let tokens ← Token.ofText t
  let (n, _) ← Compose.document { rest := tokens }
  return n

end CodeManifest.Yaml
