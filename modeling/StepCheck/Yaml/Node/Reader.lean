import StepCheck.Yaml.Node.Basic
import StepCheck.Yaml.Token.Basic

/-!
# Nodes from tokens

The tokens of a document are put together to its tree. A node may carry a name, and an alias stands
for the node of its name, also within that node.

* `NodeReader.node` — one node;
* `Node.ofTokens` — the node of a whole stream, which must not hold a second document.
-/

namespace StepCheck.Yaml

/-- **What is known between two tokens.** -/
structure NodeReader where
  tokens : List Token
  /-- The nodes that have names. -/
  anchors : List (Text × Node)
  /-- What the handles of tags stand for. -/
  handles : List (Text × Text)

/-- Reading that may fail. -/
abbrev Reading (α : Type) : Type := StateT NodeReader (Except Failure) α

namespace NodeReader

/-- Handles that are there without directives. -/
def standardHandles : List (Text × Text) := [("!", "!"), ("!!", Tag.standard)]

/-- A stream that is no document. -/
def malformed {α : Type} : Reading α := throw .malformed

/-- The next token. -/
def peek : Reading Token := do
  match (← get).tokens with
  | [] => malformed
  | .stop f :: _ => throw f
  | t :: _ => return t

/-- The next token is passed. -/
def pass : Reading Unit := modify fun r => { r with tokens := r.tokens.drop 1 }

/-- The next token is passed if it is the given one: whether it is. -/
def passIf (t : Token) : Reading Bool := do
  if (← peek) = t then
    pass
    return true
  else return false

/-- The next token must be the given one. -/
def expect (t : Token) : Reading Unit := do
  if !(← passIf t) then malformed

/-- A scalar without characters, where no node is written. -/
def absent : Node := .scalar (.plain .null) []

/-! ### Names and tags -/

/-- A node gets a name, if there is one. -/
def name (anchor : Option Text) (n : Node) : Reading Unit := do
  match anchor with
  | none => return
  | some a => modify fun r => { r with anchors := (a, n) :: r.anchors.filter fun (b, _) => a ≠ b }

/-- A collection is begun. If it has a name, a place is kept for it within itself. -/
def enter (anchor : Option Text) : Reading Unit := do
  match anchor with
  | none => return
  | some a => name anchor (.scalar (.within a) [])

/-- **What stands before a node**: a name and a tag, in either order. -/
structure Properties where
  anchor : Option Text
  /-- The handle and the rest of the tag. -/
  tag : Option (Option Text × Text)

/-- What stands before a node. -/
def properties : Reading Properties := do
  match ← peek with
  | .anchor a =>
    pass
    match ← peek with
    | .tag handle suffix =>
      pass
      return ⟨some a, some (handle, suffix)⟩
    | _ => return ⟨some a, none⟩
  | .tag handle suffix =>
    pass
    match ← peek with
    | .anchor a =>
      pass
      return ⟨some a, some (handle, suffix)⟩
    | _ => return ⟨none, some (handle, suffix)⟩
  | _ => return ⟨none, none⟩

/-- The tag as written in full. -/
def fullTag : Option (Option Text × Text) → Reading (Option Text)
  | none => return none
  | some (none, suffix) => return some suffix
  | some (some handle, suffix) => do
    match (← get).handles.lookup handle with
    | some expansion => return some (expansion ++ suffix)
    | none => malformed

/-- Whether a tag says nothing. -/
def saysNothing (tag : Option Text) : Bool := tag.all (· = Text.ofString "!")

/-- The tag of a scalar. -/
def scalarTag (tag : Option Text) (isPlain : Bool) (value : Text) : Tag :=
  match tag with
  | none => if isPlain then .plain (Plain.kind value) else .plain .text
  | some t => if t = Text.ofString "!" then .plain (Plain.kind value) else Tag.named t

/-- The tag of a sequence or a mapping. -/
def collectionTag (tag : Option Text) (standard : Tag) : Tag :=
  if saysNothing tag then standard else (tag.map Tag.named).getD standard

/-! ### Nodes -/

/-- Where a node stands: whether it may be a block, and whether it may be a sequence whose items are
not indented. -/
structure Place where
  block : Bool
  flush : Bool

/-- Whether nothing is written for a node before one of these tokens. -/
def isAbsentBefore (ts : List Token) : Reading Bool := do return ts.contains (← peek)

mutual
/-- **A node.** -/
def node : (depth : Nat) → Place → Reading Node
  | 0, _ => malformed
  | depth + 1, place => do
    if let .alias a ← peek then
      pass
      match (← get).anchors.lookup a with
      | some n => return n
      | none => malformed
    else
      let p ← properties
      let tag ← fullTag p.tag
      -- a name cannot be given twice
      if let some a := p.anchor then
        if ((← get).anchors.lookup a).isSome then malformed
      let n ← content depth place p.anchor tag
      name p.anchor n
      return n

/-- A node behind its name and its tag. -/
def content : (depth : Nat) → Place → (anchor tag : Option Text) → Reading Node
  | 0, _, _, _ => malformed
  | depth + 1, place, anchor, tag => do
    let ofItems (items : Reading (List Node)) : Reading Node := do
      enter anchor
      return .sequence (collectionTag tag .sequence) (← items)
    let ofEntries (entries : Reading (List (Node × Node))) : Reading Node := do
      enter anchor
      return .mapping (collectionTag tag .mapping) (← entries)
    match ← peek with
    -- items flush with their key have no token that begins them
    | .entry =>
      if place.flush then ofItems (flushItems depth)
      else if anchor.isSome || tag.isSome then return .scalar (scalarTag tag true []) []
      else malformed
    | .scalar isPlain value =>
      pass
      return .scalar (scalarTag tag isPlain value) value
    | .openBracket =>
      pass
      ofItems (innerItems depth true)
    | .openBrace =>
      pass
      ofEntries (innerEntries depth true)
    | t =>
      if t = .sequenceStart ∧ place.block then
        pass
        ofItems (items depth)
      else if t = .mappingStart ∧ place.block then
        pass
        ofEntries (entries depth)
      else if anchor.isSome || tag.isSome then return .scalar (scalarTag tag true []) []
      else malformed

/-- The items of a block sequence up to its end. -/
def items : (depth : Nat) → Reading (List Node)
  | 0 => malformed
  | depth + 1 => do
    if ← passIf .entry then
      let n ←
        if ← isAbsentBefore [.entry, .blockEnd] then pure absent else node depth ⟨true, false⟩
      return n :: (← items depth)
    else
      expect .blockEnd
      return []

/-- The items of a block sequence that is not indented. -/
def flushItems : (depth : Nat) → Reading (List Node)
  | 0 => malformed
  | depth + 1 => do
    if ← passIf .entry then
      let n ←
        if ← isAbsentBefore [.entry, .key, .colon, .blockEnd] then pure absent
        else node depth ⟨true, false⟩
      return n :: (← flushItems depth)
    else return []

/-- The entries of a block mapping up to its end. -/
def entries : (depth : Nat) → Reading (List (Node × Node))
  | 0 => malformed
  | depth + 1 => do
    if ← passIf .key then
      let k ← part depth
      let v ← if ← passIf .colon then part depth else pure absent
      return (k, v) :: (← entries depth)
    else
      -- a value without key has no place in a block
      expect .blockEnd
      return []

/-- A key or a value of a block mapping. -/
def part : (depth : Nat) → Reading Node
  | 0 => malformed
  | depth + 1 => do
    if ← isAbsentBefore [.key, .colon, .blockEnd] then pure absent else node depth ⟨true, true⟩

/-- The items within brackets up to the closing one. -/
def innerItems : (depth : Nat) → (first : Bool) → Reading (List Node)
  | 0, _ => malformed
  | depth + 1, first => do
    if ← passIf .closeBracket then return []
    if !first then expect .comma
    if ← passIf .closeBracket then return []
    let n ←
      if ← passIf .key then do
        -- an entry within brackets is a mapping of its own
        let k ← innerPart depth [.colon, .comma, .closeBracket]
        let v ← if ← passIf .colon then innerPart depth [.comma, .closeBracket] else pure absent
        pure (Node.mapping .mapping [(k, v)])
      else node depth ⟨false, false⟩
    return n :: (← innerItems depth false)

/-- The entries within braces up to the closing one. -/
def innerEntries : (depth : Nat) → (first : Bool) → Reading (List (Node × Node))
  | 0, _ => malformed
  | depth + 1, first => do
    if ← passIf .closeBrace then return []
    if !first then expect .comma
    if ← passIf .closeBrace then return []
    let entry ←
      if ← passIf .key then do
        let k ← innerPart depth [.colon, .comma, .closeBrace]
        let v ← if ← passIf .colon then innerPart depth [.comma, .closeBrace] else pure absent
        pure (k, v)
      -- an entry without key mark is a key of its own
      else do pure (← node depth ⟨false, false⟩, absent)
    return entry :: (← innerEntries depth false)

/-- A key or a value within brackets or braces; nothing is written for it before one of the tokens
`ends`. -/
def innerPart : (depth : Nat) → (ends : List Token) → Reading Node
  | 0, _ => malformed
  | depth + 1, ends => do
    if ← isAbsentBefore ends then pure absent else node depth ⟨false, false⟩
end

/-! ### Documents -/

/-- The directives in front of a document: what the handles of tags stand for. -/
def directives (version : Bool) (handles : List (Text × Text)) :
    List Token → Except Failure (List (Text × Text) × List Token)
  | .directive (.version major _) :: ts =>
    if version ∨ major ≠ 1 then .error .malformed else directives true handles ts
  | .directive (.tag handle expansion) :: ts =>
    if (handles.lookup handle).isSome then .error .malformed
    else directives version ((handle, expansion) :: handles) ts
  | .directive .other :: ts => directives version handles ts
  | ts => .ok (handles ++ standardHandles, ts)

/-- Marks at the end of a document are passed. -/
def passEnds : Reading Unit :=
  modify fun r => { r with tokens := r.tokens.dropWhile (· = Token.documentEnd) }

/-- The node of a document with a mark at its beginning. -/
def marked (depth : Nat) : Reading Node := do
  let r ← get
  let (handles, tokens) ← directives false [] r.tokens
  set { r with handles, tokens }
  expect .documentStart
  match ← peek with
  -- nothing is written between two marks
  | .directive _ | .documentStart | .documentEnd | .streamEnd => return absent
  | _ => node depth ⟨true, false⟩

/-- The node of a stream, if it holds a document. -/
def stream (depth : Nat) : Reading (Option Node) := do
  let n ←
    match ← peek with
    | .streamEnd => return none
    | .directive _ | .documentStart => marked depth
    | _ => node depth ⟨true, false⟩
  passEnds
  expect .streamEnd
  return some n

end NodeReader

/-- How many levels of a value are looked at: a document, its parts, their fields, and the items of
these. -/
def Node.deepest : Nat := 4

/-- **The node of a stream**, if it holds a document. Of four nested calls of the readers
one passes a token at least. Without names nothing stands within itself. -/
def Node.ofTokens (ts : List Token) : Except Failure (Option Node) := do
  let (n, r) ←
    (NodeReader.stream (4 * ts.length + 4)).run ⟨ts, [], NodeReader.standardHandles⟩
  return if r.anchors.isEmpty then n else n.map (Node.unfolded r.anchors Node.deepest)

end StepCheck.Yaml
