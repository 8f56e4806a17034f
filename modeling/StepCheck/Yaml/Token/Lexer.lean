import StepCheck.Yaml.Token.Basic
import StepCheck.Yaml.Token.Block
import StepCheck.Yaml.Token.Quoted
import StepCheck.Yaml.Token.Tag
import StepCheck.Yaml.Token.Unquoted

/-!
# Cutting a document into tokens

A key without question mark is known as such only when its colon is reached. So wherever a key may
begin, its place is kept as a **candidate**, and the tokens that a key needs in front are put there
later. A candidate must be on one line and no longer than 1024 code points.

* `Lexer` — what is known at a place of the document;
* `Lexer.next` — one more token;
* `Token.scan` — the tokens of a document.
-/

namespace StepCheck.Yaml

/-- **A place where a key may begin.** -/
structure Candidate where
  /-- The number of tokens before it. -/
  number : Nat
  /-- Whether there must be a key, since a line begins in the column of its block. -/
  isRequired : Bool
  index : Nat
  line : Nat
  column : Nat

/-- **What is known at a place** of the document. -/
structure Lexer where
  cursor : Cursor
  /-- The tokens before the place, the latest first. -/
  tokens : List Token
  /-- The number of these tokens. -/
  count : Nat
  /-- The number of brackets that are open. -/
  depth : Nat
  /-- The column of the block around the place, -1 outside all blocks. -/
  indent : Int
  /-- The columns of the blocks around that block, from the inside out. -/
  outer : List Int
  /-- Whether a key without question mark may begin at the place. -/
  allowsKey : Bool
  /-- The candidates, with the number of brackets around each. -/
  candidates : List (Nat × Candidate)

namespace Lexer

/-- Longest distance of a colon from the beginning of its key. -/
def longestKey : Nat := 1024

/-- The beginning of a document. -/
def start (t : Text) : Lexer := ⟨.start t, [], 0, 0, -1, [], true, []⟩

/-- The text from the place on. -/
def rest (l : Lexer) : Text := l.cursor.rest

/-- The column of the place. -/
def column (l : Lexer) : Nat := l.cursor.column

/-- One more token. -/
def push (l : Lexer) (t : Token) : Lexer :=
  { l with tokens := t :: l.tokens, count := l.count + 1 }

/-- Tokens put in behind the first `number` ones. -/
def insert (l : Lexer) (number : Nat) (ts : List Token) : Lexer :=
  -- the tokens are kept in reverse, so the later ones come first
  let later := l.tokens.take (l.count - number)
  { l with
    tokens := later ++ ts.reverse ++ l.tokens.drop (l.count - number)
    count := l.count + ts.length }

/-- The place `n` code points further on. -/
def advance (l : Lexer) (n : Nat) : Lexer := { l with cursor := l.cursor.advance n }

/-- Whether the place is outside all brackets. -/
def inBlock (l : Lexer) : Bool := l.depth == 0

/-! ### Candidates -/

/-- The candidate within the innermost brackets. -/
def candidate? (l : Lexer) : Option Candidate := l.candidates.lookup l.depth

/-- The candidate within the innermost brackets is dropped. -/
def forget (l : Lexer) : Lexer :=
  { l with candidates := l.candidates.filter fun (depth, _) => depth != l.depth }

/-- The candidate within the innermost brackets is dropped, unless there must be a key. -/
def giveUp (l : Lexer) : Except Failure Lexer :=
  match l.candidate? with
  | some k => if k.isRequired then .error .malformed else .ok l.forget
  | none => .ok l

/-- Whether a candidate is too far away to be a key. -/
def isStale (l : Lexer) (k : Candidate) : Bool :=
  k.line != l.cursor.line || k.index + longestKey < l.cursor.index

/-- Candidates that are too far away are dropped. -/
def dropStale (l : Lexer) : Except Failure Lexer :=
  if l.candidates.any fun (_, k) => l.isStale k && k.isRequired then .error .malformed
  else .ok { l with candidates := l.candidates.filter fun (_, k) => !l.isStale k }

/-- The place becomes a candidate if a key may begin there. -/
def mark (l : Lexer) : Except Failure Lexer :=
  if l.allowsKey then do
    -- an earlier candidate within the same brackets is no key any more
    let l ← l.giveUp
    let k : Candidate :=
      { number := l.count
        isRequired := l.inBlock && l.indent == l.column
        index := l.cursor.index
        line := l.cursor.line
        column := l.column }
    return { l with candidates := (l.depth, k) :: l.candidates }
  else return l

/-! ### Blocks -/

/-- Blocks that begin to the right of a column end. -/
def closeBlocks (column : Int) (l : Lexer) : Lexer :=
  if l.inBlock then close l l.outer else l
where
  /-- The blocks end one by one. -/
  close (l : Lexer) : List Int → Lexer
    | [] => l
    | indent :: outer =>
      if column < l.indent then close ({ l with indent, outer }.push .blockEnd) outer else l

/-- A block may begin at a column: whether it does. -/
def openBlock (l : Lexer) (column : Nat) : Lexer × Bool :=
  if l.indent < column then ({ l with indent := column, outer := l.indent :: l.outer }, true)
  else (l, false)

/-- A block begins at the place, unless it is there already or the place is within brackets. -/
def openHere (l : Lexer) (t : Token) : Lexer :=
  if l.inBlock then
    let (l, isNew) := l.openBlock l.column
    if isNew then l.push t else l
  else l

/-! ### Tokens -/

/-- The place behind blanks, line breaks and comments. A line break outside brackets allows for a
key; `skip` is the number of code points that have been passed. -/
def skipBlanks (inComment : Bool) (l : Lexer) : Text → Lexer
  | [] => l
  | c :: t =>
    if isBreak c then
      let l := l.advance 1
      skipBlanks false (if l.inBlock then { l with allowsKey := true } else l) t
    else if inComment then skipBlanks true (l.advance 1) t
    else if c = ' ' then skipBlanks false (l.advance 1) t
    else if c = '#' then skipBlanks true (l.advance 1) t
    else l

/-- The place where the next token begins. -/
def toNext (l : Lexer) : Lexer :=
  let l :=
    if l.cursor.index = 0 ∧ (l.rest.head?.map CodePoint.val) = some Cursor.byteOrderMark then
      l.advance 1
    else l
  l.skipBlanks false l.rest

/-- The end of the document. -/
def finish (l : Lexer) : Except Failure Lexer := do
  let l ← (l.closeBlocks (-1)).giveUp
  return l.push .streamEnd

/-- A directive. -/
def directive (l : Lexer) : Except Failure Lexer := do
  let l ← (l.closeBlocks (-1)).giveUp
  let (d, length) ← Name.directive l.rest
  -- a directive goes on to the end of its line, so no key begins behind it
  return ({ l with allowsKey := false }.advance length).push (.directive d)

/-- A mark between documents. -/
def documentMark (t : Token) (l : Lexer) : Except Failure Lexer := do
  let l ← (l.closeBlocks (-1)).giveUp
  return ({ l with allowsKey := false }.advance 3).push t

/-- A bracket that opens. -/
def open_ (t : Token) (l : Lexer) : Except Failure Lexer := do
  let l ← l.mark
  return ({ l with depth := l.depth + 1, allowsKey := true }.advance 1).push t

/-- A bracket that closes. -/
def close_ (t : Token) (l : Lexer) : Except Failure Lexer := do
  let l ← l.giveUp
  -- an unmatched bracket is found out only when the tokens are put together
  return ({ l with depth := l.depth - 1, allowsKey := false }.advance 1).push t

/-- A comma. -/
def comma (l : Lexer) : Except Failure Lexer := do
  let l ← l.giveUp
  return ({ l with allowsKey := true }.advance 1).push .comma

/-- A hyphen before an item. -/
def entry (l : Lexer) : Except Failure Lexer := do
  if l.inBlock ∧ !l.allowsKey then throw .malformed
  let l ← (l.openHere .sequenceStart).giveUp
  return ({ l with allowsKey := true }.advance 1).push .entry

/-- A question mark before a key. -/
def key (l : Lexer) : Except Failure Lexer := do
  if l.inBlock ∧ !l.allowsKey then throw .malformed
  let l ← (l.openHere .mappingStart).giveUp
  return ({ l with allowsKey := l.inBlock }.advance 1).push .key

/-- A colon before a value. If there is a candidate, the key begins there. -/
def colon (l : Lexer) : Except Failure Lexer := do
  match l.candidate? with
  | some k =>
    let l := l.forget
    let (l, isNew) := if l.inBlock then l.openBlock k.column else (l, false)
    -- the tokens of the key, and of a block that it begins, belong where the candidate stands
    let l := l.insert k.number (if isNew then [.mappingStart, .key] else [.key])
    return ({ l with allowsKey := false }.advance 1).push .colon
  | none =>
    -- a value without key, or behind a question mark
    if l.inBlock ∧ !l.allowsKey then throw .malformed
    let l := l.openHere .mappingStart
    let l ← { l with allowsKey := l.inBlock }.giveUp
    return (l.advance 1).push .colon

/-- An alias or an anchor. -/
def named (make : Text → Token) (l : Lexer) : Except Failure Lexer := do
  let l ← l.mark
  let name ← Name.anchor (l.rest.drop 1)
  return ({ l with allowsKey := false }.advance (name.length + 1)).push (make name)

/-- A tag. -/
def tag (l : Lexer) : Except Failure Lexer := do
  let l ← l.mark
  let (t, length) ← Name.tag l.rest
  return ({ l with allowsKey := false }.advance length).push t

/-- A block scalar. -/
def blockScalar (isFolded : Bool) (l : Lexer) : Except Failure Lexer := do
  -- the scalar ends with a line, so a key may begin behind it
  let l ← { l with allowsKey := true }.giveUp
  let r ← Block.read isFolded l.indent (l.rest.drop 1)
  return (l.advance (r.length + 1)).push (.scalar false r.value)

/-- A quoted scalar. -/
def quoted (quote : CodePoint) (l : Lexer) : Except Failure Lexer := do
  let l ← l.mark
  let p ← Quoted.read quote (l.rest.drop 1)
  return ({ l with allowsKey := false }.advance (p.length + 1)).push (.scalar false p.value)

/-- A plain scalar. A line break behind it allows for a key. -/
def plain (l : Lexer) : Except Failure Lexer := do
  let l ← l.mark
  let r := Unquoted.read ⟨!l.inBlock, l.indent + 1⟩ l.rest
  return ({ l with allowsKey := r.breaksLine }.advance r.length).push (.scalar true r.value)

/-- Indicators with which no plain scalar begins. -/
def indicators : Text := "-?:,[]\x7b\x7d#&*!|>'\"%@`"

/-- Whether a plain scalar can begin with the first character of a text. -/
def startsPlain (inBlock : Bool) : Text → Bool
  | [] => false
  | c :: t =>
    (!isSeparator c && !indicators.contains c)
      || (!Style.endsHere t && (c = '-' || (inBlock && (c = '?' || c = ':'))))

/-- **One more token**, and whether it is the last; the place is where it begins. -/
def token (l : Lexer) : Except Failure Lexer :=
  match l.rest with
  | [] => l.finish
  | c :: t =>
    let atLineStart := l.column == 0
    if c = '%' ∧ atLineStart then l.directive
    else if c = '-' ∧ atLineStart ∧ isDocumentMarker l.rest then l.documentMark .documentStart
    else if c = '.' ∧ atLineStart ∧ isDocumentMarker l.rest then l.documentMark .documentEnd
    else if c = '[' then l.open_ .openBracket
    else if c.val = 0x7B then l.open_ .openBrace
    else if c = ']' then l.close_ .closeBracket
    else if c.val = 0x7D then l.close_ .closeBrace
    else if c = ',' then l.comma
    -- indicators that count only before a blank, unless the place is within brackets
    else if c = '-' ∧ Style.endsHere t then l.entry
    else if c = '?' ∧ (!l.inBlock ∨ Style.endsHere t) then l.key
    else if c = ':' ∧ (!l.inBlock ∨ Style.endsHere t) then l.colon
    else if c = '*' then l.named .alias
    else if c = '&' then l.named .anchor
    else if c = '!' then l.tag
    else if c = '|' ∧ l.inBlock then l.blockScalar false
    else if c = '>' ∧ l.inBlock then l.blockScalar true
    else if c = CodePoint.ofChar '\'' ∨ c = '"' then l.quoted c
    else if startsPlain l.inBlock l.rest then l.plain
    else .error .malformed

/-- **The next token.** -/
def next (l : Lexer) : Except Failure Lexer := do
  -- candidates are given up before blocks are closed
  let l ← l.toNext.dropStale
  (l.closeBlocks l.column).token

/-- The tokens of the rest of the document, at most `most` of them, behind those that are there. -/
def run : (most : Nat) → Lexer → List Token
  -- never reached, as every token but the last takes up a character
  | 0, l => (Token.stop .malformed :: l.tokens).reverse
  | most + 1, l =>
    match l.next with
    | .error f => (Token.stop f :: l.tokens).reverse
    | .ok next =>
      if next.tokens.head? = some .streamEnd then next.tokens.reverse else run most next

end Lexer

/-- **The tokens of a document.** Each takes up a character at least, but for the last. -/
def Token.scan (t : Text) : List Token := (Lexer.start t).run (t.length + 2)

end StepCheck.Yaml
