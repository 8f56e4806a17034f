import StepCheck.Text.Blank
import StepCheck.Text.Search

/-!
# Markup

Texts for the console are marked up: `[red]` begins a style and `[/red]`, or `[/]`, ends it. Where
no colours are shown the tags just vanish, but every closing tag still needs an open one. A tag
behind an odd number of backslashes stands for itself.

* `Markup.escape` — a text with what looks like tags marked as no tags;
* `Markup.pieces` — texts and tags;
* `Markup.shown` — what is seen of a marked-up text.
-/

namespace StepCheck

namespace Markup

/-- The backslash. -/
def backslash : CodePoint := CodePoint.ofChar '\\'

/-- The bracket that opens a tag. -/
def openBracket : CodePoint := CodePoint.ofChar '['

/-- The bracket that closes a tag. -/
def closeBracket : CodePoint := CodePoint.ofChar ']'

/-- Characters with which the inside of a tag begins. -/
def startsTag (c : CodePoint) : Bool :=
  c.isSmall || (Text.ofString "#/@").contains c

/-- The inside of the tag at the front of a text. -/
def tagInside? : Text → Option Text
  | bracket :: c :: t =>
    if bracket = openBracket ∧ startsTag c then
      let inside := t.takeWhile fun d => d ≠ openBracket && d ≠ closeBracket
      if (t.drop inside.length).head? = some closeBracket then some (c :: inside) else none
    else none
  | _ => none

/-- **What looks like a tag**, with the backslashes before it. -/
structure TagLike where
  backslashes : Nat
  inside : Text

/-- The tag at the front of a text, with the backslashes before it. -/
def tagMatcher : Text.Matcher TagLike := fun t =>
  let n := (t.takeWhile (· = backslash)).length
  match tagInside? (t.drop n) with
  | some inside => some (⟨n, inside⟩, n + inside.length + 2)
  | none => none

/-! ### Escaping -/

/-- A text with `n` backslashes before each tag doubled and one more. `skip` code points have been
copied. -/
def escapeFrom : (skip : Nat) → Text → Text
  | _, [] => []
  | skip + 1, c :: t => c :: escapeFrom skip t
  | 0, c :: t =>
    match tagMatcher (c :: t) with
    | some (tag, length) =>
      List.replicate (tag.backslashes + 1) backslash ++ c :: escapeFrom (length - 1) t
    | none => c :: escapeFrom 0 t

/-- **A text in which nothing counts as a tag.** A single backslash at the end is doubled, so that
it does not concern what follows. -/
def escape (t : Text) : Text :=
  -- this backslash would otherwise stand before whatever is printed next
  let e := escapeFrom 0 t
  if Text.endsWith e [backslash] ∧ !Text.endsWith e [backslash, backslash] then e ++ [backslash]
  else e

/-! ### Reading -/

/-- **A piece** of a marked-up text. -/
inductive Piece
  | text (t : Text)
  /-- The inside of a tag, and its place. -/
  | tag (inside : Text) (position : Nat)

/-- Text followed by other pieces. -/
def Piece.before (t : Text) (ps : List Piece) : List Piece :=
  if t.isEmpty then ps else .text t :: ps

/-- The pieces of the rest of a text, where `pending` has been read since the last tag, the latest
first, and `skip` code points belong to a tag. -/
def piecesFrom (position skip : Nat) (pending : Text) : Text → List Piece
  | [] => Piece.before pending.reverse []
  | c :: t =>
    match skip with
    | skip + 1 => piecesFrom (position + 1) skip pending t
    | 0 =>
      match tagMatcher (c :: t) with
      | none => piecesFrom (position + 1) 0 (c :: pending) t
      | some (tag, length) =>
        let half := List.replicate (tag.backslashes / 2) backslash
        let rest := piecesFrom (position + 1) (length - 1) [] t
        Piece.before pending.reverse <| Piece.before half <|
          -- of an odd number of backslashes the last one makes the tag a text
          if tag.backslashes % 2 = 1 then
            .text (openBracket :: tag.inside ++ [closeBracket]) :: rest
          else .tag tag.inside (position + 2 * half.length) :: rest

/-- **The pieces** of a marked-up text. -/
def pieces (t : Text) : List Piece := piecesFrom 0 0 [] t

/-! ### Tags -/

/-- **What is wrong** with the tags of a text. -/
inductive MarkupError
  /-- A closing tag for which there is no open one. -/
  | unopened (inside : Text) (position : Nat)
  /-- A closing tag without name where no tag is open. -/
  | nothingOpen (position : Nat)
deriving DecidableEq

/-- The text of an error. -/
def MarkupError.message : MarkupError → Text
  | unopened inside position =>
    "closing tag '[" ++ inside ++ "]' at position " ++ Text.ofNat position
      ++ " doesn't match any open tag"
  | nothingOpen position =>
    "closing tag '[/]' at position " ++ Text.ofNat position ++ " has nothing to close"

/-- Short names of styles, with the names they stand for. -/
def shortNames : List (String × String) :=
  [("b", "bold"), ("d", "dim"), ("i", "italic"), ("u", "underline"), ("uu", "underline2"),
    ("s", "strike"), ("r", "reverse"), ("c", "conceal"), ("o", "overline")]

/-- The name of a style by which an open tag and a closing one are compared. -/
def styleName (t : Text) : Text :=
  let name := Text.strip t |>.map fun c => if c.isCapital then CodePoint.ofNat (c.val + 0x20) else c
  match shortNames.find? fun (short, _) => Text.ofString short = name with
  | some (_, long) => long
  | none => name

/-- The name of a tag, without what is behind an equals sign. -/
def tagName (inside : Text) : Text := inside.takeWhile (· ≠ CodePoint.ofChar '=')

/-- The open tags without the last one of a name, if there is one; the latest are first. -/
def close? (name : Text) : List Text → Option (List Text)
  | [] => none
  | t :: ts => if t = name then some ts else (close? name ts).map (t :: ·)

/-- A text in which brackets behind a backslash have lost it. -/
def unescaped : Text → Text
  | [] => []
  | [c] => [c]
  | c :: d :: t =>
    if c = backslash ∧ d = openBracket then d :: unescaped t else c :: unescaped (d :: t)

/-- What is seen of pieces, where the styles of `tags` are open, the latest first. -/
def shownPieces (tags : List Text) : List Piece → Except MarkupError Text
  | [] => .ok []
  | .text t :: ps => (shownPieces tags ps).map (unescaped t ++ ·)
  | .tag inside position :: ps =>
    match tagName inside with
    | c :: name =>
      if c = '/' then
        match Text.strip name, tags with
        | [], [] => .error (.nothingOpen position)
        -- a closing tag without name closes the latest one
        | [], _ :: tags => shownPieces tags ps
        | name, tags =>
          match close? (styleName name) tags with
          | some tags => shownPieces tags ps
          | none => .error (.unopened inside position)
      else shownPieces (styleName (c :: name) :: tags) ps
    | [] => shownPieces ([] :: tags) ps

/-- **What is seen of a marked-up text.** A text without brackets is seen as it is. -/
def shown (t : Text) : Except MarkupError Text :=
  if t.contains openBracket then shownPieces [] (pieces t) else .ok t

end Markup

end StepCheck
