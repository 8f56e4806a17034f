import StepCheck.Console.Table
import StepCheck.Text.Quoted

/-!
# Terminals

What is printed goes to a terminal, which makes lines of it or fails: the marks of a text may be
wrong, the name of a style may not be understood, and there may be no bytes for a code point. What
a terminal makes of styles, and what it puts in the places of pictures, is its own affair, so the
program is given one.

* `Terminal` — what becomes of texts, tables and grids;
* `Terminal.plain` — a terminal that knows a style by the name that is written.
-/

namespace StepCheck

/-- **Why something is not printed.** -/
inductive PrintFailure
  | markup (e : Markup.MarkupError)
  /-- The name of a style is not understood. -/
  | style (message : Text)
  /-- A text holds code points that cannot be written. -/
  | unwritable (t : Text)
deriving DecidableEq

namespace PrintFailure

/-- The text about code points that cannot be written, which names the first of them and those that
follow it at once. -/
def unwritableMessage (t : Text) : Text :=
  let start := (t.takeWhile (!CodePoint.isSurrogate ·)).length
  let part := (t.drop start).takeWhile CodePoint.isSurrogate
  let place :=
    match part with
    | [c] => "character " ++ Text.quoted [c] ++ " in position " ++ Text.ofNat start
    | part => "characters in position " ++ Text.ofNat start ++ "-"
        ++ Text.ofNat (start + part.length - 1)
  "'utf-8' codec can't encode " ++ place ++ ": surrogates not allowed\n"
    ++ "*** You may need to add PYTHONIOENCODING=utf-8 to your environment ***"

/-- The text of a failure. -/
def message : PrintFailure → Text
  | markup e => e.message
  | style message => message
  | unwritable t => unwritableMessage t

end PrintFailure

/-- **A terminal**: the lines that it makes of what is printed. -/
structure Terminal where
  /-- What becomes of a marked-up text. -/
  text : Text → Except PrintFailure (List Text)
  table : Table → Except PrintFailure (List Text)
  grid : Grid → Except PrintFailure (List Text)

namespace Terminal

/-- Whether a terminal prints a marked-up text. -/
def Prints (c : Terminal) (t : Text) : Prop := ∃ ls, c.text t = .ok ls

instance (c : Terminal) (t : Text) : Decidable (c.Prints t) :=
  match h : c.text t with
  | .ok ls => .isTrue ⟨ls, h⟩
  | .error _ => .isFalse fun ⟨_, hls⟩ => nomatch h.symm.trans hls

/-! ### A plain terminal -/

section Plain

variable (writes : CodePoint → Bool)

/-- Something is written that shows some texts. -/
def written {α : Type} (shown : List Text) (a : α) : Except PrintFailure α :=
  match shown.find? (·.any (!writes ·)) with
  | some t => .error (.unwritable t)
  | none => .ok a

/-- **A plain terminal**, of which it is known which code points it writes. It shows texts as they
are without their marks. -/
def plain : Terminal where
  text t := do
    let u ← (Markup.shown t).mapError .markup
    written writes [u] (Console.linesOf u)
  table t := do
    let (title, rows) ← t.shown.mapError .markup
    written writes (title :: rows.flatten) (t.laidOut title rows)
  grid g := do
    let rows ← g.shown.mapError .markup
    written writes rows.flatten (g.laidOut rows)

end Plain

/-- A plain terminal that writes UTF-8, which has no bytes for surrogates. -/
def utf8 : Terminal := plain (!CodePoint.isSurrogate ·)

end Terminal

end StepCheck
