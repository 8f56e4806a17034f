import StepCheck.CommandLine.Option

/-!
# Help texts

The help of a command shows how it is called, what it does, and its options in two columns; that of
the program lists its commands as well.

* `Help.usage` — how a command is called;
* `Help.page` — the help of a command, line by line;
* `Help.usageErrorLines` — what is shown about an error.
-/

namespace StepCheck

namespace Help

/-- The width of a page. -/
def pageWidth : Nat := 78

/-- Widest term for which the text stands on the same line. -/
def widestTerm : Nat := 30

/-- Widest summary of a command in a list. -/
def widestSummary : Nat := 64

/-- The words of a text between single blanks. -/
def wordsOf (t : Text) : List Text :=
  t.foldr (fun c ws =>
    if c = CodePoint.ofChar ' ' then [] :: ws
    else match ws with
      | [] => [[c]]
      | w :: rest => (c :: w) :: rest) [[]]

/-- Lines of a width made of words, where `line` has been begun. -/
def wrapFrom (width : Nat) (line : Text) : List Text → List Text
  | [] => [line]
  | w :: ws =>
    if line.length + 1 + w.length ≤ width then
      wrapFrom width (line ++ CodePoint.ofChar ' ' :: w) ws
    else line :: wrapFrom width w ws

/-- **A text in lines** of a width. -/
def wrap (width : Nat) (t : Text) : List Text :=
  match wordsOf t with
  | [] => []
  | w :: ws => (wrapFrom width w ws).map Text.stripRight

/-- The words of a summary that fit into a width together with three points. -/
def fitting (width : Nat) : List Text → List Text
  | [] => []
  | w :: ws => if w.length + 4 ≤ width then w :: fitting (width - w.length - 1) ws else []

/-- **A summary cut short** for a list, unless it is short enough. -/
def short (t : Text) : Text :=
  if t.length ≤ widestSummary then t
  else Text.join " " (fitting (widestSummary + 1) (wordsOf t)) ++ "..."

/-- Blanks. -/
def blanks (n : Nat) : Text := List.replicate n (CodePoint.ofChar ' ')

/-- **Terms and texts in two columns.** -/
def columns (rows : List (Text × Text)) : List Text :=
  let widest := rows.foldl (fun n (term, _) => max n term.length) 0
  let first := min widest widestTerm + 2
  rows.flatMap fun (term, text) =>
    match wrap (pageWidth - first - 2) text with
    | [] => ["  " ++ term]
    | line :: more =>
      (if term.length + 2 ≤ first then
        ["  " ++ term ++ blanks (first - term.length) ++ line]
      else ["  " ++ term, blanks (first + 2) ++ line])
      ++ more.map (blanks (first + 2) ++ ·)

/-- What stands behind the name of an option. -/
def valueName : ValueKind → Text
  | .flag => []
  | .file => " FILE"
  | .choice words => " [" ++ Text.join "|" words ++ "]"
  | .count _ => " INTEGER RANGE"

/-- An option with what it takes. -/
def optionRow (o : OptionSpec) : Text × Text := (o.name ++ valueName o.kind, o.help)

/-- **How a command is called.** -/
def usage (c : CommandSpec) : Text :=
  "Usage: " ++ c.call ++ " [OPTIONS]"
    ++ (if c.arguments.isEmpty then [] else Text.ofString " " ++ c.arguments)

/-- **The help of a command**, with the commands below it. -/
def page (c : CommandSpec) (commands : List (Text × CommandSpec)) : List Text :=
  [usage c, [], "  " ++ c.summary, [], "Options:"]
    ++ columns (c.allOptions.map optionRow)
    ++ if commands.isEmpty then []
      else [[], Text.ofString "Commands:"]
        ++ columns (commands.map fun (name, c) => (name, short c.summary))

/-- **What is shown about an error** in the call of a command. -/
def usageErrorLines (c : CommandSpec) (e : UsageError) : List Text :=
  let error := "Error: " ++ e.message
  if e.showsUsage then
    [usage c, "Try '" ++ c.call ++ " --help' for help.", [], error]
  else [error]

end Help

end StepCheck
