import StepCheck.Console.Terminal

/-!
# Printing on a console

What is printed is gathered line by line; it stays printed if something goes wrong later.

* `Printing` — printing that may fail;
* `Console.print` — a marked-up text;
* `Console.printTable`, `Console.printGrid` — a table or a grid.
-/

namespace StepCheck

/-- **Printing** that may fail for reasons `ε`. -/
abbrev Printing (ε : Type) (α : Type) : Type := ExceptT ε (StateM (Array Text)) α

namespace Console

/-- Lines are printed. -/
def emit {ε : Type} (ls : List Text) : Printing ε Unit := modify (· ++ ls.toArray)

/-- The lines that a terminal makes are printed, unless it fails. -/
def emitMade {ε : Type} (ofFailure : PrintFailure → ε) (ls : Except PrintFailure (List Text)) :
    Printing ε Unit :=
  match ls with
  | .ok ls => emit ls
  | .error e => throw (ofFailure e)

section Print

variable {ε : Type} (c : Terminal) (ofFailure : PrintFailure → ε)

/-- **A marked-up text is printed.** -/
def print (t : Text) : Printing ε Unit := emitMade ofFailure (c.text t)

/-- A table is printed. -/
def printTable (t : Table) : Printing ε Unit := emitMade ofFailure (c.table t)

/-- A grid is printed. -/
def printGrid (g : Grid) : Printing ε Unit := emitMade ofFailure (c.grid g)

end Print

end Console

/-- What has been printed, and the outcome. -/
def Printing.printed {ε α : Type} (p : Printing ε α) : Except ε α × List Text :=
  let (result, ls) := p.run.run #[]
  (result, ls.toList)

end StepCheck
