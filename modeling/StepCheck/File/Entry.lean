import StepCheck.File.Path
import StepCheck.Text.Quoted

/-!
# Files and folders

What stands under a path, and what goes wrong when a file is read from there or written to it.

* `Entry` — what stands under a path;
* `Files` — what stands under every path;
* `Files.read` — the bytes of a file;
* `Files.writeProblem?` — why a file cannot be written;
* `FileTree` — files and folders in memory, with `FileTree.entry`.
-/

namespace StepCheck

/-- **What stands under a path.** -/
inductive Entry
  | file (bytes : List UInt8)
  | folder
  | absent
  /-- The path leads through a file as if it were a folder. -/
  | beyondFile
  /-- A file that may not be read. -/
  | locked
  /-- The system fails to look there or to read what is there, and gives a number and a text. -/
  | failing (number : Nat) (text : Text)
deriving DecidableEq

/-- **What stands under every path.** -/
abbrev Files : Type := Path → Entry

/-- **What goes wrong** with a file. -/
inductive FileProblem
  | absent
  | occupied
  | notFolder
  | isFolder
  | denied
  | other (number : Nat) (text : Text)
deriving DecidableEq

namespace FileProblem

/-- The number of a problem and its text. -/
def description : FileProblem → Nat × Text
  | absent => (2, "No such file or directory")
  | occupied => (17, "File exists")
  | notFolder => (20, "Not a directory")
  | isFolder => (21, "Is a directory")
  | denied => (13, "Permission denied")
  | other number text => (number, text)

/-- The text of a problem with the file of a path. -/
def message (path : Path) (p : FileProblem) : Text :=
  let (number, text) := p.description
  "[Errno " ++ Text.ofNat number ++ "] " ++ text ++ ": " ++ path.shown.quoted

/-- Whether a problem counts as there being no file. Besides those that say so, these are a
descriptor that is not open and a path of links that never ends. -/
def isAbsence : FileProblem → Bool
  | absent | notFolder | isFolder => true
  | other number _ => number == 9 || number == 40
  | occupied | denied => false

end FileProblem

namespace Files

/-- **The bytes of a file.** -/
def read (fs : Files) (p : Path) : Except FileProblem (List UInt8) :=
  match fs p with
  | .file bytes => .ok bytes
  | .folder => .error .isFolder
  | .absent => .error .absent
  | .beyondFile => .error .notFolder
  | .locked => .error .denied
  | .failing number text => .error (.other number text)

/-- The bytes of a file, if there is one. -/
def bytes? (fs : Files) (p : Path) : Option (List UInt8) := (fs.read p).toOption

/-- **Why a file cannot be written**, and the path that is to blame. The folders above it are made
where they are not there. -/
def writeProblem? (fs : Files) (p : Path) : Option (FileProblem × Path) :=
  match fs p.parent with
  | .file _ | .locked => some (.occupied, p.parent)
  | .beyondFile => some (.notFolder, p.parent)
  | .failing number text => some (.other number text, p.parent)
  | .folder | .absent =>
    match fs p with
    | .folder => some (.isFolder, p)
    | .failing number text => some (.other number text, p)
    | _ => none

end Files

/-! ### Files in memory -/

/-- **Files and folders in memory**, under the current folder. The folders above files need not be
told. -/
structure FileTree where
  files : List (Path × List UInt8)
  folders : List Path

namespace FileTree

/-- Whether there is a folder of the given parts. -/
def isFolder (t : FileTree) (parts : List Text) : Bool :=
  parts.isEmpty || t.folders.any (fun p => parts.isPrefixOf p.parts)
    || t.files.any fun (p, _) => parts.isPrefixOf p.parts && parts.length < p.parts.length

/-- The file of the given parts, if there is one. -/
def file? (t : FileTree) (parts : List Text) : Option (List UInt8) :=
  (t.files.find? fun (p, _) => p.parts = parts).map Prod.snd

/-- What stands at the end of a way of parts from a folder on. -/
def follow (t : FileTree) (here : List Text) : List Text → Entry
  | [] => .folder
  | part :: parts =>
    -- the folder above is known without looking at what stands here
    if part = Text.ofString ".." then follow t here.dropLast parts
    else
      let next := here ++ [part]
      match t.file? next with
      | some bytes => if parts.isEmpty then .file bytes else .beyondFile
      | none => if t.isFolder next then follow t next parts else .absent

/-- **What stands under a path.** -/
def entry (t : FileTree) : Files := fun p => if p.root = 0 then t.follow [] p.parts else .absent

end FileTree

end StepCheck
