import TwoPhase.AtomicWrite
import TwoPhase.Json.Value
import TwoPhase.Phrase
import TwoPhase.Text.Unfilled

/-!
# Workspaces

What a run changes: the files, and the text that it prints. Announcements are stamped with the time, and
their text is taken for a format once more. A progress file tells how far the run has come. Durations are
counted in nanoseconds and shown in seconds, with the milliseconds behind a point and without trailing zeros;
shares are shown in percent, rounded towards zero.
-/

namespace TwoPhase

/-! ## Times and shares -/

/-- Three places for a number, its sign included. -/
def threePlaces (n : Int) : List Char :=
  let ds := Nat.toDigits 10 n.natAbs
  if n < 0 then '-' :: List.replicate (2 - ds.length) '0' ++ ds
  else List.replicate (3 - ds.length) '0' ++ ds

def dropTrailingZeros (cs : List Char) : List Char :=
  (cs.reverse.dropWhile (· == '0')).reverse

/-- A duration in seconds. -/
def durationText (nanoseconds : Int64) : String :=
  let seconds := nanoseconds / 1000000000
  let milliseconds := (nanoseconds - seconds * 1000000000) / 1000000
  if milliseconds = 0 then seconds.toInt.repr ++ "s"
  else
    seconds.toInt.repr ++ "." ++ String.ofList (dropTrailingZeros (threePlaces milliseconds.toInt)) ++ "s"

/-- The share of `part` in `whole`; nothing at all is complete. -/
def percentText (part whole : Int64) : String :=
  if whole = 0 then "100%" else (part * 100 / whole).toInt.repr ++ "%"

/-- The times that a run shows: the stamp before an announcement, with a blank behind it, how long a step
took, and when the run began. -/
structure Clock where
  stamp : String := ""
  elapsed : String := ""
  start : String := ""

/-! ## Files and output -/

/-- The stages of a run. -/
inductive Stage where
  | dumping
  | checking
  | finished
  deriving DecidableEq

def Stage.number : Stage → Nat
  | dumping => 0
  | checking => 1
  | finished => 2

structure Workspace where
  tree : FileTree
  output : Bytes := []

namespace Workspace

def print (w : Workspace) (text : Bytes) : Workspace :=
  { w with output := w.output ++ text }

def printLine (w : Workspace) (text : Bytes) : Workspace :=
  w.print (text ++ [0x0a])

/-- Prints a stamped line. -/
def announce (w : Workspace) (clock : Clock) (text : Bytes) : Workspace :=
  w.printLine (Bytes.ofString clock.stamp ++ Bytes.ofChars (Text.unfilled (Bytes.chars text)))

/-- The text of a progress file. -/
def progressText (clock : Clock) (stage : Stage) (ratio : String) : String :=
  "\x7b\"stage_id\":" ++ toString stage.number ++ ",\"done_ratio\":" ++ Json.webQuoted ratio.toList
    ++ ",\"started_at\":" ++ Json.webQuoted clock.start.toList ++ "\x7d"

/-- Writes the progress file into a directory that exists; if that fails, nothing changes. -/
def writeProgress (w : Workspace) (clock : Clock) (dir : String) (stage : Stage) (ratio : String) :
    Workspace :=
  match w.tree.find dir with
  | .error .missing => w
  | _ =>
    { w with
      tree := w.tree.replaceOrKeep (Path.join [dir, "progress.nsa_metadata"])
        (Bytes.ofString (progressText clock stage ratio)) }

/-- Writes a file of the run; if that fails, nothing changes. -/
def note (w : Workspace) (path text : String) : Workspace :=
  { w with tree := w.tree.replaceOrKeep path (Bytes.ofString text) }

end Workspace

/-- Steps of a run. They change the workspace, and may fail; what they changed before stays. -/
abbrev WorkspaceM (ε : Type) := ExceptT ε (StateM Workspace)

namespace WorkspaceM

def tree {ε : Type} : WorkspaceM ε FileTree :=
  return (← get).tree

def putTree {ε : Type} (tree : FileTree) : WorkspaceM ε Unit :=
  modify fun w => { w with tree }

/-- Goes on with a value, or fails with a cause. -/
def orFail {ε δ α : Type} (cause : δ → ε) : Except δ α → WorkspaceM ε α
  | .ok a => pure a
  | .error e => throw (cause e)

end WorkspaceM

end TwoPhase
