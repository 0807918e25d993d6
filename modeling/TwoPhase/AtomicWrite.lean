import TwoPhase.FileTree

/-!
# Replacing a file in one step

New content is written to a fresh file beside the old one, which it then takes the place of. A reader sees
the old content or the new one. Any step can fail: a `Course` says what the steps meet. At the end the fresh
file is removed, whether or not a step failed; if none did it is gone by then, which is no fault.
-/

namespace TwoPhase

/-- The steps of a replacement. -/
inductive WriteStep where
  | create
  | permit
  | write
  | sync
  | close
  | rename
  deriving DecidableEq

inductive ReplaceError where
  /-- The name of the file has no last component to derive a fresh name from. -/
  | nameless (pattern : String)
  /-- Every fresh name that was tried is taken. -/
  | exhausted (pattern : String)
  | create (e : FileError)
  | permit (path : String) (fault : FileFault)
  | write (path : String) (fault : FileFault)
  | sync (path : String) (fault : FileFault)
  | close (path : String) (fault : FileFault)
  | rename (fresh path : String) (fault : FileFault)
  deriving DecidableEq

def ReplaceError.message : ReplaceError → String
  | nameless pattern =>
    "os.CreateTemp: createtemp " ++ pattern ++ ": pattern contains path separator"
  | exhausted pattern => "os.CreateTemp: createtemp " ++ pattern ++ ": file already exists"
  | create e => "os.CreateTemp: " ++ e.message
  | permit path fault =>
    "failed to chmod " ++ path ++ ": chmod " ++ path ++ ": " ++ fault.text
  | write path fault =>
    "failed to write to file " ++ path ++ ": write " ++ path ++ ": " ++ fault.text
  | sync path fault => "failed to sync file " ++ path ++ ": sync " ++ path ++ ": " ++ fault.text
  | close path fault => "failed to close file " ++ path ++ ": close " ++ path ++ ": " ++ fault.text
  | rename fresh path fault =>
    "failed to rename file " ++ fresh ++ " to " ++ path ++ ": rename " ++ fresh ++ " " ++ path ++ ": "
      ++ fault.text

namespace FileTree

/-- A path in a directory, which is taken as it is written. -/
def inside (dir name : String) : String :=
  if dir.toList.getLast? = some '/' then dir ++ name else dir ++ "/" ++ name

/-- The first numbered path from `n` on that leads nowhere yet, of `tries` candidates. -/
def freshFrom? (t : FileTree) (path : Nat → String) : Nat → Nat → Option String
  | 0, _ => none
  | tries + 1, n =>
    match t.find (path n) with
    | .ok _ => freshFrom? t path tries (n + 1)
    | .error _ => some (path n)

/-- How many names are tried before giving up. -/
def nameTries : Nat := 10000

/-- The number of the first candidate. -/
def firstNumber : Nat := 1000000000

/-- A numbered path that leads nowhere yet. -/
def fresh? (t : FileTree) (path : Nat → String) : Option String :=
  t.freshFrom? path nameTries firstNumber

/-- The pattern with a number in the place of its last star. -/
def numbered (pattern : String) (n : Nat) : String :=
  let rs := pattern.toList.reverse
  String.ofList ((rs.dropWhile (· ≠ '*')).drop 1).reverse ++ toString n
    ++ String.ofList (rs.takeWhile (· ≠ '*')).reverse

/-- What a replacement meets. Where nothing is said, no step fails. -/
structure Course where
  /-- The number that is drawn at each try of a fresh name. -/
  draw : Nat → Nat := id
  fault : WriteStep → Option FileFault := fun _ => none
  /-- How many bytes are in the fresh file each time that it grows, before it is complete or writing fails. -/
  arrived : List Nat := []

/-- The path of the fresh file, which leads nowhere yet, and its place. -/
def freshFile (c : Course) (t : FileTree) (path : String) : Except ReplaceError (String × Place) :=
  let dir := Path.dir path
  let pattern := "tmp-*-" ++ Path.base path
  if pattern.toList.contains '/' then .error (.nameless pattern)
  else
    match t.fresh? fun n => inside dir (numbered pattern (c.draw n)) with
    | none => .error (.exhausted (inside dir pattern))
    | some fresh =>
      match c.fault .create, t.target fresh with
      | some f, _ | none, .error f =>
        .error (.create { operation := "open", path := fresh, fault := f })
      | none, .ok place => .ok (fresh, place)

/-- What stands at `source` takes the place of the file that `path` leads to. A directory stays. -/
def renameOver (t : FileTree) (source : Place) (path : String) : Except FileFault FileTree := do
  let place ← t.locate path
  match t.entryAt? source, t.entryAt? place with
  | none, _ => throw .missing
  | some _, some .directory => throw .present
  | some e, _ => return (t.erase source).put place e

/-- Removes what a path leads to if that is possible. -/
def removeOrKeep (t : FileTree) (path : String) : FileTree :=
  match t.remove path with
  | .ok t' => t'
  | .error _ => t

/-- Steps of a replacement as readers see them: the trees after the first one, and what went wrong. -/
structure Replacement where
  seen : List FileTree := []
  error : Option ReplaceError := none

namespace Replacement

/-- The tree that stays. -/
def final (r : Replacement) (t : FileTree) : FileTree :=
  r.seen.getLastD t

/-- Goes on from the tree that stays, unless a step failed. -/
def andThen (r : Replacement) (t : FileTree) (next : FileTree → Replacement) : Replacement :=
  match r.error with
  | some _ => r
  | none => { seen := r.seen ++ (next (r.final t)).seen, error := (next (r.final t)).error }

/-- Takes one step after the other until one fails. -/
def inTurn : List (FileTree → Replacement) → FileTree → Replacement
  | [], _ => {}
  | step :: steps, t => (step t).andThen t (inTurn steps)

/-- A step that shows `trees` unless it fails. -/
def attempt (fault : Option FileFault) (error : FileFault → ReplaceError) (trees : List FileTree) :
    Replacement :=
  match fault with
  | some f => { error := some (error f) }
  | none => { seen := trees }

end Replacement

open Replacement (attempt inTurn)

/-- The steps between the first and the last one, which fill the fresh file. -/
def filling (c : Course) (fresh : String) (place : Place) (content : Bytes) (executable : Bool) :
    List (FileTree → Replacement) :=
  let holding (b : Bytes) (t : FileTree) : FileTree := t.put place (.file b executable)
  [ fun t => attempt (c.fault .permit) (.permit fresh) [holding [] t],
    fun t => { seen := c.arrived.map fun n => holding (content.take n) t },
    fun t => attempt (c.fault .write) (.write fresh) [holding content t],
    fun _ => attempt (c.fault .sync) (.sync fresh) [],
    fun _ => attempt (c.fault .close) (.close fresh) [] ]

/-- The last step: the fresh file takes the place of the old one. -/
def takeOver (c : Course) (fresh : String) (place : Place) (path : String) (t : FileTree) : Replacement :=
  match c.fault .rename, t.renameOver place path with
  | some f, _ | none, .error f => { error := some (.rename fresh path f) }
  | none, .ok t' => { seen := [t'] }

/-- Replaces the content of a file, or makes it, on the given course. The last tree that is seen stays. -/
def replaceAlong (c : Course) (t : FileTree) (path : String) (content : Bytes)
    (executable : Bool := false) : Replacement :=
  match t.freshFile c path with
  | .error e => { error := some e }
  | .ok (fresh, place) =>
    let made := t.put place (.file [] false)
    let r := (inTurn (filling c fresh place content executable) made).andThen made
      (takeOver c fresh place path)
    { seen := made :: r.seen ++ [(r.final made).removeOrKeep fresh], error := r.error }

/-- Replaces the content of a file, or makes it, in one step. -/
def replace (t : FileTree) (path : String) (content : Bytes) : Except ReplaceError FileTree :=
  let r := t.replaceAlong {} path content
  match r.error with
  | none => .ok (r.final t)
  | some e => .error e

/-- Replaces the content of a file; if that fails, nothing changes. -/
def replaceOrKeep (t : FileTree) (path : String) (content : Bytes) : FileTree :=
  (t.replaceAlong {} path content).final t

end FileTree

end TwoPhase
