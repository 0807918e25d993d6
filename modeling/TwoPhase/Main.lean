import Std.Time.Format
import Std.Time.Zoned
import TwoPhase.Session

/-!
# The command line

The outer layer of the program. It reads the directories that a session can see into a file tree, runs the
session on it, and then brings the changes to the disk and the text to the terminal. It starts no other
programs, so dumps have to be there already.
-/

namespace TwoPhase.CommandLine

/-- The place of a path, seen from a directory. -/
def placeOf (here : Place) (path : String) : Place :=
  let absolute := if Path.isAbsolute path then path else "/" ++ "/".intercalate here ++ "/" ++ path
  (Path.components absolute.toList).map String.ofList

def pathOf (p : Place) : String :=
  "/" ++ "/".intercalate p

/-- What is on the disk at a place, and below it to some depth. -/
def load : Nat → Place → IO (List (Place × FileEntry))
  | 0, _ => return []
  | depth + 1, p => do
    try
      let names := (← (← IO.FS.realPath (pathOf p)).readDir).toList.map (·.fileName)
      let below ← names.mapM fun n => load depth (p ++ [n])
      return (p, .directory) :: below.flatten
    catch _ =>
      try
        let content ← IO.FS.readBinFile (pathOf p)
        return [(p, .file content.toList false)]
      catch _ => return []

/-- How deep directories are read. -/
def depth : Nat := 64

/-- The directories on the way to a place. -/
def parents (p : Place) : List (Place × FileEntry) :=
  (List.range p.length).drop 1 |>.map fun n => (p.take n, .directory)

/-- Adds what is at some paths to a tree. -/
def see (t : FileTree) (paths : List String) : IO FileTree := do
  let found ← paths.mapM fun path => do
    let p := placeOf t.here path
    let entries ← load depth p
    return if entries.isEmpty then [] else parents p ++ entries
  let new := found.flatten.filter fun (p, _) => (t.entryAt? p).isNone
  return { t with entries := t.entries ++ new.eraseDups }

/-- All that a session can read: the directories of its options and the sources of its compilation
database. -/
def seeAll (here : Place) (o : RunOptions) : IO FileTree := do
  let t : FileTree := { here, entries := parents (here ++ [""]) }
  let t ← see t [o.srcDir, o.configDir, o.resultsDir, (o.settings 1).dumpDir, o.theLogDir]
  let srcDir := pathOf (placeOf here o.srcDir)
  match CompileCommands.read t (compileCommandsPath srcDir) with
  | .ok commands => see t commands.files
  | .error _ => return t

/-- Makes an entry on the disk. A file takes the place of an old one in one step. -/
def save (p : Place) : FileEntry → IO Unit
  | .directory => IO.FS.createDirAll (pathOf p)
  | .file content _ => do
    let fresh := pathOf p ++ ".new"
    IO.FS.writeBinFile fresh content.toByteArray
    IO.FS.rename fresh (pathOf p)

/-- Brings the changes of a session to the disk. -/
def saveAll (before after : FileTree) : IO Unit := do
  for (p, e) in after.entries do
    if before.entryAt? p ≠ some e then save p e
  for (p, e) in before.entries do
    if (after.entryAt? p).isNone then
      match e with
      | .file .. => IO.FS.removeFile (pathOf p)
      | .directory => pure ()

/-- The clock of a session. Durations count from the start of the program. -/
def readClock (milliseconds : Nat) : IO Clock := do
  let stamp := (← Std.Time.PlainDateTime.now).format "uuuu-MM-dd HH:mm:ss"
  let start := (← Std.Time.DateTime.now).toISO8601String
  return { stamp := stamp ++ " ", elapsed := durationText (Int64.ofNat (milliseconds * 1000000)), start }

def complain (text : String) : IO Unit := do
  (← IO.getStderr).putStrLn text

/-- Runs the program. -/
def run (args : List String) : IO UInt32 := do
  let began ← IO.monoMsNow
  match RunOptions.allFlags.parse {} args with
  | .error e =>
    complain e.message
    return (Ending.refused e).exitCode.toUInt32
  | .ok (o, _) =>
    if o.exporter ≠ "" then
      complain "exporter_bin: other programs cannot be started"
      return 255
    let here := placeOf [] (← IO.currentDir).toString
    let t ← seeAll here o
    let clock ← readClock ((← IO.monoMsNow) - began)
    let (w, ending) := runProgram { clock, run := fun _ _ t => (false, t) } t args
    saveAll t w.tree
    let out ← IO.getStdout
    out.write w.output.toByteArray
    out.flush
    match ending with
    | .stopped e => complain e.message
    | _ => pure ()
    return ending.exitCode.toUInt32

end TwoPhase.CommandLine

def main (args : List String) : IO UInt32 :=
  TwoPhase.CommandLine.run args
