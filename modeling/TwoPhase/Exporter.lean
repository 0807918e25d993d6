import TwoPhase.Digest
import TwoPhase.DumpStore
import TwoPhase.ShellWords

/-!
# Exporting dumps

An exporter is a program that writes the dump of one source. It is run once for every C++ source, and each
dump has a name that is derived from its source, so that a second run writes the same files. What is left
of earlier runs is removed. A run of the program is a function on file trees, so that this module says
which runs are made and what their outcome means.
-/

namespace TwoPhase

inductive ResolveError where
  | noFile (program path : String) (e : FileError)
  | unknown (program : String)
  deriving DecidableEq

def ResolveError.message : ResolveError → String
  | noFile program _ e => "when resolving " ++ program ++ ", os.Stat failed: " ++ e.message
  | unknown program =>
    "when resolving " ++ program ++ ", not found in $PATH: exec: " ++ Text.quoted program
      ++ ": executable file not found in $PATH"

/-- The path that an error is about. -/
def ResolveError.path : ResolveError → String
  | noFile _ path _ => path
  | unknown program => program

/-- The path of a program: a name with a slash is a path, from the working directory unless it is absolute;
any other name has to be among the known commands. -/
def FileTree.resolveProgram (t : FileTree) (commands : List String) (program : String) :
    Except ResolveError String :=
  let check (path : String) : Except ResolveError String :=
    match t.stat path with
    | .ok _ => .ok path
    | .error e => .error (.noFile program path e)
  if Path.isAbsolute program then check program
  else if program.toList.contains '/' then
    check (Path.join ["/" ++ "/".intercalate t.here, program])
  else if commands.contains program then .ok program
  else .error (.unknown program)

structure Exporter where
  program : String
  extra : List String
  dumpDir : String
  database : String
  timeout : Int
  workers : Int
  deriving DecidableEq

inductive ExportError where
  | noProgram
  | unresolved (e : ResolveError)
  | arguments (e : ShellError)
  | directory (dir : String) (e : FileError)
  deriving DecidableEq

def ExportError.message : ExportError → String
  | noProgram => "no exporter binary configured"
  | unresolved e => e.message
  | arguments e => e.message
  | directory dir e => "os.MkdirAll(" ++ dir ++ "): " ++ e.message

/-- What running a program with arguments does: whether it succeeds, and the files afterwards. -/
abbrev Program := String → List String → FileTree → Bool × FileTree

namespace Exporter

/-- Suffixes of the sources that are exported. -/
def suffixes : List String :=
  [".cpp", ".cc", ".cxx", ".c++", ".C", ".cp", ".CPP"]

def isExported (source : String) : Bool :=
  suffixes.contains (Path.extension source)

/-- An exporter with its extra arguments split into words; at least one run is made at a time. -/
def ofSettings (t : FileTree) (commands : List String) (program extra dumpDir database : String)
    (timeout workers : Int) : Except ExportError Exporter := do
  if program = "" then throw .noProgram
  let program ← (t.resolveProgram commands program).mapError .unresolved
  let extra ← (shellWords extra).mapError .arguments
  return { program, extra, dumpDir, database, timeout, workers := max workers 1 }

/-- The end of the names of dumps that an exporter writes. -/
def ending : String := ".scope.json"

/-- The dump of a source. -/
def dumpPath (e : Exporter) (source : String) : String :=
  let id := Uuid.ofName Uuid.urlSpace (Bytes.ofString ("file://" ++ source))
  Path.join [e.dumpDir, id ++ ending]

/-- The arguments of the run for a source. -/
def args (e : Exporter) (source : String) : List String :=
  ("--output=" ++ e.dumpPath source)
    :: (if e.database = "" then [] else ["--p=" ++ Path.dir e.database])
    ++ e.extra ++ [source]

/-- What comes of the runs: the files, the dumps that were written, and the arguments of the runs. -/
structure Outcome where
  tree : FileTree
  dumps : List String := []
  calls : List (List String) := []

/-- Exports one source. It counts if the program succeeds and its dump is there. -/
def exportOne (e : Exporter) (run : Program) (o : Outcome) (source : String) : Outcome :=
  let args := e.args source
  let (good, tree) := run e.program args o.tree
  let dump := e.dumpPath source
  let written := good && (tree.stat dump matches .ok _)
  { tree, dumps := if written then o.dumps ++ [dump] else o.dumps, calls := o.calls ++ [args] }

/-- Exports the C++ sources in order, and then removes stale dumps as far as that is possible. -/
def exportAll (e : Exporter) (run : Program) (t : FileTree) (sources : List String) :
    Except ExportError Outcome := do
  let t ← (t.makeDirs e.dumpDir).mapError (.directory e.dumpDir)
  let o := (sources.filter isExported).foldl (e.exportOne run) { tree := t }
  match o.tree.cleanStale e.dumpDir ending o.dumps with
  | .ok tree => return { o with tree }
  | .error _ => return o

end Exporter

end TwoPhase
