import TwoPhase.FileTree
import TwoPhase.Json.Layered
import TwoPhase.Json.Reader
import TwoPhase.Report.Filter
import TwoPhase.ShellWords

/-!
# Compilation databases

A compilation database lists commands, each with the file it compiles and the directory it runs in. Its
sources are the compiled C and C++ files that are not ignored, each once, in the order of the database.
-/

namespace TwoPhase

structure CompileCommand where
  command : String := ""
  arguments : List String := []
  file : String := ""
  directory : String := ""
  output : String := ""
  deriving DecidableEq, Inhabited

namespace CompileCommand

def ofLayers? (vs : Json.Layers) : Option CompileCommand := do
  let ms ← vs.members?
  return {
    command := ← (Json.named ms "command").text?
    arguments := ← (Json.named ms "arguments").list? Json.Layers.text?
    file := ← (Json.named ms "file").text?
    directory := ← (Json.named ms "directory").text?
    output := ← (Json.named ms "output").text? }

/-- The words of the command; a list of arguments wins over a command line. -/
def args (c : CompileCommand) : Except ShellError (List String) :=
  if c.arguments.isEmpty then shellWords c.command else .ok c.arguments

/-- The path of the compiled file. -/
def source (c : CompileCommand) : String :=
  if Path.isAbsolute c.file then Path.clean c.file else Path.join [c.directory, c.file]

end CompileCommand

abbrev CompileCommands := List CompileCommand

inductive CompileCommandsError where
  | file (e : FileError)
  | malformed (path : String)
  deriving DecidableEq

def CompileCommandsError.message : CompileCommandsError → String
  | file e => e.message
  | malformed path => "json.Unmarshal(" ++ path ++ ")"

/-- Suffixes of C and C++ sources. -/
def sourceSuffixes : List String :=
  [".c", ".cpp", ".cc", ".cxx", ".c++"]

def isSource (path : String) : Bool :=
  sourceSuffixes.contains (Path.extension path)

namespace CompileCommands

def ofBytes? (content : Bytes) : Option CompileCommands := do
  Json.Layers.list? CompileCommand.ofLayers? [← Json.parse? (Bytes.chars content)]

def read (t : FileTree) (path : String) : Except CompileCommandsError CompileCommands :=
  match t.content path with
  | .error e => .error (.file e)
  | .ok content =>
    match ofBytes? content with
    | some cs => .ok cs
    | none => .error (.malformed path)

/-- Every compiled file once. -/
def files (cs : CompileCommands) : List String :=
  (cs.map (·.source)).eraseDups

/-- The C and C++ files of readable commands that are not ignored. -/
def sources (cs : CompileCommands) (ignore : List String) : List String :=
  (files (cs.filter (·.args matches .ok _))).filter fun f =>
    isSource f && !Results.isIgnored ignore (Bytes.ofString f)

end CompileCommands

end TwoPhase
