import TwoPhase.CompilationUnit.Json
import TwoPhase.CompilationUnit.Yaml
import TwoPhase.FileTree
import TwoPhase.Json.Reader

/-!
# Directories of dumps

The dumps of a run lie anywhere below one directory, and are known by the ends of their names. They are
JSON or YAML, as the suffix tells.
-/

namespace TwoPhase

/-- The ends of the names of dumps. -/
def dumpEndings : List String :=
  [".scope.json", ".scope.yaml", ".scope.yml"]

def isDumpName (name : String) : Bool :=
  dumpEndings.any fun e => e.toList.isSuffixOf name.toList

/-- All dumps below a directory, in the order of their paths. -/
def FileTree.dumps (t : FileTree) (dir : String) : List String :=
  match t.find dir with
  | .ok (p, .directory) =>
    (t.entries.filterMap fun (q, _) =>
      if FileTree.isBelow p q && q ≠ p && isDumpName (q.getLast?.getD "") then
        some (Path.join (dir :: q.drop p.length))
      else none).mergeSort (fun a b => decide (a ≤ b))
  | _ => []

inductive DumpError where
  | unreadable (path : String) (e : FileError)
  | json
  | yaml
  deriving DecidableEq

def DumpError.message : DumpError → String
  | unreadable path e => "failed to read " ++ path ++ ": " ++ e.message
  | json => "json.Unmarshal"
  | yaml => "yaml.Unmarshal"

/-- The compilation unit in a text. -/
def CompilationUnit.decode (yaml : Bool) (content : Bytes) : Except DumpError CompilationUnit :=
  if yaml then
    match CompilationUnit.ofYaml? content with
    | some u => .ok u
    | none => .error .yaml
  else
    match (Json.parse? (Bytes.chars content)).bind CompilationUnit.ofJson? with
    | some u => .ok u
    | none => .error .json

/-- The compilation unit in a dump. -/
def FileTree.loadDump (t : FileTree) (path : String) : Except DumpError CompilationUnit :=
  match t.content path with
  | .error e => .error (.unreadable path e)
  | .ok content =>
    let suffix := Path.extension path
    CompilationUnit.decode (suffix == ".yaml" || suffix == ".yml") content

/-- Removes the files directly in a directory whose name ends with `ending`, but for those with the name of
a path in `keep`. -/
def FileTree.cleanStale (t : FileTree) (dir ending : String) (keep : List String) :
    Except FileError FileTree := do
  let kept := keep.map Path.base
  (← t.children dir).foldlM (fun t (name, e) =>
    match e with
    | .directory => .ok t
    | .file .. =>
      if ending.toList.isSuffixOf name.toList && !kept.contains name then
        t.remove (Path.join [dir, name])
      else .ok t) t

end TwoPhase
