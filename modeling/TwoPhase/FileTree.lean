import TwoPhase.Path

/-!
# File trees

A pure picture of the files that a run can see. Places are lists of names from the root directory;
paths are strings, taken from the working directory unless they start with a slash. Walking a path
needs a directory at every step, so `a/..` is an error if `a` is missing.
-/

namespace TwoPhase

/-- Why an operation on files fails. -/
inductive FileFault where
  | missing
  | notDirectory
  | isDirectory
  | present
  | notEmpty
  | nameTooLong
  | invalid
  /-- Any other fault that the system reports, in its words. -/
  | system (text : String)
  deriving DecidableEq, Inhabited

def FileFault.text : FileFault → String
  | missing => "no such file or directory"
  | notDirectory => "not a directory"
  | isDirectory => "is a directory"
  | present => "file exists"
  | notEmpty => "directory not empty"
  | nameTooLong => "file name too long"
  | invalid => "invalid argument"
  | system text => text

/-- A failed operation on a path. -/
structure FileError where
  operation : String
  path : String
  fault : FileFault
  deriving DecidableEq, Inhabited

def FileError.message (e : FileError) : String :=
  e.operation ++ " " ++ e.path ++ ": " ++ e.fault.text

inductive FileEntry where
  | file (content : Bytes) (executable : Bool)
  | directory
  deriving DecidableEq, Inhabited

/-- The names that lead to a place from the root directory. -/
abbrev Place := List String

structure FileTree where
  /-- The working directory. -/
  here : Place
  /-- All places but the root directory, which always exists. -/
  entries : List (Place × FileEntry)
  deriving Inhabited

namespace FileTree

def entryAt? (t : FileTree) (p : Place) : Option FileEntry :=
  if p.isEmpty then some .directory else t.entries.lookup p

def put (t : FileTree) (p : Place) (e : FileEntry) : FileTree :=
  { t with entries := t.entries.filter (·.1 ≠ p) ++ [(p, e)] }

def erase (t : FileTree) (p : Place) : FileTree :=
  { t with entries := t.entries.filter (·.1 ≠ p) }

/-- The names in a directory, in the order of their bytes. -/
def names (t : FileTree) (p : Place) : List String :=
  (t.entries.filterMap fun (q, _) =>
    match q.getLast? with
    | some n => if q.dropLast = p then some n else none
    | none => none).mergeSort (fun a b => decide (a ≤ b))

/-- An entry at or below a place. -/
def isBelow (p q : Place) : Bool :=
  p.isPrefixOf q

/-! ## Walking paths -/

def stepName (t : FileTree) (p : Place) (name : String) : Except FileFault Place :=
  match t.entryAt? p with
  | none => .error .missing
  | some (.file ..) => .error .notDirectory
  | some .directory =>
    if name = "" ∨ name = "." then .ok p
    else if name = ".." then .ok p.dropLast
    else if 255 < name.utf8ByteSize then .error .nameTooLong
    else .ok (p ++ [name])

/-- The place that a path leads to. All but the last step have to exist. -/
def locate (t : FileTree) (path : String) : Except FileFault Place :=
  if path = "" then .error .missing
  else if path.toList.contains '\x00' then .error .invalid
  else
    let names := (Path.pieces path.toList).map String.ofList
    names.foldlM t.stepName (if Path.isAbsolute path then [] else t.here)

/-- The place that a path leads to, and what stands there. -/
def find (t : FileTree) (path : String) : Except FileFault (Place × FileEntry) := do
  let p ← t.locate path
  match t.entryAt? p with
  | some e => return (p, e)
  | none => throw .missing

def failWith {α : Type} (operation path : String) : Except FileFault α → Except FileError α
  | .ok a => .ok a
  | .error fault => .error { operation, path, fault }

def stat (t : FileTree) (path : String) : Except FileError FileEntry :=
  failWith "stat" path ((t.find path).map (·.2))

def content (t : FileTree) (path : String) : Except FileError Bytes := do
  match ← failWith "open" path ((t.find path).map (·.2)) with
  | .file content _ => return content
  | .directory => throw { operation := "read", path, fault := .isDirectory }

/-- The names and entries of a directory, sorted by name. -/
def children (t : FileTree) (path : String) : Except FileError (List (String × FileEntry)) := do
  let (p, e) ← failWith "open" path (t.find path)
  match e with
  | .directory =>
    return (t.names p).filterMap fun n => (t.entryAt? (p ++ [n])).map fun e => (n, e)
  | .file .. => throw { operation := "open", path, fault := .notDirectory }

/-! ## Changes -/

/-- The place for a new or existing file. Its directory has to exist. -/
def target (t : FileTree) (path : String) : Except FileFault Place := do
  let p ← t.locate path
  match t.entryAt? p.dropLast with
  | some .directory =>
    if path.toList.getLast? = some '/' then throw .isDirectory
    return p
  | some (.file ..) => throw .notDirectory
  | none => throw .missing

/-- Replaces the content of a file, or makes it. -/
def store (t : FileTree) (path : String) (content : Bytes) (executable : Bool := false) :
    Except FileError FileTree :=
  failWith "open" path do
    let p ← t.target path
    match t.entryAt? p with
    | some .directory => throw .isDirectory
    | some (.file _ x) => return t.put p (.file content x)
    | none => return t.put p (.file content executable)

/-- Makes a directory in an existing one. -/
def makeDir (t : FileTree) (path : String) : Except FileError FileTree :=
  failWith "mkdir" path do
    let p ← t.locate path
    if (t.entryAt? p).isSome then throw .present
    match t.entryAt? p.dropLast with
    | some .directory => return t.put p .directory
    | some (.file ..) => throw .notDirectory
    | none => throw .missing

/-- The path above the last component, empty if there is none. -/
def above (path : String) : String :=
  let rs := path.toList.reverse.dropWhile (· == '/')
  String.ofList ((rs.dropWhile (· ≠ '/')).drop 1).reverse

/-- Makes a directory and those above it, at most `fuel` of them. -/
def makeDirsWithin (t : FileTree) : Nat → String → Except FileError FileTree
  | 0, path => .error { operation := "mkdir", path, fault := .missing }
  | fuel + 1, path =>
    match t.stat path with
    | .ok .directory => .ok t
    | .ok (.file ..) => .error { operation := "mkdir", path, fault := .notDirectory }
    | .error _ => do
      let parent := above path
      let t ← if parent = "" then pure t else t.makeDirsWithin fuel parent
      match t.makeDir path with
      | .ok t => .ok t
      | .error e => if t.stat path matches .ok .directory then .ok t else .error e

/-- Makes a directory and the directories above it. -/
def makeDirs (t : FileTree) (path : String) : Except FileError FileTree :=
  t.makeDirsWithin (path.length + 1) path

/-- Removes a file or an empty directory. -/
def remove (t : FileTree) (path : String) : Except FileError FileTree :=
  failWith "remove" path do
    let (p, e) ← t.find path
    match e with
    | .file .. => return t.erase p
    | .directory => if (t.names p).isEmpty then return t.erase p else throw .notEmpty

/-- All files at or below a path; an empty directory ends in a slash. -/
def listing (t : FileTree) (path : String) : List String :=
  match t.find path with
  | .error _ => []
  | .ok (_, .file ..) => [path]
  | .ok (p, .directory) =>
    (t.entries.filterMap fun (q, e) =>
      if isBelow p q && q ≠ p then
        let name := Path.join (path :: q.drop p.length)
        match e with
        | .file .. => some name
        | .directory => if (t.names q).isEmpty then some (name ++ "/") else none
      else none).mergeSort (fun a b => decide (a ≤ b))

end FileTree

end TwoPhase
