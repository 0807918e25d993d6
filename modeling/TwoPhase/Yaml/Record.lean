import TwoPhase.Yaml.Scalar

/-!
# Reading records from YAML

The entries of a mapping are read in order over the value that is there already, so a later entry
for the same field wins and the fields of a nested record merge. `Node.entries?` lists them with
merge keys (`<<`) replaced by the entries of what they name; of several named mappings the first
wins, so they come in reverse.
-/

namespace TwoPhase.Yaml.Node

/-- Null as an optional value: it is written as an untagged `null`, `~` or nothing, or tagged. -/
def isAbsent : Node → Bool
  | scalar tag text plain =>
    tag == Scalar.standardTag "null"
      || (tag == "" && (text == "null" || text == "~" || (text == "" && plain)))
  | _ => false

/-- The key of an entry that merges other mappings. -/
def isMerge : Node → Bool
  | scalar tag text plain => text == "<<" && (plain || tag == Scalar.standardTag "merge")
  | _ => false

/-- The text of a scalar as it is written; null is empty. -/
def text? : Node → Option String
  | scalar tag text plain => do
    match ← Scalar.resolve? tag text plain with
    | .null => return ""
    | .text s => return s
    | _ => return text
  | _ => none

def flag? : Node → Option Bool
  | scalar tag text plain => do
    match ← Scalar.resolve? tag text plain with
    | .null => return false
    | .bool b => return b
    | _ => none
  | _ => none

def int? : Node → Option Int
  | scalar tag text plain => do
    match ← Scalar.resolve? tag text plain with
    | .null => return 0
    | s => s.toInt?
  | _ => none

def isNull : Node → Bool
  | scalar tag text plain => Scalar.resolve? tag text plain == some .null
  | _ => false

mutual

/-- The fields of a mapping with their values, merged ones in their place. -/
def entries? : Node → Option (List (String × Node))
  | map ps => pairEntries? ps
  | _ => none

def pairEntries? : List (Node × Node) → Option (List (String × Node))
  | [] => some []
  | (k, v) :: ps => do
    let here ←
      if isMerge k then
        match v with
        | map qs => pairEntries? qs
        | seq xs => mergedEntries? xs
        | _ => none
      else do pure [(← text? k, v)]
    return here ++ (← pairEntries? ps)

/-- The entries of several mappings, the last mapping first. -/
def mergedEntries? : List Node → Option (List (String × Node))
  | [] => some []
  | x :: xs => do
    let later ← mergedEntries? xs
    match x with
    | map qs => return later ++ (← pairEntries? qs)
    | _ => none

end

mutual

def depth : Node → Nat
  | seq xs => depthItems xs + 1
  | map ps => depthPairs ps + 1
  | _ => 1

def depthItems : List Node → Nat
  | [] => 0
  | x :: xs => max (depth x) (depthItems xs)

def depthPairs : List (Node × Node) → Nat
  | [] => 0
  | (k, v) :: ps => max (max (depth k) (depth v)) (depthPairs ps)

end

/-- Reads a record over `old`, field by field with `field`; null gives the empty record. -/
def record? {α : Type} [Inhabited α] (field : α → String → Node → Option α) (old : α) (n : Node) :
    Option α :=
  if n.isNull then some default
  else do (← n.entries?).foldlM (fun r (k, v) => field r k v) old

/-- Reads an optional record over `old`. -/
def optional? {α : Type} [Inhabited α] (read : α → Node → Option α) (old : Option α) (n : Node) :
    Option (Option α) :=
  if n.isAbsent then (if n.isNull then some none else none)
  else (read (old.getD default) n).map some

/-- Reads a list; null gives the empty one. -/
def list? {α : Type} (read : Node → Option α) (n : Node) : Option (List α) :=
  match n with
  | seq xs => xs.mapM read
  | _ => if n.isNull then some [] else none

end TwoPhase.Yaml.Node
