import TwoPhase.Digest

/-!
# Results

A result is one finding at a place in the source. Its texts are byte strings, since names come from
source files of any encoding; its numbers have 32 bits. Two results with the same `Result.key` (path,
line, column and message) report the same thing: `Results.unique` keeps the first of them, and
`Results.sorted` orders by that key. The identity of a result is derived from what it says, so that a second
run on the same sources gives the same identities.
-/

namespace TwoPhase

/-- The fields that hold text. -/
inductive TextField where
  | path
  | message
  | ruleset
  | ruleId
  | id
  | name
  | baseClass
  | verdict
  deriving DecidableEq

/-- The fields that hold a number. -/
inductive IntField where
  | line
  | column
  | severity
  deriving DecidableEq

inductive Field where
  | text (f : TextField)
  | int (f : IntField)
  deriving DecidableEq

namespace Field

/-- All fields in the order of their numbers. -/
def all : List Field :=
  [.text .path, .int .line, .int .column, .text .message, .text .ruleset, .text .ruleId,
    .int .severity, .text .id, .text .name, .text .baseClass, .text .verdict]

def number : Field → Nat
  | .text .path => 1
  | .int .line => 2
  | .int .column => 3
  | .text .message => 4
  | .text .ruleset => 5
  | .text .ruleId => 6
  | .int .severity => 7
  | .text .id => 8
  | .text .name => 9
  | .text .baseClass => 10
  | .text .verdict => 11

def label : Field → String
  | .text .path => "path"
  | .int .line => "line_number"
  | .int .column => "column"
  | .text .message => "error_message"
  | .text .ruleset => "ruleset"
  | .text .ruleId => "rule_id"
  | .int .severity => "severity"
  | .text .id => "id"
  | .text .name => "name"
  | .text .baseClass => "base_class"
  | .text .verdict => "verdict"

end Field

structure Result where
  path : Bytes := []
  line : Int32 := 0
  column : Int32 := 0
  message : Bytes := []
  ruleset : Bytes := []
  ruleId : Bytes := []
  severity : Int32 := 0
  id : Bytes := []
  name : Bytes := []
  baseClass : Bytes := []
  verdict : Bytes := []
  deriving DecidableEq, Inhabited

namespace Result

def text (r : Result) : TextField → Bytes
  | .path => r.path
  | .message => r.message
  | .ruleset => r.ruleset
  | .ruleId => r.ruleId
  | .id => r.id
  | .name => r.name
  | .baseClass => r.baseClass
  | .verdict => r.verdict

def setText (r : Result) (f : TextField) (b : Bytes) : Result :=
  match f with
  | .path => { r with path := b }
  | .message => { r with message := b }
  | .ruleset => { r with ruleset := b }
  | .ruleId => { r with ruleId := b }
  | .id => { r with id := b }
  | .name => { r with name := b }
  | .baseClass => { r with baseClass := b }
  | .verdict => { r with verdict := b }

def int (r : Result) : IntField → Int32
  | .line => r.line
  | .column => r.column
  | .severity => r.severity

def setInt (r : Result) (f : IntField) (n : Int32) : Result :=
  match f with
  | .line => { r with line := n }
  | .column => { r with column := n }
  | .severity => { r with severity := n }

/-- Every text of the result is well-formed UTF-8. -/
def isText (r : Result) : Bool :=
  Field.all.all fun
    | .text f => Bytes.isText (r.text f)
    | .int _ => true

/-- What two reports of the same thing have in common. -/
structure Key where
  path : Bytes
  line : Int32
  column : Int32
  message : Bytes
  deriving DecidableEq

def key (r : Result) : Key :=
  ⟨r.path, r.line, r.column, r.message⟩

/-- The order by path, then line, then column, then message. -/
def Key.le (a b : Key) : Bool :=
  if a.path ≠ b.path then decide (a.path < b.path)
  else if a.line ≠ b.line then decide (a.line < b.line)
  else if a.column ≠ b.column then decide (a.column < b.column)
  else decide (a.message ≤ b.message)

end Result

/-! ## Identities -/

def decimal (n : Int32) : Bytes :=
  Bytes.ofString n.toInt.repr

/-- Texts with a zero byte between them. -/
def zeroSeparated (parts : List Bytes) : Bytes :=
  List.intercalate [0] parts

/-- The identity that the other fields give. -/
def Result.identity (r : Result) : Bytes :=
  Bytes.ofString (Uuid.ofName Uuid.oidSpace
    (zeroSeparated [r.ruleset, r.ruleId, r.path, decimal r.line, decimal r.column, r.message]))

/-! ## Lists of results -/

/-- A list of results. -/
abbrev Results := List Result

namespace Results

/-- Adds a result unless its key is there already. No set of the stored keys is kept beside the list: such a
set starts empty and gains the key of each result that is added, so a key is stored exactly if a result of
the list has it, and the test reads the keys off the list. -/
def add (rs : Results) (r : Result) : Results :=
  if rs.any (·.key = r.key) then rs else rs ++ [r]

def addAll (rs new : Results) : Results :=
  new.foldl add rs

/-- The first result of each key. -/
def unique (rs : Results) : Results :=
  addAll [] rs

/-- Sorted by key; results of one key keep their order. -/
def sorted (rs : Results) : Results :=
  rs.mergeSort fun a b => a.key.le b.key

/-- Gives an identity to every result without one. -/
def identified (rs : Results) : Results :=
  rs.map fun r => if r.id = [] then { r with id := r.identity } else r

end Results

end TwoPhase
