import TwoPhase.Report.Result
import TwoPhase.Text.CaseMap
import TwoPhase.Text.CharClass
import TwoPhase.Text.Quoted

/-!
# Severity

Results carry their severity as a number. A rule has a default severity, which the options of a run may
replace; results that only document a compliant use are always of the lowest one.
-/

namespace TwoPhase

inductive Severity where
  | unknown
  | highest
  | high
  | medium
  | low
  | lowest
  deriving DecidableEq

namespace Severity

def all : List Severity :=
  [unknown, highest, high, medium, low, lowest]

def name : Severity → String
  | unknown => "unknown"
  | highest => "highest"
  | high => "high"
  | medium => "medium"
  | low => "low"
  | lowest => "lowest"

def toInt32 : Severity → Int32
  | unknown => 0
  | highest => 1
  | high => 2
  | medium => 3
  | low => 4
  | lowest => 5

def ofInt32? (n : Int32) : Option Severity :=
  all.find? (·.toInt32 == n)

/-- The name of a severity number. -/
def describe (n : Int32) : String :=
  match ofInt32? n with
  | some s => s.name
  | none => "Severity(" ++ n.toInt.repr ++ ")"

/-- Reads a name, without regard to case and white space around it. -/
def parse (text : String) : Except String Severity :=
  let text := Text.lower (Text.trim text)
  match all.find? (·.name == text) with
  | some s => .ok s
  | none => .error ("invalid severity " ++ Text.quoted text)

/-- The severity of a rule's results. -/
def ofRule (rule : String) : Severity :=
  if rule = "misra_cpp_2008/rule_14_6_1" ∨ rule = "autosar/rule_M14_6_1" then .medium else .unknown

/-- The severity that a run gives a rule; a custom one that cannot be read is ignored. -/
def forRule (rule custom : String) : Severity :=
  if custom = "" then ofRule rule
  else match parse custom with
    | .ok s => s
    | .error _ => ofRule rule

end Severity

/-- The two verdicts that results carry. -/
def Result.compliantText : Bytes := Bytes.ofString "COMPLIANT"

def Result.nonCompliantText : Bytes := Bytes.ofString "NON_COMPLIANT"

namespace Results

/-- Fills in the severities of a rule's results. -/
def addSeverity (rs : Results) (rule custom : String) : Results :=
  rs.map fun r =>
    { r with severity :=
        (if r.verdict = Result.compliantText then .lowest
          else Severity.forRule rule custom : Severity).toInt32 }

/-- How many results have a severity. -/
def countSeverity (rs : Results) (s : Severity) : Nat :=
  (rs.filter (·.severity == s.toInt32)).length

/-- The number of results of each severity, as JSON. -/
def severityText (rs : Results) : String :=
  let member (s : Severity) : String :=
    "\"" ++ s.name ++ "\":" ++ toString (rs.countSeverity s)
  "\x7b" ++ ",".intercalate
    ([Severity.highest, .high, .medium, .low, .lowest, .unknown].map member) ++ "\x7d"

end Results

end TwoPhase
