import TwoPhase.AtomicWrite
import TwoPhase.DumpStore
import TwoPhase.Phrase
import TwoPhase.Report.Result
import TwoPhase.RuleOptions
import TwoPhase.Scope.Build
import TwoPhase.Severity
import TwoPhase.Verdict

/-!
# The analysis

Every dump is judged on its own: `Finding.result` says what a finding becomes in the report, and
`checkUnit` lists the results of a unit. `mergeUnits` joins the results of several units, each key once
and in order, so that the order of the units does not matter for what is reported. There are two rules,
which differ in their wording only.
-/

namespace TwoPhase

/-- The two rule sets, each with one rule. -/
inductive RuleSet where
  | misra
  | autosar
  deriving DecidableEq

namespace RuleSet

def all : List RuleSet :=
  [misra, autosar]

def name : RuleSet → String
  | misra => "misra_cpp_2008"
  | autosar => "autosar"

/-- The rule that the set checks. -/
def rule : RuleSet → String
  | misra => "rule_14_6_1"
  | autosar => "rule_M14_6_1"

def ofName? (name : String) : Option RuleSet :=
  all.find? (·.name == name)

/-- What is said about a rule set that does not exist. -/
def complaint (name : String) : String :=
  "No such rule runner found: " ++ name

/-- The name of the set may stand before the name of its rule. -/
def checks (s : RuleSet) (rule : String) : Bool :=
  rule == s.rule || rule == s.name ++ "/" ++ s.rule

end RuleSet

/-- Where a file of a dump lies: below the source directory, unless it has no name or an absolute one. -/
def sourcePath (srcDir file : String) : String :=
  if file = "" ∨ Path.isAbsolute file ∨ srcDir = "" then file else Path.join [srcDir, file]

namespace Finding

/-- Findings that become results. Compliant and qualified uses are reported on demand. -/
def isReported (f : Finding) (compliant : Bool) : Bool :=
  match f.verdict with
  | .nonCompliant => true
  | .compliant => compliant
  | .notApplicable => compliant && f.reason == .qualified

def baseText (f : Finding) : String :=
  match f.base with
  | some b => b.type.text
  | none => ""

/-- The text from which the identity of a result is made. -/
def resultKey (r : Result) : Bytes :=
  zeroSeparated [Bytes.ofString "misra_cpp_2008/rule_14_6_1", r.path, decimal r.line, decimal r.column,
    r.name, r.verdict]

/-- The result of a finding. -/
def result (lang : Language) (srcDir : String) (f : Finding) : Result :=
  let bad := f.verdict == .nonCompliant
  let base := if bad then f.baseText else ""
  let r : Result :=
    { path := Bytes.ofString (sourcePath srcDir f.use.loc.file)
      line := Int32.ofInt f.use.loc.line
      column := Int32.ofInt f.use.loc.column
      name := Bytes.ofString f.use.name
      baseClass := Bytes.ofString base
      verdict := if bad then Result.nonCompliantText else Result.compliantText
      message :=
        if bad then
          Phrase.say lang Phrase.dependentBase
            [.text (Bytes.ofString f.use.name), .text (Bytes.ofString base)]
        else Phrase.say lang Phrase.compliant [.text (Bytes.ofString f.use.name)] }
  { r with id := Bytes.ofString (Uuid.ofName Uuid.oidSpace (resultKey r)) }

/-- A line of the log of verdicts. -/
def logLine (srcDir : String) (f : Finding) : String :=
  sourcePath srcDir f.use.loc.file ++ ":" ++ f.use.loc.line.repr ++ ":" ++ f.use.loc.column.repr ++ ": "
    ++ f.use.name ++ ": " ++ f.verdict.text ++ " (" ++ f.reason.text ++ ")"
    ++ (match f.base with
      | some b => " via " ++ b.type.text
      | none => "")

end Finding

/-- All findings in a unit under the options of a rule. -/
def unitFindings (o : RuleOptions) (u : CompilationUnit) : List Finding :=
  u.model.findings o.thePolicy o.follows

/-- The results of a unit. -/
def checkUnit (o : RuleOptions) (lang : Language) (srcDir : String) (u : CompilationUnit) : Results :=
  ((unitFindings o u).filter (·.isReported o.reportsCompliant)).map (Finding.result lang srcDir)

/-- The results of all units together. -/
def mergeUnits (units : List Results) : Results :=
  (Results.unique units.flatten).sorted

/-- The units that can be read. -/
def FileTree.units (t : FileTree) (dumps : List String) : List CompilationUnit :=
  dumps.filterMap fun d =>
    match t.loadDump d with
    | .ok u => some u
    | .error _ => none

/-- What the log of verdicts says about a unit. -/
def unitLog (o : RuleOptions) (srcDir : String) (u : CompilationUnit) : List String :=
  (unitFindings o u).map (Finding.logLine srcDir)

/-- The text of a log, in the order of its lines. -/
def logText (lines : List String) : String :=
  String.join ((lines.mergeSort fun a b => decide (a ≤ b)).map (· ++ "\n"))

/-- The log of verdicts on the units. -/
def verdictLog (o : RuleOptions) (srcDir : String) (us : List CompilationUnit) : String :=
  logText (us.flatMap (unitLog o srcDir))

/-- The results of the rule about dependent bases. -/
def checkDumps (t : FileTree) (o : RuleOptions) (lang : Language) (srcDir : String)
    (dumps : List String) : Results :=
  mergeUnits ((t.units dumps).map (checkUnit o lang srcDir))

/-- What an analysis needs beside the options of its rule. A log of verdicts is written into `logDir`, if
there is one. -/
structure AnalysisInput where
  srcDir : String
  dumpDir : String
  lang : Language
  logDir : Option String := none

/-- The dump directory is not there. -/
structure AnalysisError where
  cause : FileError
  deriving DecidableEq

def AnalysisError.message (e : AnalysisError) : String :=
  "scope dumps unavailable: " ++ e.cause.message

/-- Checks the dumps of a directory. -/
def analyzeBases (t : FileTree) (i : AnalysisInput) (o : RuleOptions) :
    Except AnalysisError Results :=
  match t.stat i.dumpDir with
  | .error e => .error ⟨e⟩
  | .ok _ => .ok (checkDumps t o i.lang i.srcDir (t.dumps i.dumpDir))

/-- The wording of the second rule for a result. -/
def Result.autosarWording (lang : Language) (r : Result) : Result :=
  if r.verdict = Result.nonCompliantText then
    { r with
      message := Phrase.say lang Phrase.autosarDependentBase [.text r.name, .text r.baseClass] }
  else r

/-- The results of a rule. -/
def RuleSet.analyze (s : RuleSet) (t : FileTree) (i : AnalysisInput) (o : RuleOptions) :
    Except AnalysisError Results :=
  match s with
  | .misra => analyzeBases t i o
  | .autosar => (analyzeBases t i o).map (·.map (Result.autosarWording i.lang))

/-- The files after an analysis, which writes its log. -/
def logVerdicts (t : FileTree) (i : AnalysisInput) (o : RuleOptions) : FileTree :=
  match i.logDir, t.stat i.dumpDir with
  | some dir, .ok _ =>
    t.replaceOrKeep (Path.join [dir, "verdicts.log"])
      (Bytes.ofString (verdictLog o i.srcDir (t.units (t.dumps i.dumpDir))))
  | _, _ => t

end TwoPhase
