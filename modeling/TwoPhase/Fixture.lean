import TwoPhase.Report.TextForm
import TwoPhase.RuleRun
import TwoPhase.Session

/-!
# Fixtures

A fixture is a directory with dumps and, in `expected.textproto`, the results that a rule should find in
them. Only what does not depend on the rule set is compared: of a message, the first line.
-/

namespace TwoPhase

structure Fixture where
  srcDir : String
  dumpDir : String
  options : RuleOptions

/-- What the author of a fixture expects. -/
inductive Expectation where
  | success
  | failure
  | error

/-- Why a fixture does not hold. -/
inductive FixtureError where
  | options (e : OptionsError)
  | checker (e : AnalysisError)
  | unreadable (e : FileError)
  | malformed (e : FormatFault)
  | different
  | same
  | noError

namespace Fixture

/-- The fixture in a directory, with the options of its rule. -/
def ofDir (t : FileTree) (dir options : String) : Except FixtureError Fixture := do
  let full := if Path.isAbsolute dir then Path.clean dir else Path.join [t.workingDir, dir]
  let options ← (RuleOptions.ofJson options).mapError .options
  return { srcDir := full, dumpDir := full, options }

/-- The findings of a rule set in the fixture. -/
def analyze (f : Fixture) (t : FileTree) (s : RuleSet) : Except AnalysisError Results :=
  s.analyze t { srcDir := f.srcDir, dumpDir := f.dumpDir, lang := .english } f.options

/-- The part of a result that is compared. -/
def comparable (r : Result) : Result where
  path := r.path
  line := r.line
  column := r.column
  message := r.message.takeWhile (· ≠ 0x0a)
  name := r.name
  baseClass := r.baseClass
  verdict := r.verdict

/-- The expected results, whose paths are below the fixture. -/
def expected (f : Fixture) (t : FileTree) : Except FixtureError Results := do
  let content ← (t.content (Path.join [f.srcDir, "expected.textproto"])).mapError .unreadable
  let rs ← (TextForm.read? content).mapError .malformed
  return rs.map fun r => { r with path := Path.joinLists [Bytes.ofString f.srcDir, r.path] }

/-- Compares findings with what is expected. -/
def meets (f : Fixture) (t : FileTree) (rs : Results) : Except FixtureError Bool := do
  return (← f.expected t) == rs.map comparable

/-- Checks the expectation of a fixture. -/
def check (f : Fixture) (t : FileTree) (s : RuleSet) (e : Expectation) : Except FixtureError Unit :=
  match e, f.analyze t s with
  | .error, .error _ => .ok ()
  | .error, .ok _ => .error .noError
  | _, .error e => .error (.checker e)
  | .success, .ok rs => do
    if !(← f.meets t rs) then throw .different
  | .failure, .ok rs => do
    if ← f.meets t rs then throw .same

end Fixture

end TwoPhase
