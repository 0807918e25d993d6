import TwoPhase.Analysis
import TwoPhase.Exporter
import TwoPhase.RuleList
import TwoPhase.TaskRun

/-!
# Checking a rule set

A rule set is checked rule by rule. Every requested rule has a fresh directory of its own, whether the rule
set knows it or not; the analysis of a known rule may leave a log there.
-/

namespace TwoPhase

open WorkspaceM

/-- What all steps of a run share. -/
structure Settings where
  resultsDir : String
  dumpDir : String
  exporter : String := ""
  exporterArgs : String := ""
  ignore : List String := []
  progress : Bool
  debug : Bool
  workers : Int
  timeout : Int := 0
  lang : String
  deriving DecidableEq

def Settings.language (s : Settings) : Language :=
  Language.ofCode s.lang

/-- The surroundings of a run: its clock, the commands and processors that there are, and what programs do. -/
structure Surroundings where
  clock : Clock := {}
  commands : List String := []
  processors : Int := 1
  run : Program

inductive RuleDirError where
  | parent (e : FileError)
  | separator (pattern : String)
  | directory (e : FileError)
  | exhausted (pattern : String)
  deriving DecidableEq

def RuleDirError.message : RuleDirError → String
  | parent e => "failed to create tmp dir: " ++ e.message
  | separator pattern =>
    "failed to create result dir: mkdirtemp " ++ pattern ++ ": pattern contains path separator"
  | directory e => "failed to create result dir: " ++ e.message
  | exhausted pattern => "failed to create result dir: mkdirtemp " ++ pattern ++ ": file already exists"

/-- Makes a fresh directory for a rule: `tmp`, the name of the rule set, and that of the rule with a
number. -/
def makeRuleDir (resultsDir rule : String) : WorkspaceM RuleDirError String := do
  let (set, name) := (RuleTag.editionAndRule? rule).getD (rule, rule)
  let parent := Path.join [resultsDir, "tmp", set]
  putTree (← orFail .parent ((← tree).makeDirs parent))
  if name.toList.contains '/' then throw (.separator (name ++ "-*"))
  let path (n : Nat) : String := FileTree.inside parent (name ++ "-" ++ toString n)
  match (← tree).fresh? path with
  | none => throw (.exhausted (FileTree.inside parent (name ++ "-*")))
  | some dir =>
    putTree (← orFail .directory ((← tree).makeDir dir))
    return dir

/-- The outcome of the analysis of a rule, which also writes its log. -/
def RuleSet.outcome (s : RuleSet) (i : AnalysisInput) (o : RuleOptions) :
    WorkspaceM RuleDirError TaskOutcome := do
  let t ← tree
  putTree (logVerdicts t i o)
  match s.analyze t i o with
  | .ok rs => return .found rs
  | .error e => return .failed e.message

/-- Checks one rule: makes its directory, and runs the analysis if the set has the rule. -/
def RuleSet.checkRule (s : RuleSet) (env : Settings) (srcDir : String) (run : TaskRun) (id : Nat)
    (r : RuleRequest) : WorkspaceM RuleDirError TaskRun := do
  let dir ← makeRuleDir env.resultsDir r.name
  if !s.checks r.name then return run
  let (w, run) := run.begin (← get) r.name
  set w
  let i : AnalysisInput :=
    { srcDir, dumpDir := env.dumpDir, lang := env.language, logDir := if env.debug then some dir else none }
  let outcome ← s.outcome i r.options
  let (w, run) :=
    run.complete (← get) { id, rule := r.name, severity := r.options.severity.getD "", outcome }
  set w
  return run

/-- Checks the rules in order. -/
def RuleSet.checkAll (s : RuleSet) (env : Settings) (srcDir : String) :
    TaskRun → Nat → RuleList → WorkspaceM RuleDirError TaskRun
  | run, _, [] => return run
  | run, id, r :: rs => do s.checkAll env srcDir (← s.checkRule env srcDir run id r) (id + 1) rs

/-- Checks the rules, and collects what comes of them. -/
def RuleSet.run (s : RuleSet) (around : Surroundings) (env : Settings) (srcDir : String)
    (rules : RuleList) : WorkspaceM RuleDirError Collection := do
  let d : TaskDisplay :=
    { clock := around.clock, lang := env.language, progress := env.progress, dir := env.resultsDir }
  let (w, run) := TaskRun.start (← get) d rules.length env.workers around.processors
  set w
  return (← s.checkAll env srcDir run 0 rules).collected

/-- Announces something, if the progress is shown. -/
def announceProgress (around : Surroundings) (env : Settings) (phrase : String)
    (args : List Phrase.Arg) : WorkspaceM RuleDirError Unit :=
  if env.progress then
    modify fun w => w.announce around.clock (Phrase.say env.language phrase args)
  else pure ()

/-- Checks the rules with an announcement before and after; without rules there is nothing to do. -/
def RuleSet.check (s : RuleSet) (around : Surroundings) (env : Settings) (srcDir : String)
    (rules : RuleList) : WorkspaceM RuleDirError (Option Results) := do
  if rules.isEmpty then return none
  announceProgress around env Phrase.startAnalysis []
  if env.progress then
    modify fun w => w.writeProgress around.clock env.resultsDir .checking "0%"
  let c ← s.run around env srcDir rules
  announceProgress around env Phrase.analysisDone [.text (Bytes.ofString around.clock.elapsed)]
  return some c.results

/-- Exports the dumps of the sources, and says how many there are. -/
def exportDumps (around : Surroundings) (env : Settings) (w : Workspace) (database : String)
    (sources : List String) : Workspace × Except ExportError Exporter.Outcome :=
  let progress (w : Workspace) (ratio : String) : Workspace :=
    if env.progress then w.writeProgress around.clock env.resultsDir .dumping ratio else w
  let w :=
    if env.progress then
      progress (w.announce around.clock (Phrase.say env.language Phrase.startExport [])) "0%"
    else w
  match Exporter.ofSettings w.tree around.commands env.exporter env.exporterArgs env.dumpDir database
    env.timeout env.workers with
  | .error e => (w, .error e)
  | .ok e =>
    match e.exportAll around.run w.tree sources with
    | .error e => (w, .error e)
    | .ok o =>
      let w := { w with tree := o.tree }
      let w := w.announce around.clock (Phrase.say env.language Phrase.exported
        [.int o.dumps.length, .int sources.length])
      let w := progress w "100%"
      (w, .ok { o with tree := w.tree })

end TwoPhase
