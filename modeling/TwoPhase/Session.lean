import TwoPhase.CompileCommands
import TwoPhase.LineCount
import TwoPhase.Report.Filter
import TwoPhase.Report.JsonForm
import TwoPhase.Report.Listing
import TwoPhase.Report.Wire
import TwoPhase.RunOptions

/-!
# Sessions

A session is one run of the program: it finds the sources, counts their lines, exports dumps if it is told
to, checks both rule sets, and writes and shows the results. A step that cannot go on ends the session with
a `Fatal` cause; what was written and printed before stays.
-/

namespace TwoPhase

open WorkspaceM

/-! ## Directories -/

inductive ResultsDirError where
  | isFile
  | cause (e : FileError)
  deriving DecidableEq

def ResultsDirError.message : ResultsDirError → String
  | isFile => "file already exists"
  | cause e => e.message

/-- Makes the directory for results, unless it is there. -/
def FileTree.makeResultsDir (t : FileTree) (dir : String) : Except ResultsDirError FileTree :=
  match t.stat dir with
  | .ok .directory => .ok t
  | .ok (.file ..) => .error .isFile
  | .error e =>
    if e.fault = .missing then (t.makeDirs dir).mapError .cause else .error (.cause e)

/-- A relative path below `dir` as a path from the root. It has to lead somewhere. -/
def FileTree.absolute (t : FileTree) (dir path : String) : Except FileError String :=
  if Path.isAbsolute path then .ok path
  else
    let full := Path.join [dir, path]
    match t.stat full with
    | .ok _ => .ok full
    | .error e => if e.fault = .missing then .error e else .ok full

/-- What is said when a relative path leads nowhere. -/
def notAbsolute (e : FileError) : String :=
  "convertRelativePathToAbsolute: " ++ e.message

/-- The working directory as a path. -/
def FileTree.workingDir (t : FileTree) : String :=
  "/" ++ "/".intercalate t.here

/-- The place of the compilation database of a source directory. -/
def compileCommandsPath (srcDir : String) : String :=
  Path.join [srcDir, "compile_commands.json"]

/-! ## Causes of an early end -/

inductive Fatal where
  | logDir (e : FileError)
  | workers (e : WorkersError)
  | resultsDir (e : ResultsDirError)
  | relativeConfigDir
  | srcDir (e : FileError)
  | database (e : CompileCommandsError)
  | codeLines (e : FileError)
  | exporting (e : ExportError)
  | ruleDir (e : RuleDirError)
  | notText
  | write (e : ReplaceError)
  deriving DecidableEq

/-- The sources cannot be counted. -/
def codeLinesMessage (e : FileError) : String :=
  "failed to check cpp lines: " ++ LineCount.complaint e

def Fatal.message : Fatal → String
  | logDir e => "failed to create log dir: " ++ e.message
  | workers e => "options.ParseNumWorkers: " ++ e.message
  | resultsDir e => "failed to create result dir: " ++ e.message
  | relativeConfigDir => "configDir must be an absolute path"
  | srcDir e => "invalid src_dir: " ++ notAbsolute e
  | database e => "failed to read compilation database: " ++ e.message
  | codeLines e => "options.CheckCodeLines: " ++ codeLinesMessage e
  | exporting e => "failed to export scope dumps: " ++ e.message
  | ruleDir e => e.message
  | notText => "invalid UTF-8"
  | write e => e.message

/-! ## Steps -/

/-- Counts the lines of the sources, says how many there are, and leaves the number with the results. -/
def checkCodeLines (clock : Clock) (o : RunOptions) (w : Workspace) (sources : List String) :
    Except FileError (Workspace × Nat) := do
  let n ← countLines w.tree sources LineCount.cppKinds o.ignore
  let w :=
    if o.progress ∧ o.showLineNumber then
      w.announce clock (Phrase.say o.language Phrase.codeLines [.int n])
    else w
  return (w.note (Path.join [o.resultsDir, "loc.nsa_metadata"]) (toString n), n)

/-- The rules that the configuration asks for: the YAML form if there is one. A list that cannot be read
is empty. -/
def requestedRules (t : FileTree) (configDir : String) : RuleList :=
  let path := Path.join [configDir, "check_rules"]
  let path := if t.stat (path ++ ".yaml") matches .ok _ then path ++ ".yaml" else path
  match RuleList.read t path with
  | .ok rules => rules
  | .error _ => []

/-- The results of a rule set that are reported: those in C++ files below the sources, not ignored, and no
more of a rule than is asked for. -/
def reported (o : RunOptions) (srcDir : String) (rules : RuleList) (rs : Results) : Results :=
  (((rs.dropC).below (Bytes.ofString srcDir)).dropIgnored o.ignore).limit rules.limits

/-- Checks the rule sets, and joins what is reported. -/
def checkRuleSets (around : Surroundings) (env : Settings) (o : RunOptions) (srcDir : String)
    (rules : RuleList) : List RuleSet → WorkspaceM Fatal Results
  | [] => return []
  | s :: more => do
    let mine := rules.withStart s.name
    let found ← (s.check around env srcDir mine).adapt .ruleDir
    let rs := (found.map (reported o srcDir mine)).getD []
    return rs ++ (← checkRuleSets around env o srcDir rules more)

/-- The final list of results. -/
def finalResults (rs : Results) : Results :=
  (Results.unique rs).sorted.identified

def saveResults (path : String) (content : Except FormatFault Bytes) : WorkspaceM Fatal Unit := do
  match content with
  | .error _ => throw .notText
  | .ok b => putTree (← orFail .write ((← tree).replace path b))

/-- Writes the results twice in binary form, and as JSON if that is asked for. -/
def writeResults (o : RunOptions) (rs : Results) : WorkspaceM Fatal Unit := do
  let path (name : String) : String := Path.join [o.resultsDir, name]
  saveResults (path "results") (Wire.write? rs)
  saveResults (path "results.nsa_results") (Wire.write? rs)
  if o.jsonResults then
    saveResults (path "nsa_results.json") ((JsonForm.write? rs).map Bytes.ofString)

/-- Says what has been found. -/
def showResults (around : Surroundings) (o : RunOptions) (rs : Results) : WorkspaceM Fatal Unit := do
  modify fun w => w.note (Path.join [o.resultsDir, "severity_stats.nsa_metadata"]) rs.severityText
  if o.progress then
    modify fun w => w.writeProgress around.clock o.resultsDir .finished "100%"
  if o.showResults then
    modify fun w => w.print (rs.listing w.tree o.showResultsCount o.charset)
  modify fun w => w.printLine (Phrase.say o.language Phrase.resultsCount [.int rs.length])
  if o.progress then
    modify fun w => w.announce around.clock (Phrase.say o.language Phrase.totalTime
      [.text (Bytes.ofString around.clock.elapsed)])

/-- The directory of the log. -/
def RunOptions.theLogDir (o : RunOptions) : String :=
  if o.logDir = "" then Path.join [o.resultsDir, "logs"] else o.logDir

/-- The source directory as an absolute path. -/
def findSrcDir (o : RunOptions) : WorkspaceM Fatal String := do
  let t ← tree
  orFail .srcDir (t.absolute t.workingDir o.srcDir)

/-- A whole session. -/
def session (around : Surroundings) (o : RunOptions) : WorkspaceM Fatal Unit := do
  putTree (← orFail .logDir ((← tree).makeDirs o.theLogDir))
  modify fun w => w.printLine (Bytes.ofString "(c) 2023 Naive Systems Ltd.")
  let workers ← orFail .workers (workersOf around.processors o.workers)
  putTree (← orFail .resultsDir ((← tree).makeResultsDir o.resultsDir))
  if !Path.isAbsolute o.configDir then throw .relativeConfigDir
  let srcDir ← findSrcDir o
  let database := compileCommandsPath srcDir
  let commands ← orFail .database (CompileCommands.read (← tree) database)
  let sources := commands.sources o.ignore
  let (w, _) ← orFail .codeLines (checkCodeLines around.clock o (← get) sources)
  set w
  let env := o.settings workers
  if env.exporter ≠ "" then
    let (w, outcome) := exportDumps around env (← get) database sources
    set w
    let _ ← orFail .exporting outcome
  let rules := requestedRules (← tree) o.configDir
  let rs ← checkRuleSets around env o srcDir rules RuleSet.all
  let rs := finalResults rs
  writeResults o rs
  showResults around o rs

/-! ## The program -/

/-- How a run of the program ends. -/
inductive Ending where
  | done
  | refused (e : FlagError)
  | stopped (e : Fatal)

def Ending.exitCode : Ending → UInt8
  | done => 0
  | refused .help => 0
  | refused _ => 2
  | stopped _ => 255

/-- Runs the program with a command line. -/
def runProgram (around : Surroundings) (t : FileTree) (args : List String) : Workspace × Ending :=
  let start : Workspace := { tree := t }
  match RunOptions.allFlags.parse {} args with
  | .error e => (start, .refused e)
  | .ok (o, _) =>
    match (session around o).run start with
    | (.ok _, w) => (w, .done)
    | (.error e, w) => (w, .stopped e)

end TwoPhase
