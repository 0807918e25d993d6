import TwoPhase.Flags
import TwoPhase.Numeral
import TwoPhase.RuleRun

/-!
# Options of a run

What the command line can set. `RunOptions.flags` are the flags of a run, and `RunOptions.allFlags` adds
those of the log, of which only the directory matters to a run.
-/

namespace TwoPhase

structure RunOptions where
  progress : Bool := true
  configDir : String := "/config"
  debug : Bool := false
  dumpDir : String := ""
  exporterArgs : String := ""
  exporter : String := ""
  ignore : List String := []
  lang : String := "zh"
  workers : String := "0"
  resultsDir : String := "/output"
  jsonResults : Bool := true
  showLineNumber : Bool := true
  showResults : Bool := false
  showResultsCount : Bool := false
  charset : String := "utf8"
  srcDir : String := "/src"
  timeout : Int := 90
  logDir : String := ""
  deriving DecidableEq

namespace RunOptions

def language (o : RunOptions) : Language :=
  Language.ofCode o.lang

/-! ## Flags -/

def faultText : Numeral.Fault → String
  | .malformed => "parse error"
  | .outOfRange => "value out of range"

/-- A flag whose value is any text. -/
def textFlag (set : String → RunOptions → RunOptions) : FlagAction RunOptions :=
  .value fun s o => .ok (set s o)

def flags : Flags RunOptions :=
  [("check_progress", .switch fun b o => { o with progress := b }),
   ("config_dir", textFlag fun s o => { o with configDir := s }),
   ("debug_mode", .switch fun b o => { o with debug := b }),
   ("dump_dir", textFlag fun s o => { o with dumpDir := s }),
   ("exporter_args", textFlag fun s o => { o with exporterArgs := s }),
   ("exporter_bin", textFlag fun s o => { o with exporter := s }),
   ("lang", textFlag fun s o => { o with lang := s }),
   ("num_workers", textFlag fun s o => { o with workers := s }),
   ("results_dir", textFlag fun s o => { o with resultsDir := s }),
   ("json_results", .switch fun b o => { o with jsonResults := b }),
   ("show_line_number", .switch fun b o => { o with showLineNumber := b }),
   ("show_results", .switch fun b o => { o with showResults := b }),
   ("show_results_count", .switch fun b o => { o with showResultsCount := b }),
   ("source_charset", textFlag fun s o => { o with charset := s }),
   ("src_dir", textFlag fun s o => { o with srcDir := s }),
   ("timeout_normal", .value fun s o =>
      match Numeral.parse true 64 s with
      | .ok n => .ok { o with timeout := n }
      | .error e => .error (faultText e)),
   ("ignore_dir", textFlag fun s o => { o with ignore := o.ignore ++ [s] })]

/-! ## Flags of the log -/

/-- A flag whose value is checked and then forgotten. -/
def checkedFlag (isValid : String → Bool) : FlagAction RunOptions :=
  .value fun s o => if isValid s then .ok o else .error "parse error"

def level? (s : String) : Option Int :=
  match Numeral.parse false 32 s with
  | .ok n => some n
  | .error _ => none

/-- The name of a log level, or a number. -/
def isThreshold (s : String) : Bool :=
  ["INFO", "WARNING", "ERROR", "FATAL"].contains (Text.upper s) || (level? s).isSome

/-- Levels by file, such as `main=2,scope*=1`. -/
def isLevelList (s : String) : Bool :=
  (Text.splitAt ',' s).all fun item =>
    item == "" ||
      match Text.splitAt '=' item with
      | [name, level] => name != "" && (match level? level with
        | some n => decide (0 ≤ n)
        | none => false)
      | _ => false

/-- A line of a file, such as `main.x:12`. -/
def isFileLine (s : String) : Bool :=
  match Text.splitAt ':' s with
  | [file, line] => file.toList.contains '.' && (match Numeral.parse false 64 line with
    | .ok n => decide (0 < n)
    | .error _ => false)
  | _ => false

def logFlags : Flags RunOptions :=
  [("log_dir", textFlag fun s o => { o with logDir := s }),
   ("logtostderr", .switch fun _ o => o),
   ("alsologtostderr", .switch fun _ o => o),
   ("stderrthreshold", checkedFlag isThreshold),
   ("v", checkedFlag fun s => (level? s).isSome),
   ("vmodule", checkedFlag isLevelList),
   ("log_backtrace_at", checkedFlag isFileLine)]

def allFlags : Flags RunOptions :=
  flags ++ logFlags

/-! ## Settings -/

/-- Dumps lie below the results unless another place is given. -/
def settings (o : RunOptions) (workers : Int) : Settings where
  resultsDir := o.resultsDir
  dumpDir := if o.dumpDir = "" then Path.join [o.resultsDir, "scope"] else o.dumpDir
  exporter := o.exporter
  exporterArgs := o.exporterArgs
  ignore := o.ignore
  progress := o.progress
  debug := o.debug
  workers := workers
  timeout := o.timeout
  lang := o.lang

end RunOptions

/-- Why a number of workers is refused. -/
inductive WorkersError where
  | malformed (text : String)
  | outOfRange (text : String)
  | negative (n : Int)
  deriving DecidableEq

def WorkersError.message : WorkersError → String
  | malformed text =>
    "invalid number of workers: strconv.ParseInt: parsing " ++ Text.quoted text ++ ": invalid syntax"
  | outOfRange text =>
    "invalid number of workers: strconv.ParseInt: parsing " ++ Text.quoted text
      ++ ": value out of range"
  | negative n => "invalid number of workers: " ++ n.repr

/-- The number of workers; zero stands for one per processor. -/
def workersOf (processors : Int) (text : String) : Except WorkersError Int :=
  match Numeral.parse false 32 text with
  | .error .malformed => .error (.malformed text)
  | .error .outOfRange => .error (.outOfRange text)
  | .ok n => if n < 0 then .error (.negative n) else .ok (if n = 0 then processors else n)

end TwoPhase
