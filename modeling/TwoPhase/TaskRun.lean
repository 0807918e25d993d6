import TwoPhase.RuleTag
import TwoPhase.Severity
import TwoPhase.Workspace

/-!
# Running tasks

A task checks one rule. Tasks run side by side, and their outcomes arrive at a collector in any order:
`Collection.add` says what one arrival changes, and `Collection.ofArrivals` what a whole list of them comes
to when the collector stops at some point. `TaskRun` adds what is shown on the way: lines at the start and
the end of each task, and a progress file. The collector looks for an interrupt at every arrival; when it has
noticed one it drops that arrival and takes up nothing more.
-/

namespace TwoPhase

/-- What becomes of a task. -/
inductive TaskOutcome where
  | crashed
  | failed (message : String)
  | nothing
  | found (rs : Results)

/-- The error of a task. A crash is an error like any other. -/
def TaskOutcome.error? : TaskOutcome → Option String
  | crashed => some "panic in analyze rule"
  | failed message => some message
  | nothing => none
  | found _ => none

/-- The outcome of task `id`, with the rule and the custom severity of its results. -/
structure Arrival where
  id : Int
  rule : String
  severity : String := ""
  outcome : TaskOutcome

/-- The results as they are reported: tagged with their rule, and with a severity. -/
def Arrival.results (a : Arrival) : Results :=
  match a.outcome with
  | .found rs => Results.addSeverity (rs.map (Result.tag a.rule)) a.rule a.severity
  | _ => []

/-- What has been collected. Task `i` has place `i` in the list of errors. -/
structure Collection where
  results : Results := []
  errors : List (Option String)

namespace Collection

def ofSize (tasks : Nat) : Collection where
  errors := List.replicate tasks none

/-- An arrival without a place keeps its error for itself. -/
def add (c : Collection) (a : Arrival) : Collection where
  results := c.results ++ a.results
  errors := if a.id < 0 then c.errors else c.errors.set a.id.toNat a.outcome.error?

/-- The collection after the first arrivals, all of them if there is no `stop`. -/
def ofArrivals (tasks : Nat) (arrivals : List Arrival) (stop : Option Nat) : Collection :=
  ((match stop with
    | some k => arrivals.take k
    | none => arrivals)).foldl add (ofSize tasks)

end Collection

/-- Whether a run was interrupted, and whether the collector has noticed. -/
inductive Interrupt where
  | none
  | pending
  | noticed
  deriving DecidableEq

/-- How a run shows itself. -/
structure TaskDisplay where
  clock : Clock
  lang : Language
  progress : Bool
  /-- The directory of the progress file. -/
  dir : String

structure TaskRun where
  display : TaskDisplay
  total : Nat
  started : Nat := 0
  finished : Nat := 0
  collected : Collection
  interrupt : Interrupt := .none

namespace TaskRun

/-- A run of `total` tasks. If the number of workers is left open, the processors count, and the run says
so. -/
def start (w : Workspace) (d : TaskDisplay) (total : Nat) (workers processors : Int) :
    Workspace × TaskRun :=
  let run : TaskRun := { display := d, total, collected := Collection.ofSize total }
  if workers = 0 ∧ d.progress then
    (w.announce d.clock (Phrase.say d.lang Phrase.useProcessors [.int processors]), run)
  else (w, run)

/-- The share of finished tasks. -/
def ratio (r : TaskRun) : String :=
  percentText (Int64.ofNat r.finished) (Int64.ofNat r.total)

/-- A task begins. -/
def begin (w : Workspace) (r : TaskRun) (rule : String) : Workspace × TaskRun :=
  let r := { r with started := r.started + 1 }
  let d := r.display
  if d.progress then
    (w.announce d.clock (Phrase.say d.lang Phrase.startTask
      [.text (Bytes.ofString rule), .int r.started, .int r.total]), r)
  else (w, r)

/-- A task ends. A crashed one leaves the progress file alone. -/
def finish (w : Workspace) (r : TaskRun) (a : Arrival) : Workspace × TaskRun :=
  let r := { r with finished := r.finished + 1 }
  let d := r.display
  if d.progress then
    let w := w.announce d.clock (Phrase.say d.lang Phrase.finishTask
      [.text (Bytes.ofString a.rule), .text (Bytes.ofString r.ratio), .int r.finished,
        .int r.total, .text (Bytes.ofString d.clock.elapsed)])
    match a.outcome with
    | .crashed => (w, r)
    | _ => (w.writeProgress d.clock d.dir .checking r.ratio, r)
  else (w, r)

/-- An outcome reaches the collector, which looks for an interrupt first. -/
def deliver (w : Workspace) (r : TaskRun) (a : Arrival) : Workspace × TaskRun :=
  match r.interrupt with
  | .none => (w, { r with collected := r.collected.add a })
  | .pending =>
    let d := r.display
    (if d.progress then w.announce d.clock (Phrase.say d.lang Phrase.interrupted []) else w,
      { r with interrupt := .noticed })
  | .noticed => (w, r)

/-- A task that has begun comes to its end, and its outcome to the collector. -/
def complete (w : Workspace) (r : TaskRun) (a : Arrival) : Workspace × TaskRun :=
  let (w, r) := r.finish w a
  r.deliver w a

/-- Runs one task. -/
def perform (w : Workspace) (r : TaskRun) (a : Arrival) : Workspace × TaskRun :=
  let (w, r) := r.begin w a.rule
  r.complete w a

/-- Someone wants the run to stop. -/
def requestStop (r : TaskRun) : TaskRun :=
  if r.interrupt = .none then { r with interrupt := .pending } else r

/-- The collector has stopped. -/
def isStopping (r : TaskRun) : Bool :=
  r.interrupt == .noticed

end TaskRun

end TwoPhase
