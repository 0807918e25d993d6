import TwoPhase.Glob
import TwoPhase.Path
import TwoPhase.Report.Result
import TwoPhase.RuleTag

/-!
# Filters on results

Results are dropped by the suffix of their path, by the directory they are in, by patterns for ignored
paths, and beyond the number that a rule may report. Each filter keeps the order.
-/

namespace TwoPhase.Results

/-- Drops the results in files with one of the suffixes, dot included. -/
def dropSuffixes (rs : Results) (suffixes : List String) : Results :=
  rs.filter fun r => !suffixes.contains (Path.extension (Bytes.display r.path))

/-- Drops the results in C sources, which hold no class templates. -/
def dropC (rs : Results) : Results :=
  rs.dropSuffixes [".c"]

/-- Puts relative paths below a directory, and drops the results whose path does not start with it. -/
def below (rs : Results) (dir : Bytes) : Results :=
  (rs.map fun r =>
    if Path.isAbs r.path then r else { r with path := Path.joinLists [dir, r.path] }).filter
      fun r => dir.isPrefixOf r.path

/-- A path that one of the patterns matches; if a pattern is malformed, the path counts as not matched. -/
def isIgnored (patterns : List String) (path : Bytes) : Bool :=
  match Glob.matchesAny (Bytes.chars path) patterns with
  | .ok b => b
  | .error _ => false

/-- Drops the results with ignored paths. -/
def dropIgnored (rs : Results) (patterns : List String) : Results :=
  rs.filter fun r => !isIgnored patterns r.path

/-- Keeps the first results of each rule, as many as the rule's limit. `seen` holds the rules of the results
kept so far; the last limit for a rule counts, and results without a rule are all kept. -/
def limitFrom (limits : List (Bytes × Int)) : List Bytes → Results → Results
  | _, [] => []
  | seen, r :: rs =>
    match r.rule? with
    | none => r :: limitFrom limits seen rs
    | some rule =>
      match limits.reverse.lookup rule with
      | none => r :: limitFrom limits seen rs
      | some limit =>
        if (seen.count rule : Int) < limit then r :: limitFrom limits (rule :: seen) rs
        else limitFrom limits seen rs

def limit (rs : Results) (limits : List (Bytes × Int)) : Results :=
  limitFrom limits [] rs

end TwoPhase.Results
