import TwoPhase.RuleTag
import TwoPhase.SourceExcerpt

/-!
# Listings for readers

Every result is listed with its place, its message, the full name of its rule, and the source around it if
the file can be read. At the end, on demand, stands how often each rule occurs.
-/

namespace TwoPhase

/-- One result with the source around it. -/
def Result.listing (t : FileTree) (charset : String) (r : Result) : Bytes :=
  let place := r.path ++ Bytes.ofString ":" ++ decimal r.line ++
    (if 0 < r.column then Bytes.ofString ":" ++ decimal r.column else [])
  let name := RuleTag.fullName r.message
  let code := match excerpt t (Bytes.display r.path) r.line charset with
    | .ok text => text
    | .error _ => []
  place ++ Bytes.ofString ": " ++ r.message ++ [0x0a]
    ++ (if name = [] then [] else Bytes.ofString "(" ++ name ++ Bytes.ofString ")\n")
    ++ code ++ [0x0a]

namespace Results

/-- How often each rule occurs, a line for each, in the order of the lines. -/
def ruleCounts (rs : Results) : List Bytes :=
  let rules := rs.map (·.ruleId)
  (rules.eraseDups.map fun rule =>
    Bytes.ofString ("count: " ++ toString (rules.count rule) ++ " rule: ") ++ rule ++ [0x0a]).mergeSort
      (fun a b => decide (a ≤ b))

/-- All results, sorted, and the counts of their rules. -/
def listing (rs : Results) (t : FileTree) (counts : Bool) (charset : String) : Bytes :=
  (rs.sorted.flatMap (·.listing t charset)) ++ (if counts then rs.ruleCounts.flatten else [])

end Results

end TwoPhase
