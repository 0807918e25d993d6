import TwoPhase.Json.Value
import TwoPhase.Report.Wire

/-!
# Results as JSON

An object with a list of results, two blanks of indentation a level. Fields that are empty or zero are
left out, and so is an empty list. Inside strings, angle brackets, the ampersand and the two Unicode line
separators are escaped as well, so that the text can stand inside a web page.
-/

namespace TwoPhase

namespace JsonForm

def member? (r : Result) (f : Field) : Option String :=
  match f with
  | .text t =>
    if r.text t = [] then none else some ("      \"" ++ f.label ++ "\": " ++ Json.webQuoted (Bytes.chars (r.text t)))
  | .int i =>
    if r.int i = 0 then none
    else some ("      \"" ++ f.label ++ "\": " ++ (r.int i).toInt.repr)

def writeResult (r : Result) : String :=
  match Field.all.filterMap (member? r) with
  | [] => "    \x7b\x7d"
  | ms => "    \x7b\n" ++ ",\n".intercalate ms ++ "\n    \x7d"

def write? (rs : Results) : Except FormatFault String :=
  if !rs.all Result.isText then .error .notText
  else if rs.isEmpty then .ok "\x7b\x7d"
  else .ok ("\x7b\n  \"results\": [\n" ++ ",\n".intercalate (rs.map writeResult) ++ "\n  ]\n\x7d")

end JsonForm

end TwoPhase
