import TwoPhase.FileTree
import TwoPhase.RuleOptions
import TwoPhase.Text.Split

/-!
# Lists of rules to check

In the plain form every line names a rule, followed by its options as JSON; blank lines and lines that start
with a number sign are left out. In the YAML form a mapping gives each rule its options, or a list gives
records of a key and a value.
-/

namespace TwoPhase

/-- A rule to check, with its options. -/
structure RuleRequest where
  name : String
  options : RuleOptions := {}
  deriving DecidableEq, Inhabited

inductive RuleListError where
  | file (e : FileError)
  | lineTooLong
  | options (rule : String) (e : OptionsError)
  | yaml
  | nameNotText (name : String)
  deriving DecidableEq

def RuleListError.message : RuleListError → String
  | file e => e.message
  | lineTooLong => TwoPhase.lineTooLong
  | options rule e => e.message rule
  | yaml => "yaml.Unmarshal"
  | nameNotText name => "rule name " ++ name ++ " is not a string"

namespace RuleRequest

def ofJson (name options : String) : Except OptionsError RuleRequest := do
  return { name, options := ← RuleOptions.ofJson options }

/-- A line without the white space around it: a rule and, behind the first blank, its options. -/
def ofLine (line : List Char) : Except RuleListError RuleRequest :=
  let name := String.ofList (line.takeWhile (· ≠ ' '))
  let options := match line.dropWhile (· ≠ ' ') with
    | [] => "\x7b\x7d"
    | _ :: cs => String.ofList cs
  (ofJson name options).mapError (.options name)

def ofYamlPair (key value : Yaml.Value) : Except RuleListError RuleRequest :=
  match key with
  | .scalar (.text name) =>
    match RuleOptions.ofYaml value with
    | .ok options => .ok { name, options }
    | .error e => .error (.options name e)
  | key => .error (.nameNotText key.describe)

end RuleRequest

/-- The rules to check, in order. -/
abbrev RuleList := List RuleRequest

namespace RuleList

/-- The lines that name a rule, without the white space around them. -/
def ruleLines (lines : List Bytes) : List (List Char) :=
  (lines.map fun l => Text.trimChars (Bytes.chars l)).filter fun l =>
    !l.isEmpty && l.head? != some '#'

def ofText (content : Bytes) : Except RuleListError RuleList := do
  let ls := Lines.ofBytes content
  let rules ← (ruleLines ls.lines).mapM RuleRequest.ofLine
  if ls.cut then throw .lineTooLong
  return rules

/-- The last value of a key in a record, null if there is none. -/
def recordField (ps : List (Yaml.Value × Yaml.Value)) (name : String) : Yaml.Value :=
  (ps.reverse.findSome? fun (k, v) =>
    match k with
    | .scalar (.text s) => if s = name then some v else none
    | _ => none).getD (.scalar .null)

/-- The last pair of each key. -/
def lastPairs : List (Yaml.Value × Yaml.Value) → List (Yaml.Value × Yaml.Value)
  | [] => []
  | (k, v) :: ps =>
    if ps.any fun (k', _) => k'.describe == k.describe then lastPairs ps else (k, v) :: lastPairs ps

/-- A pair written as a record. -/
def recordPair? (n : Yaml.Node) : Option (Yaml.Value × Yaml.Value) := do
  match ← Yaml.Value.ofNode? false n with
  | .map ps =>
    let value := match recordField ps "value" with
      | .map qs => .map (lastPairs qs)
      | v => v
    return (recordField ps "key", value)
  | v => if v.isNull then return (.scalar .null, .scalar .null) else none

/-- The pairs of key and value that a document lists. -/
def yamlPairs? (content : Bytes) : Option (List (Yaml.Value × Yaml.Value)) := do
  match ← Yaml.document? content with
  | none => return []
  | some (.seq xs) => xs.mapM recordPair?
  | some n =>
    match ← Yaml.Value.ofNode? true n with
    | .map ps => return ps
    | v => if v.isNull then return [] else none

def ofYaml (content : Bytes) : Except RuleListError RuleList :=
  match yamlPairs? content with
  | none => .error .yaml
  | some ps => ps.mapM fun (k, v) => RuleRequest.ofYamlPair k v

/-- Reads a list from a file; the suffix of the path tells its form. -/
def read (t : FileTree) (path : String) : Except RuleListError RuleList := do
  let content ← (t.content path).mapError .file
  let suffix := Path.extension path
  if suffix = ".yaml" ∨ suffix = ".yml" then ofYaml content else ofText content

/-- The rules whose name starts with a text. -/
def withStart (rules : RuleList) (start : String) : RuleList :=
  rules.filter fun r => start.toList.isPrefixOf r.name.toList

/-- The limits on results that the rules set. -/
def limits (rules : RuleList) : List (Bytes × Int) :=
  rules.filterMap fun r => r.options.maxReports.map fun n => (Bytes.ofString r.name, n)

end RuleList

end TwoPhase
