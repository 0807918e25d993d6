import TwoPhase.Dependence
import TwoPhase.Json.Layered
import TwoPhase.Json.Reader
import TwoPhase.Text.Quoted
import TwoPhase.Yaml.Value

/-!
# Options of a rule

All options may be left unset. They are read from a JSON object or a YAML mapping; unknown names and values
of the wrong kind are refused. An unknown policy is reported by its text, whatever else is wrong.
-/

namespace TwoPhase

structure RuleOptions where
  severity : Option String := none
  /-- How many results are reported at most. -/
  maxReports : Option Int := none
  policy : Option Policy := none
  /-- Whether the bases of a base are searched too. -/
  follow : Option Bool := none
  /-- Whether compliant uses are reported as well. -/
  reportCompliant : Option Bool := none
  deriving DecidableEq, Inhabited

inductive OptionName where
  | severity
  | maxReports
  | policy
  | follow
  | reportCompliant
  deriving DecidableEq

namespace OptionName

def all : List OptionName :=
  [severity, maxReports, policy, follow, reportCompliant]

def label : OptionName → String
  | severity => "severity"
  | maxReports => "max-report-num"
  | policy => "undecidable-dependence"
  | follow => "follow-inherited-bases"
  | reportCompliant => "report-compliant"

end OptionName

inductive OptionsError where
  | malformed
  | unknownPolicy (text : String)
  deriving DecidableEq

def Policy.complaint (text : String) : String :=
  "invalid undecidable-dependence " ++ Text.quoted text ++ ", expected conservative or lenient"

def OptionsError.message (rule : String) : OptionsError → String
  | malformed => "invalid options for " ++ rule
  | unknownPolicy text => "invalid options for " ++ rule ++ ": " ++ Policy.complaint text

def Policy.read (text : String) : Except OptionsError Policy :=
  match Policy.ofText? text with
  | some p => .ok p
  | none => .error (.unknownPolicy text)

namespace RuleOptions

def thePolicy (o : RuleOptions) : Policy :=
  o.policy.getD .conservative

def follows (o : RuleOptions) : Bool :=
  o.follow.getD true

def reportsCompliant (o : RuleOptions) : Bool :=
  o.reportCompliant.getD false

/-- An option that cannot be read yet, or the options with it set. -/
abbrev Setting := Except OptionsError (Option RuleOptions)

/-! ## JSON -/

/-- Sets an option; null unsets it. -/
def setJson (o : RuleOptions) (name : OptionName) (v : Json) : Setting :=
  match name, v with
  | .severity, .null => .ok (some { o with severity := none })
  | .maxReports, .null => .ok (some { o with maxReports := none })
  | .policy, .null => .ok (some { o with policy := none })
  | .follow, .null => .ok (some { o with follow := none })
  | .reportCompliant, .null => .ok (some { o with reportCompliant := none })
  | .severity, .string s => .ok (some { o with severity := some s })
  | .maxReports, .number t =>
    .ok ((Json.Layers.integer? t).map fun n => { o with maxReports := some n })
  | .policy, .string s => do return some { o with policy := some (← Policy.read s) }
  | .follow, .bool b => .ok (some { o with follow := some b })
  | .reportCompliant, .bool b => .ok (some { o with reportCompliant := some b })
  | _, _ => .ok none

/-- Reads the members of an object in order. The flag says that all went well so far. -/
def readMembers : RuleOptions → Bool → List (String × Json) → Except OptionsError RuleOptions
  | o, good, [] => if good then .ok o else .error .malformed
  | o, good, (k, v) :: ms =>
    match OptionName.all.find? fun n => Json.sameName k n.label with
    | none => readMembers o false ms
    | some name =>
      match setJson o name v with
      | .error e => .error e
      | .ok (some o) => readMembers o good ms
      | .ok none => readMembers o false ms

/-- Reads the first JSON value of a text; what follows it is not looked at. -/
def ofJson (text : String) : Except OptionsError RuleOptions :=
  match Json.first? text.toList with
  | some (.object ms, _) => readMembers {} true ms
  | some (.null, _) => .ok {}
  | _ => .error .malformed

/-! ## YAML -/

/-- Sets an option from a resolved value. Numbers and truth values are texts as well. -/
def setYaml (o : RuleOptions) (name : OptionName) (v : Yaml.Value) : Setting :=
  if v.isNull then setJson o name .null
  else match name with
    | .severity => .ok (v.plainText?.map fun s => { o with severity := some s })
    | .policy =>
      match v with
      | .scalar (.text "null") | .scalar (.text "~") => .ok none
      | _ =>
        match v.plainText? with
        | some s => do return some { o with policy := some (← Policy.read s) }
        | none => .ok none
    | .maxReports =>
      match v with
      | .scalar s => .ok (s.toInt?.map fun n => { o with maxReports := some n })
      | _ => .ok none
    | .follow =>
      match v with
      | .scalar (.bool b) => .ok (some { o with follow := some b })
      | _ => .ok none
    | .reportCompliant =>
      match v with
      | .scalar (.bool b) => .ok (some { o with reportCompliant := some b })
      | _ => .ok none

/-- Reads the pairs of a mapping in order; an option may be set only once. -/
def readPairs : RuleOptions → List OptionName → Bool → List (Yaml.Value × Yaml.Value) →
    Except OptionsError RuleOptions
  | o, _, good, [] => if good then .ok o else .error .malformed
  | o, seen, good, (k, v) :: ps =>
    let name? := match k with
      | .scalar (.text s) => OptionName.all.find? fun n => n.label == s
      | _ => none
    match name? with
    | none => readPairs o seen false ps
    | some name =>
      if seen.contains name then readPairs o seen false ps
      else match setYaml o name v with
        | .error e => .error e
        | .ok (some o) => readPairs o (name :: seen) good ps
        | .ok none => readPairs o (name :: seen) false ps

def ofYaml : Yaml.Value → Except OptionsError RuleOptions
  | .map ps => readPairs {} [] true ps
  | v => if v.isNull then .ok {} else .error .malformed

/-! ## Writing -/

def member? (o : RuleOptions) : OptionName → Option String
  | .severity => o.severity.map fun s => Json.webQuoted s.toList
  | .maxReports => o.maxReports.map Int.repr
  | .policy => o.policy.map fun p => Json.webQuoted p.text.toList
  | .follow => o.follow.map toString
  | .reportCompliant => o.reportCompliant.map toString

/-- The options that are set, as a JSON object. -/
def text (o : RuleOptions) : String :=
  "\x7b" ++ ",".intercalate (OptionName.all.filterMap fun n =>
    (o.member? n).map fun v => "\"" ++ n.label ++ "\":" ++ v) ++ "\x7d"

end RuleOptions

end TwoPhase
