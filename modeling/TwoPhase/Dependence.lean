import TwoPhase.Scope.Basic
import TwoPhase.Text.CaseMap
import TwoPhase.Text.CharClass
import TwoPhase.Text.Split

/-!
# Dependent bases

A base of a class template is dependent if its type mentions one of the template's own parameters.
Where the type could not be seen through, a policy decides.
-/

namespace TwoPhase

/-- How a base is classified whose dependence cannot be told from its spelling. -/
inductive Policy where
  | conservative
  | lenient
  deriving DecidableEq, Inhabited

namespace Policy

def all : List Policy :=
  [conservative, lenient]

def text : Policy → String
  | conservative => "conservative"
  | lenient => "lenient"

/-- Reads a policy without regard to case. -/
def ofText? (s : String) : Option Policy :=
  let s := Text.lower s
  if s = "conservative" then some conservative
  else if s = "lenient" then some lenient
  else none

/-- The policy with a number. -/
def ofNumber? (n : Int) : Option Policy :=
  if n < 0 then none else all[n.toNat]?

/-- The name of a policy number. -/
def describe (n : Int) : String :=
  match ofNumber? n with
  | some p => p.text
  | none => "DependencePolicy(" ++ n.repr ++ ")"

/-- What is said about a number without a policy. -/
def numberComplaint (n : Int) : String :=
  "invalid dependence policy " ++ n.repr

end Policy

def isIdentifierChar (c : Char) : Bool :=
  c == '_' || Text.isLetter c || Text.isDigit c

/-- The identifiers in a spelling such as `ns::B<T, 3>`. -/
def identifiers (spelling : String) : List String :=
  Text.runs isIdentifierChar spelling

/-- A type's own name or spelling mentions one of `params`. -/
def TypeInfo.mentions (params : List String) (info : TypeInfo) : Bool :=
  (Text.components info.name).any (fun part => params.contains (Text.trim part))
    || (identifiers info.spelling).any params.contains

namespace TypeRef

mutual

/-- A type or one of its arguments, at any depth, mentions one of `params`. -/
def mentions (params : List String) : TypeRef → Bool
  | missing => false
  | node info args => info.mentions params || anyMentions params args

def anyMentions (params : List String) : List TypeRef → Bool
  | [] => false
  | t :: ts => mentions params t || anyMentions params ts

end

mutual

/-- A type or one of its arguments, at any depth, could not be seen through. -/
def isUndecidable : TypeRef → Bool
  | missing => false
  | node info args => info.unresolved || anyUndecidable args

def anyUndecidable : List TypeRef → Bool
  | [] => false
  | t :: ts => isUndecidable t || anyUndecidable ts

end

end TypeRef

/-- A base with its dependence; `undecidable` says that the policy decided it. -/
structure ClassifiedBase where
  base : Base
  dependent : Bool := false
  undecidable : Bool := false
  deriving Inhabited

/-- The bases of a class with their dependence. -/
abbrev Classification := List ClassifiedBase

/-- The dependent bases of a class, in order. -/
def Classification.dependentBases (k : Classification) : List Base :=
  (k.filter (·.dependent)).map (·.base)

namespace Scope

/-- Classifies a base of class `c`. -/
def classify (c : Scope) (policy : Policy) (b : Base) : ClassifiedBase :=
  if c.isClassTemplate then
    if b.type.mentions c.templateParams then { base := b, dependent := true }
    else if b.type.isUndecidable then
      { base := b, dependent := policy == .conservative, undecidable := true }
    else { base := b }
  else { base := b }

def classification (c : Scope) (policy : Policy) : Classification :=
  c.bases.map (c.classify policy)

def dependentBases (c : Scope) (policy : Policy) : List Base :=
  (c.classification policy).dependentBases

end Scope

end TwoPhase
