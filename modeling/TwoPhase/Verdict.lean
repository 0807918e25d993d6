import TwoPhase.Dependence
import TwoPhase.Lookup

/-!
# Verdicts on name uses

In a class template with a dependent base, a name that the base declares has to be written with a
qualification or through `this`: unqualified, lookup would pass the base by. `Evaluator.evaluate?` judges
one use, and `Model.findings` all of them.
-/

namespace TwoPhase

inductive Qualification where
  | unqualified
  /-- As in `::m`, `B<T>::m` or `ns::f()`. -/
  | byScope
  /-- As in `this->g()`, `&B<T>::g` or `typename B<T>::type`. -/
  | byThis
  deriving DecidableEq, Inhabited

namespace Qualification

def all : List Qualification :=
  [unqualified, byScope, byThis]

def text : Qualification → String
  | unqualified => "unqualified"
  | byScope => "qualified by scope"
  | byThis => "qualified by this"

end Qualification

/-- How a use is qualified. The address of a qualified name is a pointer to member. -/
def NameUse.qualification (u : NameUse) : Qualification :=
  if u.viaThis ∨ u.typename then .byThis
  else if u.isQualified then (if u.form = "address" then .byThis else .byScope)
  else .unqualified

inductive Verdict where
  | notApplicable
  | compliant
  | nonCompliant
  deriving DecidableEq, Inhabited

namespace Verdict

def all : List Verdict :=
  [notApplicable, compliant, nonCompliant]

def text : Verdict → String
  | notApplicable => "not applicable"
  | compliant => "compliant"
  | nonCompliant => "non-compliant"

end Verdict

inductive Reason where
  | notInClassTemplate
  | noDependentBase
  | qualified
  | localName
  | ownMember
  | notInDependentBase
  | dependentBaseMember
  deriving DecidableEq, Inhabited

namespace Reason

def all : List Reason :=
  [notInClassTemplate, noDependentBase, qualified, localName, ownMember, notInDependentBase,
    dependentBaseMember]

def text : Reason → String
  | notInClassTemplate => "not in a class template"
  | noDependentBase => "no dependent base"
  | qualified => "qualified"
  | localName => "local name"
  | ownMember => "own member"
  | notInDependentBase => "not declared in a dependent base"
  | dependentBaseMember => "declared in a dependent base"

end Reason

/-- The judgement of one use. -/
structure Finding where
  use : NameUse
  verdict : Verdict := .notApplicable
  reason : Reason
  /-- The class template around the use. -/
  enclosing : Option ScopeId := none
  qualification : Qualification := .unqualified
  resolution : Resolution := .notFound
  /-- The dependent base that declares the name of a non-compliant use. -/
  base : Option Base := none
  deriving Inhabited

/-- Judges the uses of one model. Every class of the model is classified once, and judging a use reads that
table. -/
structure Evaluator where
  model : Model
  follow : Bool
  classes : List (ScopeId × Classification)

/-- The evaluator of a model under a policy. -/
def Model.evaluator (m : Model) (policy : Policy) (follow : Bool) : Evaluator where
  model := m
  follow
  classes := m.classes.map fun c => (c, (m.scope c).classification policy)

namespace Evaluator

/-- Judges a use of a name that neither class template `c` nor the scopes inside it declare. -/
def evaluateBases (e : Evaluator) (u : NameUse) (c : ScopeId) (bases : List Base)
    (resolution : Resolution) : Finding :=
  match bases.find? fun b => e.model.reachable e.follow u.name b.type c with
  | some base =>
    { use := u, verdict := .nonCompliant, reason := .dependentBaseMember, enclosing := c,
      resolution, base }
  | none =>
    { use := u, verdict := .compliant, reason := .notInDependentBase, enclosing := c, resolution }

/-- Judges a use inside class template `c` whose dependent bases are `bases`. -/
def evaluateIn (e : Evaluator) (u : NameUse) (c : ScopeId) (bases : List Base) : Finding :=
  let resolution := e.model.ordinary u c
  match resolution with
  | .localName _ =>
    { use := u, verdict := .compliant, reason := .localName, enclosing := c, resolution }
  | .member _ =>
    { use := u, verdict := .compliant, reason := .ownMember, enclosing := c, resolution }
  | _ => e.evaluateBases u c bases resolution

/-- Judges a use. Inside a class template that the table leaves out there is no judgement. -/
def evaluate? (e : Evaluator) (u : NameUse) : Option Finding :=
  match (e.model.enclosingClass? u.scope).filter fun c => (e.model.scope c).isClassTemplate with
  | none => some { use := u, reason := .notInClassTemplate }
  | some c => do
    match (← e.classes.lookup c).dependentBases with
    | [] => return { use := u, reason := .noDependentBase, enclosing := c }
    | bases =>
      let qualification := u.qualification
      if qualification = .unqualified then return e.evaluateIn u c bases
      else return { use := u, reason := .qualified, enclosing := c, qualification }

/-- The judgements of all uses. -/
def findings (e : Evaluator) : List Finding :=
  e.model.uses.filterMap e.evaluate?

end Evaluator

def Model.findings (m : Model) (policy : Policy) (follow : Bool) : List Finding :=
  (m.evaluator policy follow).findings

end TwoPhase
