import TwoPhase.CompilationUnit.Basic

/-!
# Scopes of a compilation unit

The scopes stand in one table in the order in which they are opened; the first is the global
namespace, and every other one has a parent that was opened before it. A scope owns its declarations
in the order in which they are met; an index, filled along with them, finds them by owner and name.
`Model.chain` lists a scope with the scopes around it, from the inside out, and `Model.declared` the
declarations that a scope itself owns under a name.
-/

namespace TwoPhase

/-- The label with a number, for lists of labels that are counted from zero. -/
def labelAt (labels : List String) (n : Int) : String :=
  if n < 0 then "unknown" else labels.getD n.toNat "unknown"

inductive ScopeKind where
  | namespaceScope
  | classScope
  | functionScope
  | blockScope
  deriving DecidableEq, Inhabited

namespace ScopeKind

def all : List ScopeKind :=
  [namespaceScope, classScope, functionScope, blockScope]

def text : ScopeKind → String
  | namespaceScope => "namespace"
  | classScope => "class"
  | functionScope => "function"
  | blockScope => "block"

end ScopeKind

inductive DeclKind where
  | functionName
  | variableName
  | typeName
  | namespaceName
  | className
  | templateParam
  deriving DecidableEq, Inhabited

namespace DeclKind

def all : List DeclKind :=
  [functionName, variableName, typeName, namespaceName, className, templateParam]

def text : DeclKind → String
  | functionName => "function"
  | variableName => "variable"
  | typeName => "type"
  | namespaceName => "namespace"
  | className => "class"
  | templateParam => "template parameter"

end DeclKind

/-- A place in the table of scopes. -/
abbrev ScopeId := Nat

/-- A name that a scope declares; `index` is its place among the declarations of `owner`. -/
structure Declaration where
  owner : ScopeId
  index : Nat
  name : String
  kind : DeclKind
  /-- The owner is a class. -/
  member : Bool
  static : Bool
  /-- The name that a class declares for itself. -/
  injected : Bool
  loc : Loc
  /-- The scope that a namespace, class or function opens. -/
  defines : Option ScopeId
  deriving DecidableEq, Inhabited

structure Scope where
  id : String := ""
  kind : ScopeKind := .namespaceScope
  name : String := ""
  loc : Loc := {}
  parent : Option ScopeId := none
  children : List ScopeId := []
  decls : List Declaration := []
  /-- Of a class: its base clause. -/
  bases : List Base := []
  isTemplate : Bool := false
  templateParams : List String := []
  /-- Of a class: a declaration with a body or a base clause has been met. -/
  defined : Bool := false
  deriving Inhabited

namespace Scope

def isClass (s : Scope) : Bool :=
  s.kind == .classScope

def isClassTemplate (s : Scope) : Bool :=
  s.isClass && s.isTemplate

/-- `name` is one of the scope's own template parameters. -/
def hasTemplateParam (s : Scope) (name : String) : Bool :=
  s.templateParams.contains name

end Scope

/-- The declarations by owner and name, those of one owner and name in order. -/
abbrev DeclIndex := List ((ScopeId × String) × List Declaration)

namespace DeclIndex

def find (x : DeclIndex) (s : ScopeId) (name : String) : List Declaration :=
  (x.lookup (s, name)).getD []

/-- Files a declaration behind those of the same owner and name. -/
def add (d : Declaration) : DeclIndex → DeclIndex
  | [] => [((d.owner, d.name), [d])]
  | (k, ds) :: rest =>
    if k = (d.owner, d.name) then (k, ds ++ [d]) :: rest else (k, ds) :: add d rest

end DeclIndex

/-- An occurrence of an identifier, with the innermost scope around it. -/
structure NameUse where
  name : String
  loc : Loc
  scope : ScopeId
  form : String
  qualifier : String
  viaThis : Bool
  typename : Bool
  deriving DecidableEq, Inhabited

namespace NameUse

def isQualified (u : NameUse) : Bool :=
  u.qualifier ≠ ""

end NameUse

/-- The scopes of one compilation unit and the uses in them. `skipped` counts the nodes of the dump
that could not be placed. -/
structure Model where
  file : String
  scopes : Array Scope
  index : DeclIndex
  /-- The scope that each id of the dump opened, or reopened, first. -/
  ids : List (String × ScopeId)
  uses : List NameUse
  classes : List ScopeId
  skipped : Nat
  deriving Inhabited

namespace Model

def root : ScopeId := 0

def scope (m : Model) (i : ScopeId) : Scope :=
  m.scopes[i]?.getD {}

/-- The declarations of `name` that scope `i` owns, in order. -/
def declared (m : Model) (i : ScopeId) (name : String) : List Declaration :=
  m.index.find i name

def byId? (m : Model) (id : String) : Option ScopeId :=
  if id = "" then none else m.ids.lookup id

/-- A scope and the scopes around it, from the inside out. -/
def chain (m : Model) (i : ScopeId) : List ScopeId :=
  match (m.scope i).parent with
  | none => [i]
  | some p => if p < i then i :: m.chain p else [i]
termination_by i

/-- The innermost class around a scope, the scope itself included. -/
def enclosingClass? (m : Model) (i : ScopeId) : Option ScopeId :=
  (m.chain i).find? fun s => (m.scope s).isClass

/-- The innermost function around a scope, the scope itself included, that is not outside the
innermost class. -/
def enclosingFunction? (m : Model) (i : ScopeId) : Option ScopeId :=
  ((m.chain i).takeWhile fun s => !(m.scope s).isClass).find? fun s =>
    (m.scope s).kind == .functionScope

/-- The names of the scopes from the outside in, without the global namespace and blocks. -/
def qualifiedName (m : Model) (i : ScopeId) : String :=
  let named := (m.chain i).filter fun s =>
    (m.scope s).parent.isSome && (m.scope s).kind != .blockScope
  "::".intercalate (named.reverse.map fun s => (m.scope s).name)

end Model

end TwoPhase
