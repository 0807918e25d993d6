import TwoPhase.Scope.Basic
import TwoPhase.Text.CharClass
import TwoPhase.Text.Split

/-!
# Name lookup

`Model.ordinary` finds a name the way a template is checked where it is defined: local scopes first,
then the members that the class declares itself, then the scopes around the class. Base classes that
depend on template parameters take no part in it.

`Model.reachable` asks whether a class that a base clause names declares a member of some name, itself
or through its own bases. The base clauses form a graph of any shape, so the search keeps the classes
not yet visited and stops when its work list is empty.
-/

namespace TwoPhase

/-- What ordinary lookup finds. -/
inductive Resolution where
  | notFound
  | localName (d : Declaration)
  | member (d : Declaration)
  | enclosing (d : Declaration)
  deriving DecidableEq, Inhabited

namespace Resolution

def text : Resolution → String
  | notFound => "not found"
  | localName _ => "local"
  | member _ => "member"
  | enclosing _ => "namespace"

/-- The texts of all kinds of resolutions. -/
def labels : List String :=
  ["not found", "local", "member", "namespace"]

def decl? : Resolution → Option Declaration
  | notFound => none
  | localName d | member d | enclosing d => some d

end Resolution

/-- A local declaration is in scope at a use that stands behind it. Without a line on either side, or
in different files, it is taken to come first. -/
def Declaration.isBefore (d : Declaration) (u : NameUse) : Bool :=
  d.loc.line == 0 || u.loc.line == 0
    || (d.loc.file != "" && u.loc.file != "" && d.loc.file != u.loc.file)
    || (if d.loc.line = u.loc.line then d.loc.column < u.loc.column else d.loc.line < u.loc.line)

namespace Model

/-- Ordinary lookup of a use inside class `c`. Only local declarations have to come first. -/
def ordinary (m : Model) (u : NameUse) (c : ScopeId) : Resolution :=
  let around := m.chain u.scope
  let inner := around.takeWhile (· != c)
  match inner.findSome? fun s => (m.declared s u.name).find? (·.isBefore u) with
  | some d => .localName d
  | none =>
    match around.dropWhile (· != c) with
    | [] => .notFound
    | c :: outer =>
      match (m.declared c u.name).head? with
      | some d => .member d
      | none =>
        match outer.findSome? fun s => (m.declared s u.name).head? with
        | some d => .enclosing d
        | none => .notFound

/-- The first class or namespace called `name` in scope `i`. -/
def scopeNamed? (m : Model) (i : ScopeId) (name : String) : Option ScopeId :=
  (m.declared i name).findSome? fun d =>
    if d.kind == .className || d.kind == .namespaceName then d.defines else none

def classById? (m : Model) (id : String) : Option ScopeId :=
  (m.byId? id).filter fun s => (m.scope s).isClass

/-- The class that a qualified name denotes in the base clause of `source`. Its first component is
looked up from the scope around `source` outwards, or from the global namespace if the name starts
with a double colon; a template parameter of `source` denotes no class. -/
def classNamed? (m : Model) (name : String) (source : ScopeId) : Option ScopeId :=
  let name := Text.trim name
  let isGlobal := "::".isPrefixOf name
  let scopes := if isGlobal then [root] else (m.chain source).tail
  match Text.components (if isGlobal then String.ofList (name.toList.drop 2) else name) with
  | [] => none
  | first :: rest =>
    if first = "" ∨ (m.scope source).hasTemplateParam first then none
    else do
      let start ← scopes.findSome? fun s => m.scopeNamed? s first
      let target ← rest.foldlM m.scopeNamed? start
      if (m.scope target).isClass then some target else none

/-- The class that a type in the base clause of `source` denotes. -/
def resolveBase? (m : Model) (t : TypeRef) (source : ScopeId) : Option ScopeId :=
  match t with
  | .missing => none
  | .node info _ => m.classById? info.ref <|> m.classNamed? info.name source

/-- Class `c` declares a member that derived classes inherit: neither its own injected name nor a
template parameter. -/
def declaresMember (m : Model) (c : ScopeId) (name : String) : Bool :=
  (m.declared c name).any fun d => !d.injected && d.kind != .templateParam

/-- The classes that the base clause of `c` denotes. -/
def baseClasses (m : Model) (c : ScopeId) : List ScopeId :=
  (m.scope c).bases.filterMap fun b => m.resolveBase? b.type c

/-- Some class that can be reached from `work` through classes in `fresh` declares the member. -/
def search (m : Model) (name : String) (fresh work : List ScopeId) : Bool :=
  match work with
  | [] => false
  | c :: work =>
    if c ∈ fresh then
      m.declaresMember c name || m.search name (fresh.erase c) (m.baseClasses c ++ work)
    else m.search name fresh work
termination_by (fresh.length, work.length)
decreasing_by
  · simp only [Prod.lex_def]
    left
    have := List.length_erase_of_mem ‹c ∈ fresh›
    have := List.length_pos_of_mem ‹c ∈ fresh›
    omega
  · simp only [Prod.lex_def]
    right
    simp

/-- A member called `name` is declared in the class that `t` denotes in the base clause of `source`
or, if `follow` is set, in a class that this one is derived from. -/
def reachable (m : Model) (follow : Bool) (name : String) (t : TypeRef) (source : ScopeId) : Bool :=
  match m.resolveBase? t source with
  | none => false
  | some c =>
    if follow then m.search name (List.range m.scopes.size) [c] else m.declaresMember c name

end Model

end TwoPhase
