import TwoPhase.Scope.Basic

/-!
# Building the scope model

`CompilationUnit.model` walks the declarations of a unit in order. Namespaces of one name in one
scope share a scope. Declarations of one class share a scope as well, unless two of them define it.
A function that names an owner is defined outside its class: it is set aside until all declarations
have been walked, because the class may come later, and its body is then placed inside the class.
Nodes that cannot be placed are counted.
-/

namespace TwoPhase

/-- The kinds of declaration nodes. -/
inductive NodeKind where
  | namespaceNode
  | classNode
  | functionNode
  | blockNode
  | variableNode
  | typeNode
  deriving DecidableEq

def NodeKind.ofText? : String → Option NodeKind
  | "namespace" => some namespaceNode
  | "class" => some classNode
  | "function" => some functionNode
  | "block" => some blockNode
  | "variable" => some variableNode
  | "type" => some typeNode
  | _ => none

/-- A class node with members, bases or uses defines its class; any other only declares it. -/
def DeclInfo.definesClass (d : DeclInfo) (members : List Decl) : Bool :=
  !members.isEmpty || !d.bases.isEmpty || !d.uses.isEmpty

/-- A use in scope `s` of a unit whose main file is `file`. -/
def Use.placed (u : Use) (file : String) (s : ScopeId) : NameUse where
  name := u.name
  loc := if u.loc.file = "" then { u.loc with file } else u.loc
  scope := s
  form := u.form
  qualifier := u.qualifier
  viaThis := u.viaThis
  typename := u.typename

/-- A model under construction. `deferred` holds the functions defined outside their class, each with
its members. -/
structure Draft where
  model : Model
  deferred : List (DeclInfo × List Decl) := []
  deriving Inhabited

namespace Draft

def start (file : String) : Draft where
  model := { file, scopes := #[{}], index := [], ids := [], uses := [], classes := [], skipped := 0 }

def skip (b : Draft) : Draft :=
  { b with model := { b.model with skipped := b.model.skipped + 1 } }

def modifyScope (b : Draft) (i : ScopeId) (f : Scope → Scope) : Draft :=
  { b with model := { b.model with scopes := b.model.scopes.modify i f } }

/-- Adds a declaration to scope `s`, and files it in the index. -/
def declare (b : Draft) (s : ScopeId) (name : String) (kind : DeclKind) (loc : Loc)
    (static injected : Bool := false) (defines : Option ScopeId := none) : Draft :=
  let d : Declaration :=
    { owner := s, index := (b.model.scope s).decls.length, name, kind,
      member := (b.model.scope s).isClass, static, injected, loc, defines }
  let b := b.modifyScope s fun sc => { sc with decls := sc.decls ++ [d] }
  { b with model := { b.model with index := b.model.index.add d } }

/-- Records the scope of an id, if the id is new. -/
def register (b : Draft) (id : String) (s : ScopeId) : Draft :=
  if id = "" ∨ (b.model.ids.lookup id).isSome then b
  else { b with model := { b.model with ids := b.model.ids ++ [(id, s)] } }

/-- The place of the next scope. -/
def next (b : Draft) : ScopeId :=
  b.model.scopes.size

/-- Opens the scope `b.next` for a node inside `parent`. -/
def openScope (b : Draft) (parent : ScopeId) (kind : ScopeKind) (d : DeclInfo) : Draft :=
  let s := b.next
  let b := b.modifyScope parent fun sc => { sc with children := sc.children ++ [s] }
  let scope : Scope := { id := d.id, kind, name := d.name, loc := d.loc, parent := some parent }
  let b := { b with model := { b.model with scopes := b.model.scopes.push scope } }
  b.register d.id s

/-- The scope of the namespace called `name` in `parent`. -/
def namespace? (b : Draft) (parent : ScopeId) (name : String) : Option ScopeId :=
  if name = "" then none
  else ((b.model.declared parent name).find? (·.kind == .namespaceName)).bind (·.defines)

/-- Opens a namespace or finds it open already. -/
def enterNamespace (b : Draft) (parent : ScopeId) (d : DeclInfo) : ScopeId × Draft :=
  match b.namespace? parent d.name with
  | some s => (s, b.register d.id s)
  | none =>
    let s := b.next
    let b := b.openScope parent .namespaceScope d
    (s, if d.name = "" then b
      else b.declare parent d.name .namespaceName d.loc false false (some s))

/-- The scope of an earlier declaration of the class called `name`, if that declaration and the one
at hand do not both define the class. -/
def class? (b : Draft) (parent : ScopeId) (name : String) (defines : Bool) : Option ScopeId :=
  if name = "" then none
  else (b.model.declared parent name).findSome? fun d =>
    if d.kind == .className then
      d.defines.filter fun s => !defines || !(b.model.scope s).defined
    else none

/-- Opens the scope `b.next` for a class inside `parent`, and adds it to the list of classes. -/
def openClass (b : Draft) (parent : ScopeId) (d : DeclInfo) : Draft :=
  let s := b.next
  let b := b.openScope parent .classScope d
  { b with model := { b.model with classes := b.model.classes ++ [s] } }

/-- Opens the scope of a class or finds that of an earlier declaration. A class that has a name declares it
in `parent` and in its own scope. -/
def enterClass (b : Draft) (parent : ScopeId) (d : DeclInfo) (defines : Bool) : ScopeId × Draft :=
  match b.class? parent d.name defines with
  | some s => (s, b.register d.id s)
  | none =>
    let s := b.next
    let b := b.openClass parent d
    (s, if d.name = "" then b
      else (b.declare parent d.name .className d.loc false false (some s)).declare s d.name .typeName
        d.loc false true)

def declaresParam (b : Draft) (s : ScopeId) (name : String) : Bool :=
  (b.model.declared s name).any (·.kind == .templateParam)

/-- Declares a template parameter of scope `s`. -/
def declareParam (s : ScopeId) (loc : Loc) (b : Draft) (p : String) : Draft :=
  b.declare s p .templateParam loc

/-- The parameters of a class template; those of the definition replace those of a declaration. -/
def setTemplate (b : Draft) (s : ScopeId) (d : DeclInfo) (defines : Bool) : Draft :=
  if d.template ∧ ((b.model.scope s).templateParams = [] ∨ defines) then
    let b := b.modifyScope s fun sc =>
      { sc with isTemplate := true, templateParams := d.templateParams }
    d.templateParams.foldl (fun b p => if b.declaresParam s p then b else declareParam s d.loc b p) b
  else b

/-- A base clause entry that names a type. -/
def wellFormed? : Option Base → Option Base
  | some base =>
    match base.type with
    | .missing => none
    | .node info _ => if info.name = "" then none else some base
  | none => none

/-- Adds an entry to the base clause of class `s`. -/
def addBase (s : ScopeId) (b : Draft) (base : Option Base) : Draft :=
  match wellFormed? base with
  | some base => b.modifyScope s fun sc => { sc with bases := sc.bases ++ [base] }
  | none => b.skip

def addBases (b : Draft) (s : ScopeId) (bases : List (Option Base)) : Draft :=
  bases.foldl (addBase s) b

/-- What a class node says beside its members and uses. -/
def addClassInfo (b : Draft) (s : ScopeId) (d : DeclInfo) (defines : Bool) : Draft :=
  let b := b.setTemplate s d defines
  let b := if defines then b.modifyScope s fun sc => { sc with loc := d.loc, defined := true }
    else b
  b.addBases s d.bases

/-- Records a use in scope `s`. A use needs a name and a scope that is no namespace. -/
def addUse (s : ScopeId) (b : Draft) : Option Use → Draft
  | none => b.skip
  | some u =>
    if u.name = "" ∨ (b.model.scope s).kind = .namespaceScope then b.skip
    else { b with model := { b.model with uses := b.model.uses ++ [u.placed b.model.file s] } }

def addUses (b : Draft) (s : ScopeId) (uses : List (Option Use)) : Draft :=
  uses.foldl (addUse s) b

/-- Opens the scope of a function or block, with the parameters of a template. -/
def enterBody (b : Draft) (parent : ScopeId) (kind : ScopeKind) (d : DeclInfo) : ScopeId × Draft :=
  let s := b.next
  let b := b.openScope parent kind d
  (s, if d.template then d.templateParams.foldl (declareParam s d.loc) b else b)

mutual

/-- Places a node inside `parent`. -/
def walk (parent : ScopeId) (b : Draft) : Decl → Draft
  | .missing => b.skip
  | .node d members =>
    match NodeKind.ofText? d.kind with
    | some .namespaceNode =>
      let (s, b) := b.enterNamespace parent d
      walkAll s b members
    | some .classNode =>
      let defines := d.definesClass members
      let (s, b) := b.enterClass parent d defines
      (walkAll s (b.addClassInfo s d defines) members).addUses s d.uses
    | some .functionNode =>
      if d.owner ≠ "" then { b with deferred := b.deferred ++ [(d, members)] }
      else
        let b := b.declare parent d.name .functionName d.loc d.static false (some b.next)
        let (s, b) := b.enterBody parent .functionScope d
        (walkAll s b members).addUses s d.uses
    | some .blockNode =>
      let (s, b) := b.enterBody parent .blockScope d
      (walkAll s b members).addUses s d.uses
    | some .variableNode =>
      if d.name = "" then b.skip
      else (b.declare parent d.name .variableName d.loc d.static).addUses parent d.uses
    | some .typeNode =>
      if d.name = "" then b.skip
      else (b.declare parent d.name .typeName d.loc d.static).addUses parent d.uses
    | none => b.skip

def walkAll (parent : ScopeId) (b : Draft) : List Decl → Draft
  | [] => b
  | d :: ds => walkAll parent (walk parent b d) ds

end

/-- Places a function that is defined outside its class. -/
def defineOutOfLine (b : Draft) (d : DeclInfo) (members : List Decl) : Draft :=
  match b.model.byId? d.owner with
  | none => b.skip
  | some owner =>
    if !(b.model.scope owner).isClass then b.skip
    else
      let b := if (b.model.declared owner d.name).isEmpty then
          b.declare owner d.name .functionName d.loc d.static
        else b
      let (s, b) := b.enterBody owner .functionScope d
      (walkAll s b members).addUses s d.uses

end Draft

/-- The scope model of a unit. -/
def CompilationUnit.model (u : CompilationUnit) : Model :=
  let b := Draft.walkAll Model.root (Draft.start u.file) u.topLevel
  (b.deferred.foldl (fun b (d, members) => b.defineOutOfLine d members) b).model

end TwoPhase
