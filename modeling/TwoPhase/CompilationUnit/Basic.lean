/-!
# Compilation units

What a scope dump says about one compilation unit. Declarations nest the way they nest in the
source: namespaces hold classes and functions, classes hold members, functions hold parameters,
locals and blocks. Each occurrence of an identifier is a *use*, listed at the innermost declaration
around it with the qualification that the source spells out.

Any entry of a list may be missing, so `Decl` and `TypeRef` have a constructor for that.
-/

namespace TwoPhase

/-- A position in a source file; line 0 is an unknown line. -/
structure Loc where
  file : String := ""
  line : Int := 0
  column : Int := 0
  deriving DecidableEq, Inhabited

/-- The parts of a type name other than its template arguments. `ref` is the id of the class that
the name stands for, if the exporter could tell, and `unresolved` says that it could not see
through the type. -/
structure TypeInfo where
  name : String := ""
  ref : String := ""
  spelling : String := ""
  unresolved : Bool := false
  deriving DecidableEq, Inhabited

inductive TypeRef where
  | missing
  | node (info : TypeInfo) (args : List TypeRef)
  deriving Inhabited

namespace TypeRef

mutual

/-- The written form: the recorded spelling, or else name and arguments, as in `B<T, int>`. -/
def text : TypeRef → String
  | missing => ""
  | node info args =>
    if info.spelling ≠ "" then info.spelling
    else match args with
      | [] => info.name
      | a :: rest => info.name ++ "<" ++ text a ++ textRest rest ++ ">"

/-- The arguments after the first, each behind a comma. -/
def textRest : List TypeRef → String
  | [] => ""
  | a :: rest => ", " ++ text a ++ textRest rest

end

end TypeRef

/-- An entry of a base clause. -/
structure Base where
  type : TypeRef := .missing
  access : String := ""
  virtual : Bool := false
  deriving Inhabited

/-- An occurrence of an identifier. -/
structure Use where
  name : String := ""
  loc : Loc := {}
  form : String := ""
  qualifier : String := ""
  viaThis : Bool := false
  typename : Bool := false
  deriving DecidableEq, Inhabited

/-- The parts of a declaration other than its members. `owner` is the id of the class that a member
function defined outside its class belongs to. -/
structure DeclInfo where
  id : String := ""
  kind : String := ""
  name : String := ""
  loc : Loc := {}
  static : Bool := false
  template : Bool := false
  templateParams : List String := []
  bases : List (Option Base) := []
  owner : String := ""
  uses : List (Option Use) := []
  deriving Inhabited

inductive Decl where
  | missing
  | node (info : DeclInfo) (members : List Decl)
  deriving Inhabited

/-- One compilation unit. A dump need not list declarations at all. -/
structure CompilationUnit where
  file : String := ""
  decls : Option (List Decl) := none
  deriving Inhabited

namespace CompilationUnit

/-- The declarations at global scope. -/
def topLevel (u : CompilationUnit) : List Decl :=
  u.decls.getD []

end CompilationUnit

end TwoPhase
