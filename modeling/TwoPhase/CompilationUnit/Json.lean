import TwoPhase.CompilationUnit.Basic
import TwoPhase.Json.Layered

/-!
# Compilation units as JSON

`CompilationUnit.toJson` writes a unit, leaving out what is empty, zero or false except for the
members that every record has: `file` and `decls` of a unit, `kind` and `loc` of a declaration,
`line` of a position, `type` of a base, and `name` of a type and of a use.
`CompilationUnit.ofJson?` reads one by the rules of `Json.Layers`.
-/

namespace TwoPhase

open Json (Layers named)

namespace Json

def textMember (name s : String) : List (String × Json) :=
  if s = "" then [] else [(name, .string s)]

def flagMember (name : String) (b : Bool) : List (String × Json) :=
  if b then [(name, .bool true)] else []

def intMember (name : String) (n : Int) : List (String × Json) :=
  if n = 0 then [] else [(name, .int n)]

def listMember (name : String) (xs : List Json) : List (String × Json) :=
  if xs.isEmpty then [] else [(name, .array xs)]

end Json

namespace Loc

def toJson (l : Loc) : Json :=
  .object (Json.textMember "file" l.file ++ [("line", .int l.line)]
    ++ Json.intMember "column" l.column)

def ofLayers? (vs : Layers) : Option Loc := do
  let ms ← vs.members?
  return {
    file := ← (named ms "file").text?
    line := ← (named ms "line").int?
    column := ← (named ms "column").int? }

end Loc

namespace TypeRef

mutual

def toJson : TypeRef → Json
  | missing => .null
  | node info args =>
    .object ([("name", .string info.name)] ++ Json.listMember "args" (toJsonList args)
      ++ Json.textMember "ref" info.ref ++ Json.textMember "spelling" info.spelling
      ++ Json.flagMember "unresolved" info.unresolved)

def toJsonList : List TypeRef → List Json
  | [] => []
  | t :: ts => toJson t :: toJsonList ts

end

/-- Reads a type nested at most `fuel` deep. -/
def ofLayers? : Nat → Layers → Option TypeRef
  | 0, _ => none
  | fuel + 1, vs => do
    let t ← Layers.optional? (fun vs => do
      let ms ← vs.members?
      let info : TypeInfo := {
        name := ← (named ms "name").text?
        ref := ← (named ms "ref").text?
        spelling := ← (named ms "spelling").text?
        unresolved := ← (named ms "unresolved").flag? }
      return node info (← Layers.list? (ofLayers? fuel) (named ms "args"))) vs
    return t.getD missing

/-- Reads a type, or null for a missing one. -/
def ofJson? (v : Json) : Option TypeRef :=
  ofLayers? (v.depth + 1) [v]

end TypeRef

namespace Base

def toJson (b : Base) : Json :=
  .object ([("type", b.type.toJson)] ++ Json.textMember "access" b.access
    ++ Json.flagMember "virtual" b.virtual)

def ofLayers? (fuel : Nat) (vs : Layers) : Option Base := do
  let ms ← vs.members?
  return {
    type := ← TypeRef.ofLayers? fuel (named ms "type")
    access := ← (named ms "access").text?
    virtual := ← (named ms "virtual").flag? }

end Base

namespace Use

def toJson (u : Use) : Json :=
  .object ([("name", .string u.name), ("loc", u.loc.toJson)] ++ Json.textMember "form" u.form
    ++ Json.textMember "qualifier" u.qualifier ++ Json.flagMember "this" u.viaThis
    ++ Json.flagMember "typename" u.typename)

def ofLayers? (vs : Layers) : Option Use := do
  let ms ← vs.members?
  return {
    name := ← (named ms "name").text?
    loc := ← Loc.ofLayers? (named ms "loc")
    form := ← (named ms "form").text?
    qualifier := ← (named ms "qualifier").text?
    viaThis := ← (named ms "this").flag?
    typename := ← (named ms "typename").flag? }

end Use

/-- An entry of a list, null if it is missing. -/
def Json.ofOption {α : Type} (f : α → Json) : Option α → Json
  | none => .null
  | some a => f a

namespace Decl

mutual

def toJson : Decl → Json
  | missing => .null
  | node d members =>
    .object (Json.textMember "id" d.id ++ [("kind", .string d.kind)]
      ++ Json.textMember "name" d.name ++ [("loc", d.loc.toJson)]
      ++ Json.flagMember "static" d.static ++ Json.flagMember "template" d.template
      ++ Json.listMember "template_params" (d.templateParams.map .string)
      ++ Json.listMember "bases" (d.bases.map (Json.ofOption Base.toJson))
      ++ Json.textMember "owner" d.owner
      ++ Json.listMember "members" (toJsonList members)
      ++ Json.listMember "uses" (d.uses.map (Json.ofOption Use.toJson)))

def toJsonList : List Decl → List Json
  | [] => []
  | d :: ds => toJson d :: toJsonList ds

end

/-- Reads a declaration nested at most `fuel` deep. -/
def ofLayers? : Nat → Layers → Option Decl
  | 0, _ => none
  | fuel + 1, vs => do
    let d ← Layers.optional? (fun vs => do
      let ms ← vs.members?
      let info : DeclInfo := {
        id := ← (named ms "id").text?
        kind := ← (named ms "kind").text?
        name := ← (named ms "name").text?
        loc := ← Loc.ofLayers? (named ms "loc")
        static := ← (named ms "static").flag?
        template := ← (named ms "template").flag?
        templateParams := ← Layers.list? Layers.text? (named ms "template_params")
        bases := ← Layers.list? (Layers.optional? (Base.ofLayers? fuel)) (named ms "bases")
        owner := ← (named ms "owner").text?
        uses := ← Layers.list? (Layers.optional? Use.ofLayers?) (named ms "uses") }
      return node info (← Layers.list? (ofLayers? fuel) (named ms "members"))) vs
    return d.getD missing

end Decl

namespace CompilationUnit

def toJson (u : CompilationUnit) : Json :=
  .object [("file", .string u.file),
    ("decls", Json.ofOption (fun ds => .array (Decl.toJsonList ds)) u.decls)]

/-- Reads a unit. -/
def ofJson? (v : Json) : Option CompilationUnit := do
  let ms ← Layers.members? [v]
  let decls ← Layers.list? (Decl.ofLayers? (v.depth + 1)) (named ms "decls")
  return {
    file := ← (named ms "file").text?
    decls := if (named ms "decls").isListed then some decls else none }

end CompilationUnit

end TwoPhase
