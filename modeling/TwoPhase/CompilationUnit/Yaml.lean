import TwoPhase.CompilationUnit.Basic
import TwoPhase.Yaml.Record

/-!
# Compilation units as YAML

The fields are those of the JSON form, and unknown ones are passed over.
-/

namespace TwoPhase

open Yaml (Node)

namespace Loc

def ofYaml? (old : Loc) (n : Node) : Option Loc :=
  n.record? (fun l key v => do
    match key with
    | "file" => return { l with file := ← v.text? }
    | "line" => return { l with line := ← v.int? }
    | "column" => return { l with column := ← v.int? }
    | _ => return l) old

end Loc

namespace TypeRef

/-- Reads a type nested at most `fuel` deep over an older one. -/
def ofYaml? : Nat → TypeRef → Node → Option TypeRef
  | 0, _, _ => none
  | fuel + 1, old, n =>
    if n.isAbsent then (if n.isNull then some missing else none)
    else do
      let start := match old with
        | missing => (default, [])
        | node info args => (info, args)
      let (info, args) ← n.record? (fun (t : TypeInfo × List TypeRef) key v => do
        let (info, args) := t
        match key with
        | "name" => return ({ info with name := ← v.text? }, args)
        | "args" => return (info, ← v.list? (ofYaml? fuel missing))
        | "ref" => return ({ info with ref := ← v.text? }, args)
        | "spelling" => return ({ info with spelling := ← v.text? }, args)
        | "unresolved" => return ({ info with unresolved := ← v.flag? }, args)
        | _ => return t) start
      return node info args

end TypeRef

namespace Base

def ofYaml? (fuel : Nat) (old : Base) (n : Node) : Option Base :=
  n.record? (fun b key v => do
    match key with
    | "type" => return { b with type := ← TypeRef.ofYaml? fuel b.type v }
    | "access" => return { b with access := ← v.text? }
    | "virtual" => return { b with virtual := ← v.flag? }
    | _ => return b) old

end Base

namespace Use

def ofYaml? (old : Use) (n : Node) : Option Use :=
  n.record? (fun u key v => do
    match key with
    | "name" => return { u with name := ← v.text? }
    | "loc" => return { u with loc := ← Loc.ofYaml? u.loc v }
    | "form" => return { u with form := ← v.text? }
    | "qualifier" => return { u with qualifier := ← v.text? }
    | "this" => return { u with viaThis := ← v.flag? }
    | "typename" => return { u with typename := ← v.flag? }
    | _ => return u) old

end Use

namespace Decl

/-- Reads a declaration nested at most `fuel` deep. -/
def ofYaml? : Nat → Node → Option Decl
  | 0, _ => none
  | fuel + 1, n =>
    if n.isAbsent then (if n.isNull then some missing else none)
    else do
      let (info, members) ← n.record? (fun (d : DeclInfo × List Decl) key v => do
        let (info, members) := d
        match key with
        | "id" => return ({ info with id := ← v.text? }, members)
        | "kind" => return ({ info with kind := ← v.text? }, members)
        | "name" => return ({ info with name := ← v.text? }, members)
        | "loc" => return ({ info with loc := ← Loc.ofYaml? info.loc v }, members)
        | "static" => return ({ info with static := ← v.flag? }, members)
        | "template" => return ({ info with template := ← v.flag? }, members)
        | "template_params" => return ({ info with templateParams := ← v.list? Node.text? }, members)
        | "bases" =>
          let bases ← v.list? (Node.optional? (Base.ofYaml? fuel) none)
          return ({ info with bases }, members)
        | "owner" => return ({ info with owner := ← v.text? }, members)
        | "members" => return (info, ← v.list? (ofYaml? fuel))
        | "uses" =>
          let uses ← v.list? (Node.optional? Use.ofYaml? none)
          return ({ info with uses }, members)
        | _ => return d) default
      return node info members

end Decl

namespace CompilationUnit

/-- Reads a unit from YAML text; an empty text gives the empty unit. -/
def ofYaml? (content : Bytes) : Option CompilationUnit := do
  match ← Yaml.document? content with
  | none => return {}
  | some n =>
    n.record? (fun (u : CompilationUnit) key v => do
      match key with
      | "file" => return { u with file := ← v.text? }
      | "decls" =>
        let decls ← v.list? (Decl.ofYaml? n.depth)
        return { u with decls := if v.isNull then none else some decls }
      | _ => return u) {}

end CompilationUnit

end TwoPhase
