import TwoPhase.Proofs.Insertion
import TwoPhase.Proofs.SetAside
import Mathlib.Data.List.Forall2

/-!
# Namespaces that are reopened

A namespace may be closed and opened again in the same scope, under the name that it has. Its members then come into
the scope that was opened first, so that it does not matter whether they are written in one piece or in two. This
holds wherever the namespace stands: among other declarations, in namespaces and classes, and also in the body of a
function that is placed only when all else has been walked.
-/

namespace TwoPhase

/-- The second list has one namespace, at any depth, in two pieces: the first keeps all that is said of the
namespace, the second repeats the name alone. -/
inductive Decl.Reopens : List Decl → List Decl → Prop
  | here {d e : DeclInfo} :
    NodeKind.ofText? d.kind = some .namespaceNode → d.name ≠ "" →
    NodeKind.ofText? e.kind = some .namespaceNode → e.name = d.name → e.id = "" →
    Reopens (.node d (xs ++ ys) :: ds) (.node d xs :: .node e ys :: ds)
  | inside : Reopens members members' → Reopens (.node d members :: ds) (.node d members' :: ds)
  | after : Reopens ds ds' → Reopens (d :: ds) (d :: ds')

theorem Decl.Reopens.isEmpty_eq (h : Reopens ds ds') : ds.isEmpty = false ∧ ds'.isEmpty = false := by
  cases h <;> exact ⟨rfl, rfl⟩

/-- Both lists have members, so that a node defines a class with the one if it does with the other. -/
theorem Decl.Reopens.definesClass_eq (h : Reopens ds ds') (d : DeclInfo) :
    d.definesClass ds' = d.definesClass ds := by
  simp [DeclInfo.definesClass, h.isEmpty_eq]

namespace Draft

variable {b b' : Draft} {s p : ScopeId} {d e : DeclInfo}

/-! ### A namespace that is open stays open -/

/-- What is declared stays declared, before all that is declared later. -/
theorem Edit.declared_prefix (h : Edit b b') (i : ScopeId) (name : String) :
    b.model.declared i name <+: b'.model.declared i name := by
  unfold Model.declared
  cases h with
  | skip | defer | use | amend => exact List.prefix_rfl
  | register => exact register_index ▸ List.prefix_rfl
  | declare =>
    rw [declare_find]
    split
    · exact List.prefix_append ..
    · exact List.prefix_rfl
  | openScope => exact openScope_index ▸ List.prefix_rfl
  | @openClass p d b =>
    change _ <+: (b.openScope p .classScope d).model.index.find i name
    exact openScope_index ▸ List.prefix_rfl

theorem Run.declared_prefix (h : Run b b') (i : ScopeId) (name : String) :
    b.model.declared i name <+: b'.model.declared i name := by
  induction h with
  | refl => exact List.prefix_rfl
  | tail _ hedit ih => exact ih.trans (hedit.declared_prefix i name)

/-- The first namespace of a name is found, whatever is declared later. -/
theorem Run.namespace?_eq (h : Run b b') (hs : b.namespace? p name = some s) :
    b'.namespace? p name = some s := by
  unfold namespace? at hs ⊢
  split at hs
  · contradiction
  · next hname =>
    obtain ⟨c, hfind, hdefines⟩ := Option.bind_eq_some_iff.mp hs
    rw [if_neg hname, (h.declared_prefix p name).find?_eq_some hfind]
    exact hdefines

theorem enterNamespace_of_some (h : b.namespace? p d.name = some s) :
    b.enterNamespace p d = (s, b.register d.id s) := by
  rw [enterNamespace, h]

/-- If no namespace is found, then none of the declarations is one. -/
theorem namespace?_none (H : b.model.TreeInv) (hname : name ≠ "") (h : b.namespace? p name = none) :
    (b.model.declared p name).find? (·.kind == .namespaceName) = none := by
  rw [namespace?, if_neg hname, Option.bind_eq_none_iff] at h
  cases hfind : (b.model.declared p name).find? (·.kind == .namespaceName) with
  | none => rfl
  | some c =>
    have hkind : c.kind = .namespaceName := by simpa using List.find?_some hfind
    obtain ⟨s, hs, _⟩ := H.opens_declared (List.mem_of_find?_eq_some hfind) (by rw [hkind]; rfl)
    exact absurd (h c hfind) (by simp [hs])

/-- A namespace that has been entered is found by its name. -/
theorem namespace?_enterNamespace (H : b.model.TreeInv) (hname : d.name ≠ "") :
    (b.enterNamespace p d).2.namespace? p d.name = some (b.enterNamespace p d).1 := by
  cases h : b.namespace? p d.name with
  | some s =>
    rw [enterNamespace_of_some h, namespace?, Model.declared, register_index]
    exact h
  | none =>
    -- no declaration of the name so far is a namespace, so the one that is added is the first
    have hnone := namespace?_none H hname h
    simp only [enterNamespace, h, if_neg hname]
    rw [Model.declared] at hnone
    rw [namespace?, if_neg hname, Model.declared, declare_find, if_pos ⟨rfl, rfl⟩, openScope_index,
      List.find?_append, hnone]
    rfl

theorem register_empty : b.register "" s = b := by
  simp [register]

/-- **Two pieces of a namespace, one after the other, do what the whole does.** -/
theorem walk_reopen (H : b.model.Inv) (hp : p < b.next)
    (hd : NodeKind.ofText? d.kind = some .namespaceNode) (hname : d.name ≠ "")
    (he : NodeKind.ofText? e.kind = some .namespaceNode) (hsame : e.name = d.name) (hid : e.id = "")
    (xs ys : List Decl) :
    walk p (walk p b (.node d xs)) (.node e ys) = walk p b (.node d (xs ++ ys)) := by
  have hentered := enterNamespace_entered H hp d
  have hrun : Run _ (walkAll (b.enterNamespace p d).1 (b.enterNamespace p d).2 xs) :=
    walkAll_run xs (hentered.inv H) hentered.lt
  have hopen := hrun.namespace?_eq (namespace?_enterNamespace H.toTreeInv hname)
  rw [walk_namespace hd, walk_namespace hd, walk_namespace he, walkAll_append,
    enterNamespace_of_some (hsame ▸ hopen), hid, register_empty]

/-! ### Functions that are set aside -/

/-- One model, and the same functions set aside, up to a reopened namespace in their bodies. -/
structure SameButReopened (b b' : Draft) : Prop where
  model : b'.model = b.model
  deferred : List.Forall₂ (fun f f' => f'.1 = f.1 ∧ Relation.ReflGen Decl.Reopens f.2 f'.2)
    b.deferred b'.deferred

namespace SameButReopened

theorem refl (b : Draft) : SameButReopened b b where
  model := rfl
  deferred := List.forall₂_same.mpr fun _ _ => ⟨rfl, .refl⟩

/-- A step that acts behind what is set aside does the same to both. -/
theorem step {f : Draft → Draft} (hf : ∀ b nodes, f (b.behind nodes) = (f b).behind nodes)
    (h : SameButReopened b b') : SameButReopened (f b) (f b') := by
  rw [eq_behind b, eq_behind b', h.model, hf, hf]
  exact ⟨rfl, List.rel_append h.deferred (refl _).deferred⟩

theorem addUses (h : SameButReopened b b') (s : ScopeId) (uses : List (Option Use)) :
    SameButReopened (b.addUses s uses) (b'.addUses s uses) :=
  h.step (f := fun b => b.addUses s uses) fun _ _ => addUses_behind uses

theorem walkAll (h : SameButReopened b b') (p : ScopeId) (ds : List Decl) :
    SameButReopened (walkAll p b ds) (walkAll p b' ds) :=
  h.step (f := fun b => Draft.walkAll p b ds) fun b _ => walkAll_behind ds p b

theorem setAside (b : Draft) (d : DeclInfo) (h : Decl.Reopens members members') :
    SameButReopened (b.setAside d members) (b.setAside d members') where
  model := rfl
  deferred := List.rel_append (refl b).deferred (.cons ⟨rfl, .single h⟩ .nil)

end SameButReopened

/-- Walking the declarations with a reopened namespace leads to the same model. -/
theorem walkAll_reopens (h : Decl.Reopens ds ds') (H : b.model.Inv) (hp : p < b.next) :
    SameButReopened (walkAll p b ds) (walkAll p b ds') := by
  induction h generalizing b p with
  | here hd hname he hsame hid =>
    rw [walkAll, walkAll, walkAll, walk_reopen H hp hd hname he hsame hid]
    exact .refl _
  | @inside members members' d ds hmembers ih =>
    refine SameButReopened.walkAll ?_ p ds
    rw [walk_node, walk_node, hmembers.definesClass_eq]
    cases henter : b.enter? p d (d.definesClass members) with
    | some r =>
      obtain ⟨k, hentered⟩ := enter?_entered H hp henter
      exact (ih (hentered.inv H) hentered.lt).addUses r.1 d.innerUses
    | none =>
      dsimp only
      split
      · exact .setAside b d hmembers
      · exact .refl _
  | @after ds ds' d _ ih =>
    have hrun : Run b (walk p b d) := walk_run d H hp
    exact ih (hrun.inv H) (Nat.lt_of_lt_of_le hp hrun.next_le)

/-- A function that is defined outside its class brings the same into the model of both drafts. -/
theorem defineOutOfLine_reopens (H : b.model.Inv) (hmodel : b'.model = b.model)
    (h : Relation.ReflGen Decl.Reopens members members') :
    (b'.defineOutOfLine d members').model = (b.defineOutOfLine d members).model := by
  have hbody : (b.defineOutOfLine d members').model = (b.defineOutOfLine d members).model := by
    cases h with
    | refl => rfl
    | single hmembers =>
      rw [defineOutOfLine_eq, defineOutOfLine_eq]
      cases henter : b.enterOutOfLine? d with
      | none => rfl
      | some r =>
        have hentered := enterOutOfLine?_entered H henter
        exact ((walkAll_reopens hmembers (hentered.inv H) hentered.lt).addUses r.1 d.uses).model
  rw [← hbody]
  exact defineOutOfLine_model_congr members' hmodel

theorem defineAll_reopens {nodes nodes' : List (DeclInfo × List Decl)}
    (h : List.Forall₂ (fun f f' => f'.1 = f.1 ∧ Relation.ReflGen Decl.Reopens f.2 f'.2) nodes nodes')
    (H : b.model.Inv) (hmodel : b'.model = b.model) :
    (nodes'.foldl (fun b f => b.defineOutOfLine f.1 f.2) b').model =
      (nodes.foldl (fun b f => b.defineOutOfLine f.1 f.2) b).model := by
  induction h generalizing b b' with
  | nil => exact hmodel
  | @cons f f' nodes nodes' hf _ ih =>
    rw [List.foldl_cons, List.foldl_cons, hf.1]
    exact ih ((defineOutOfLine_run H f.2).inv H) (defineOutOfLine_reopens H hmodel hf.2)

end Draft

/-- **A namespace that is reopened is the namespace written once**: of two units that differ in this alone, wherever
the namespace stands, the models are the same. -/
theorem CompilationUnit.model_reopened {u u' : CompilationUnit} (hfile : u'.file = u.file)
    (h : Decl.Reopens u.topLevel u'.topLevel) : u'.model = u.model := by
  have H := Draft.start_inv u.file
  have hroot : Model.root < (Draft.start u.file).next := Nat.zero_lt_one
  have hwalk := Draft.walkAll_reopens h H hroot
  unfold model
  rw [hfile]
  exact Draft.defineAll_reopens hwalk.deferred ((Draft.walkAll_run u.topLevel H hroot).inv H) hwalk.model

/-- A unit that has `ds` in the body of a function that is defined outside its class, and before the class. -/
def unitWithBody (ds : List Decl) : CompilationUnit where
  file := "a.cpp"
  decls := some
    [.node { kind := "namespace", name := "N" } [.node { kind := "function", name := "f", owner := "A" } ds],
      .node { kind := "class", id := "A", name := "A" } []]

/-- The namespace `M`, in one piece and in two. -/
def wholeNamespace (xs ys : List Decl) : List Decl :=
  [.node { kind := "namespace", id := "M", name := "M", loc := { line := 2 } } (xs ++ ys)]

def splitNamespace (xs ys : List Decl) : List Decl :=
  [.node { kind := "namespace", id := "M", name := "M", loc := { line := 2 } } xs,
    .node { kind := "namespace", name := "M", loc := { line := 5 } } ys]

theorem model_reopened_sample :
    let xs := [.node { kind := "variable", name := "x" } []]
    let ys := [.node { kind := "class", name := "B" } [.node { kind := "variable", name := "y" } []]]
    let u := unitWithBody (wholeNamespace xs ys)
    let u' := unitWithBody (splitNamespace xs ys)
    u'.file = u.file ∧ Decl.Reopens u.topLevel u'.topLevel ∧ u'.model = u.model ∧
      u'.model.classes = [2, 5] ∧ ((u'.model.scope 4).decls.map (·.name)) = ["x", "B"] := by
  intro xs ys u u'
  have h : Decl.Reopens u.topLevel u'.topLevel :=
    .inside (.inside (.here rfl (by decide) rfl rfl rfl))
  exact ⟨rfl, h, CompilationUnit.model_reopened rfl h, by decide +kernel, by decide +kernel⟩

end TwoPhase
