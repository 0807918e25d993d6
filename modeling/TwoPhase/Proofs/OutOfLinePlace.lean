import TwoPhase.Proofs.Accounting
import TwoPhase.Proofs.Insertion
import TwoPhase.Proofs.SetAside

/-!
# Where a function outside its class stands

A function that is defined outside its class may stand anywhere beside the classes, before its class or behind it:
where it is met it is only set aside, and where it is placed is said by its owner. What the model depends on is the
order in which these functions come (`CompilationUnit.model_eq`).
-/

namespace TwoPhase

namespace Decl

mutual

/-- The functions that are defined outside their class, in the order of the dump, with their members. The bodies of
these functions, and nodes that open no scope, are not looked into. -/
def outOfLine : Decl → List (DeclInfo × List Decl)
  | .missing => []
  | .node d members =>
    match NodeKind.ofText? d.kind with
    | some .functionNode => if d.owner ≠ "" then [(d, members)] else outOfLineIn members
    | some .namespaceNode | some .classNode | some .blockNode => outOfLineIn members
    | _ => []

def outOfLineIn : List Decl → List (DeclInfo × List Decl)
  | [] => []
  | d :: ds => outOfLine d ++ outOfLineIn ds

end

end Decl

namespace Ledger

theorem ofScope_deferred (kind : ScopeKind) (d : DeclInfo) (members : List Decl) (inside : Ledger) :
    (ofScope kind d members inside).deferred = inside.deferred := by
  rw [ofScope, append_deferred, append_deferred]
  exact List.append_nil _

end Ledger

namespace Decl

mutual

/-- The ledger of a node lists them as the functions that are set aside. -/
theorem ledger_deferred : (d : Decl) → ∀ inNamespace, (d.ledger inNamespace).deferred = d.outOfLine
  | .missing, _ => rfl
  | .node d members, inNamespace => by
    have hmembers := ledgerAll_deferred members
    unfold ledger outOfLine
    cases NodeKind.ofText? d.kind with
    | none => rfl
    | some kind =>
      cases kind with
      | namespaceNode =>
        simp only [Ledger.append_deferred, hmembers]
        exact List.append_nil _
      | classNode =>
        simp only [Ledger.ofScope_deferred, Ledger.append_deferred, hmembers]
        rfl
      | functionNode =>
        dsimp only
        split
        · rfl
        · rw [Ledger.ofScope_deferred, hmembers]
      | blockNode => simp only [Ledger.ofScope_deferred, hmembers]
      | variableNode | typeNode =>
        dsimp only
        split <;> rfl

theorem ledgerAll_deferred : (ds : List Decl) → ∀ inNamespace,
    (ledgerAll inNamespace ds).deferred = outOfLineIn ds
  | [], _ => rfl
  | d :: ds, inNamespace => by
    rw [ledgerAll, Ledger.append_deferred, ledger_deferred d, ledgerAll_deferred ds, outOfLineIn]

end

end Decl

namespace Draft

variable {b : Draft} {p : ScopeId} {d : DeclInfo}

theorem walk_outOfLine (h : d.isOutOfLine = true) (members : List Decl) :
    walk p b (.node d members) = b.setAside d members := by
  obtain ⟨hkind, howner⟩ : NodeKind.ofText? d.kind = some .functionNode ∧ d.owner ≠ "" := by
    simpa [DeclInfo.isOutOfLine] using h
  have henter : b.enter? p d (d.definesClass members) = none := by
    simp only [enter?, hkind, if_pos howner]
  rw [walk_of_enter?_none henter, if_pos h]

end Draft

open Draft

/-- Declarations that leave the model alone leave it alone wherever they stand. -/
theorem Site.walkAll_fill_model {ds : List Decl} (site : Site)
    (hds : ∀ p b, (walkAll p b ds).model = b.model) (p : ScopeId) (b : Draft) :
    (walkAll p b (site.fill ds)).model = (walkAll p b (site.fill [])).model := by
  induction site generalizing p b with
  | here before after =>
    rw [walkAll_fill_here, walkAll_fill_here]
    exact walkAll_model_congr after (hds p _)
  | inside before d h inner after ih =>
    rw [walkAll_fill_inside, walkAll_fill_inside]
    exact walkAll_model_congr after (ih _ _)

namespace CompilationUnit

/-- The model of a unit: all declarations are walked, and then the functions outside their classes are placed. -/
theorem model_eq (u : CompilationUnit) : u.model =
    ((Decl.outOfLineIn u.topLevel).foldl (fun b (d, members) => b.defineOutOfLine d members)
      (walkAll Model.root (start u.file) u.topLevel)).model := by
  have H := start_inv u.file
  have hroot : ((start u.file).model.scope Model.root).kind = .namespaceScope ↔ true = true :=
    iff_of_true H.root_kind rfl
  have hdeferred : (walkAll Model.root (start u.file) u.topLevel).deferred = _ :=
    (walkAll_accounts u.topLevel H H.size_pos hroot).deferred
  rw [Decl.ledgerAll_deferred] at hdeferred
  rw [model, hdeferred]
  rfl

/-- **The place of a function outside its class does not matter.** Wherever it stands among the declarations of a
unit, or of a namespace that lies in namespaces only, the model is the same, as long as the functions outside their
classes come in the same order. -/
theorem model_moved {u u' : CompilationUnit} {d : DeclInfo} {members : List Decl} (site site' : Site)
    (hd : d.isOutOfLine = true) (hfile : u'.file = u.file) (hrest : site'.fill [] = site.fill [])
    (hu : u.topLevel = site.fill [.node d members]) (hu' : u'.topLevel = site'.fill [.node d members])
    (horder : Decl.outOfLineIn u'.topLevel = Decl.outOfLineIn u.topLevel) : u'.model = u.model := by
  have haside (p : ScopeId) (b : Draft) : (walkAll p b [.node d members]).model = b.model := by
    rw [walkAll, walkAll, walk_outOfLine hd]
    rfl
  rw [model_eq, model_eq, horder]
  apply defineAll_model_congr
  calc (walkAll Model.root (start u'.file) u'.topLevel).model
    _ = (walkAll Model.root (start u.file) (site'.fill [])).model := by
      rw [hfile, hu', site'.walkAll_fill_model haside]
    _ = (walkAll Model.root (start u.file) u.topLevel).model := by
      rw [hrest, hu, site.walkAll_fill_model haside]

end CompilationUnit

/-- A unit with a class `A` and a namespace, and with two functions of `A` outside it: `f` stands among `front` or
among `inner`, and `g` is the last. -/
def unitAround (front inner : List Decl) : CompilationUnit where
  file := "a.cpp"
  decls := some (front ++
    [.node { kind := "class", id := "A", name := "A" } [.node { kind := "function", name := "f" } []],
      .node { kind := "namespace", name := "N" } inner,
      .node { kind := "function", name := "g", owner := "A" } []])

/-- A function of `A` outside it, with a class in its body. -/
def movedFunction : DeclInfo where
  kind := "function"
  name := "f"
  owner := "A"
  uses := [some { name := "x" }]

def movedBody : List Decl :=
  [.node { kind := "class", name := "L" } [.node { kind := "variable", name := "y" } []]]

/-- A function may go from before its class into a namespace behind it. -/
theorem model_moved_sample :
    let u := unitAround [.node movedFunction movedBody] []
    let u' := unitAround [] [.node movedFunction movedBody]
    movedFunction.isOutOfLine = true ∧ Decl.outOfLineIn u'.topLevel = Decl.outOfLineIn u.topLevel ∧
      u'.model = u.model ∧ u.model.classes = [1, 5] ∧ u.model.uses.map (·.scope) = [4] := by
  intro u u'
  have horder : Decl.outOfLineIn u'.topLevel = Decl.outOfLineIn u.topLevel := rfl
  have hmoved : u'.model = u.model :=
    CompilationUnit.model_moved
      (.here [] (unitAround [] []).topLevel)
      (.inside [.node { kind := "class", id := "A", name := "A" } [.node { kind := "function", name := "f" } []]]
        { kind := "namespace", name := "N" } rfl (.here [] [])
        [.node { kind := "function", name := "g", owner := "A" } []])
      rfl rfl rfl rfl rfl horder
  exact ⟨rfl, horder, hmoved, by decide +kernel, by decide +kernel⟩

end TwoPhase
