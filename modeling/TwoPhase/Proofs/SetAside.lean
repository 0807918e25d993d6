import TwoPhase.Proofs.WalkSteps

/-!
# What is set aside does not matter to the walk

Functions that are defined outside their class are only put on a list while the declarations of a unit are walked.
Every step of the walk does the same to a draft whatever stands on that list already: it acts on the model, and at
most puts more functions behind those. So drafts that differ in what is set aside alone still do after the step.
-/

namespace TwoPhase

namespace Draft

/-- The draft with `nodes` set aside before all others. -/
def behind (nodes : List (DeclInfo × List Decl)) (b : Draft) : Draft :=
  { b with deferred := nodes ++ b.deferred }

variable {b b' : Draft} {nodes : List (DeclInfo × List Decl)} {s p : ScopeId} {d : DeclInfo}

theorem eq_behind (b : Draft) : b = ({ model := b.model } : Draft).behind b.deferred := by
  rw [behind, List.append_nil]

theorem foldl_behind {f : Draft → α → Draft} (hf : ∀ b a, f (b.behind nodes) a = (f b a).behind nodes)
    (l : List α) : l.foldl f (b.behind nodes) = (l.foldl f b).behind nodes := by
  induction l generalizing b with
  | nil => rfl
  | cons a l ih => rw [List.foldl_cons, hf, ih, List.foldl_cons]

/-- A step that acts behind what is set aside does the same to the model of any draft. -/
theorem model_congr {f : Draft → Draft} (hf : ∀ b nodes, f (b.behind nodes) = (f b).behind nodes)
    (h : b'.model = b.model) : (f b').model = (f b).model := by
  rw [eq_behind b, eq_behind b', h, hf, hf]
  rfl

/-! ### The operations -/

theorem register_behind (id : String) :
    (b.behind nodes).register id s = (b.register id s).behind nodes := by
  unfold register
  rw [apply_ite (behind nodes)]
  rfl

theorem openScope_behind (k : ScopeKind) :
    (b.behind nodes).openScope p k d = (b.openScope p k d).behind nodes := by
  unfold openScope
  rw [← register_behind]
  rfl

theorem openClass_behind : (b.behind nodes).openClass p d = (b.openClass p d).behind nodes := by
  unfold openClass
  rw [openScope_behind]
  rfl

theorem setTemplate_behind :
    (b.behind nodes).setTemplate s d defines = (b.setTemplate s d defines).behind nodes := by
  unfold setTemplate
  rw [apply_ite (behind nodes)]
  refine if_congr .rfl ?_ rfl
  rw [← foldl_behind fun b q => ?_]
  · rfl
  · rw [apply_ite (behind nodes)]
    rfl

theorem addBases_behind (bases : List (Option Base)) :
    (b.behind nodes).addBases s bases = (b.addBases s bases).behind nodes := by
  refine foldl_behind (fun b base => ?_) bases
  unfold addBase
  split <;> rfl

theorem addClassInfo_behind :
    (b.behind nodes).addClassInfo s d defines = (b.addClassInfo s d defines).behind nodes := by
  unfold addClassInfo
  rw [setTemplate_behind, ← addBases_behind, apply_ite (behind nodes)]
  rfl

theorem addUses_behind (uses : List (Option Use)) :
    (b.behind nodes).addUses s uses = (b.addUses s uses).behind nodes := by
  refine foldl_behind (fun b use => ?_) uses
  cases use with
  | none => rfl
  | some u =>
    unfold addUse
    rw [apply_ite (behind nodes)]
    rfl

theorem note_behind : (b.behind nodes).note p d = (b.note p d).behind nodes := by
  unfold note
  split
  · rw [apply_ite (behind nodes), ← addUses_behind]
    rfl
  · rw [apply_ite (behind nodes), ← addUses_behind]
    rfl
  · rfl

theorem setAside_behind (members : List Decl) :
    (b.behind nodes).setAside d members = (b.setAside d members).behind nodes := by
  simp [setAside, behind]

/-! ### Entering a scope -/

theorem enterNamespace_behind : (b.behind nodes).enterNamespace p d =
    ((b.enterNamespace p d).1, (b.enterNamespace p d).2.behind nodes) := by
  have hfind : (b.behind nodes).namespace? p d.name = b.namespace? p d.name := rfl
  unfold enterNamespace
  rw [hfind]
  cases b.namespace? p d.name with
  | some s => exact congrArg _ (register_behind d.id)
  | none =>
    dsimp only
    rw [openScope_behind, apply_ite (behind nodes)]
    rfl

theorem enterClass_behind : (b.behind nodes).enterClass p d defines =
    ((b.enterClass p d defines).1, (b.enterClass p d defines).2.behind nodes) := by
  have hfind : (b.behind nodes).class? p d.name defines = b.class? p d.name defines := rfl
  unfold enterClass
  rw [hfind]
  cases b.class? p d.name defines with
  | some s => exact congrArg _ (register_behind d.id)
  | none =>
    dsimp only
    rw [openClass_behind, apply_ite (behind nodes)]
    rfl

theorem enterBody_behind : (b.behind nodes).enterBody p k d =
    ((b.enterBody p k d).1, (b.enterBody p k d).2.behind nodes) := by
  dsimp only [enterBody]
  rw [openScope_behind, apply_ite (behind nodes), foldl_behind fun _ _ => rfl]
  rfl

theorem enter?_behind : (b.behind nodes).enter? p d defines =
    (b.enter? p d defines).map fun r => (r.1, r.2.behind nodes) := by
  unfold enter?
  split
  · exact congrArg some enterNamespace_behind
  · unfold takeClass
    rw [enterClass_behind, addClassInfo_behind]
    rfl
  · rw [apply_ite (Option.map _), Option.map_some, ← enterBody_behind]
    rfl
  · exact congrArg some enterBody_behind
  · rfl

theorem enterOutOfLine?_behind : (b.behind nodes).enterOutOfLine? d =
    (b.enterOutOfLine? d).map fun r => (r.1, r.2.behind nodes) := by
  have hid : (b.behind nodes).model.byId? d.owner = b.model.byId? d.owner := rfl
  unfold enterOutOfLine?
  rw [hid]
  cases b.model.byId? d.owner with
  | none => rfl
  | some owner =>
    dsimp only
    rw [apply_ite (Option.map _), Option.map_some, ← enterBody_behind, apply_ite (behind nodes)]
    rfl

/-! ### The walk -/

mutual

theorem walk_behind : (d : Decl) → ∀ p b, walk p (b.behind nodes) d = (walk p b d).behind nodes
  | .missing, _, _ => rfl
  | .node d members, p, b => by
    rw [walk_node, walk_node, enter?_behind]
    cases b.enter? p d (d.definesClass members) with
    | none =>
      dsimp only [Option.map]
      rw [apply_ite (behind nodes), setAside_behind, note_behind]
    | some r =>
      dsimp only [Option.map]
      rw [walkAll_behind members, addUses_behind]

theorem walkAll_behind :
    (ds : List Decl) → ∀ p b, walkAll p (b.behind nodes) ds = (walkAll p b ds).behind nodes
  | [], _, _ => rfl
  | d :: ds, p, b => by rw [walkAll, walk_behind d, walkAll_behind ds, walkAll]

end

theorem defineOutOfLine_behind (members : List Decl) :
    (b.behind nodes).defineOutOfLine d members = (b.defineOutOfLine d members).behind nodes := by
  rw [defineOutOfLine_eq, defineOutOfLine_eq, enterOutOfLine?_behind]
  cases b.enterOutOfLine? d with
  | none => rfl
  | some r =>
    dsimp only [Option.map]
    rw [walkAll_behind, addUses_behind]

theorem walkAll_model_congr (ds : List Decl) (h : b'.model = b.model) :
    (walkAll p b' ds).model = (walkAll p b ds).model :=
  model_congr (f := fun b => walkAll p b ds) (fun b _ => walkAll_behind ds p b) h

theorem defineOutOfLine_model_congr (members : List Decl) (h : b'.model = b.model) :
    (b'.defineOutOfLine d members).model = (b.defineOutOfLine d members).model :=
  model_congr (f := fun b => b.defineOutOfLine d members) (fun _ _ => defineOutOfLine_behind members) h

theorem defineAll_model_congr (nodes : List (DeclInfo × List Decl)) (h : b'.model = b.model) :
    (nodes.foldl (fun b (d, members) => b.defineOutOfLine d members) b').model =
      (nodes.foldl (fun b (d, members) => b.defineOutOfLine d members) b).model := by
  induction nodes generalizing b b' with
  | nil => exact h
  | cons f nodes ih => exact ih (defineOutOfLine_model_congr f.2 h)

end Draft

end TwoPhase
