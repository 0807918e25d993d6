import TwoPhase.Proofs.Judgement

/-!
# The shape of every scope model

`Model.WellFormed` is what the users of a model rely on: one tree whose parents and lists of children agree,
an index that agrees with the lists of declarations, ids and uses that point into the tree, and a list of
classes that leaves none out, so that judging a use always finds its class classified.
-/

namespace TwoPhase

namespace Model

/-- Scope `i` can be reached from the global namespace through the lists of children. -/
def InTree (m : Model) (i : ScopeId) : Prop :=
  Relation.ReflTransGen (fun p c => c ∈ (m.scope p).children) root i

structure WellFormed (m : Model) : Prop where
  /-- The table holds the scopes of the tree and no others. -/
  lt_size_iff : ∀ i, i < m.scopes.size ↔ m.InTree i
  /-- Following the parents from any scope leads to the global namespace, which has no parent. -/
  reaches_root : ∀ i, m.InTree i → m.Within i root
  root_parent : (m.scope root).parent = none
  /-- Any other scope has a parent, is listed once among its children and nowhere else. -/
  listed_once : ∀ i, m.InTree i → i ≠ root → ∃ p, m.InTree p ∧ (m.scope i).parent = some p ∧
    ∀ q, (m.scope q).children.count i = if q = p then 1 else 0
  root_unlisted : ∀ q, root ∉ (m.scope q).children
  /-- The index gives the declarations of a name, in order. -/
  declared_eq : ∀ i name, m.declared i name = (m.scope i).decls.filter (·.name == name)
  decl_owner : ∀ i, ∀ d ∈ (m.scope i).decls, d.owner = i
  decl_member : ∀ i, ∀ d ∈ (m.scope i).decls, d.member = true ↔ (m.scope i).kind = .classScope
  /-- What is declared as a class or namespace is a child of that name and kind. -/
  class_defines : ∀ i, ∀ d ∈ (m.scope i).decls, d.kind = .className →
    ∃ c ∈ (m.scope i).children, d.defines = some c ∧ (m.scope c).name = d.name ∧
      (m.scope c).kind = .classScope
  namespace_defines : ∀ i, ∀ d ∈ (m.scope i).decls, d.kind = .namespaceName →
    ∃ c ∈ (m.scope i).children, d.defines = some c ∧ (m.scope c).name = d.name ∧
      (m.scope c).kind = .namespaceScope
  /-- An id stands for a scope of the tree, and the id of every scope stands for one. -/
  id_inTree : ∀ id i, m.byId? id = some i → m.InTree i
  id_resolves : ∀ i, (m.scope i).id ≠ "" → ∃ j, m.byId? (m.scope i).id = some j
  use_name : ∀ u ∈ m.uses, u.name ≠ ""
  use_inTree : ∀ u ∈ m.uses, m.InTree u.scope
  use_kind : ∀ u ∈ m.uses, (m.scope u.scope).kind ≠ .namespaceScope
  /-- The list of classes holds every class of the tree once and nothing else. -/
  classes_nodup : m.classes.Nodup
  mem_classes : ∀ i, i ∈ m.classes ↔ m.InTree i ∧ (m.scope i).kind = .classScope
  /-- The class around a scope has been classified, so that every use is judged. -/
  classified : ∀ policy follow i c, m.enclosingClass? i = some c →
    (m.evaluator policy follow).classes.lookup c = some ((m.scope c).classification policy)
  judged : ∀ policy follow, ∀ u ∈ m.uses, ((m.evaluator policy follow).evaluate? u).isSome

variable {m : Model}

theorem TreeInv.inTree_iff (H : m.TreeInv) : m.InTree i ↔ i < m.scopes.size := by
  constructor
  · intro h
    rcases h.cases_tail with rfl | ⟨p, _, hi⟩
    · exact H.size_pos
    · exact lt_size_of_parent (H.mem_children_iff.mp hi)
  · intro hi
    have hroot := H.within_root hi
    exact Relation.ReflTransGen.mono (fun _ _ hpc => H.mem_children_iff.mpr hpc) _ _ hroot.swap

end Model

/-- **Every model that is built is well-formed**, whatever the nodes of the unit are like. -/
theorem CompilationUnit.model_wellFormed (u : CompilationUnit) : u.model.WellFormed := by
  have H := u.model_inv
  have hdefines {i d k} (hd : d ∈ (u.model.scope i).decls) (hk : d.kind.opens? = some k) :
      ∃ c ∈ (u.model.scope i).children, d.defines = some c ∧ (u.model.scope c).name = d.name ∧
        (u.model.scope c).kind = k := by
    obtain ⟨c, hc, hparent, hname, hkind⟩ := H.opens hd k hk
    exact ⟨c, H.mem_children_iff.mpr hparent, hc, hname, hkind⟩
  exact
    { lt_size_iff := fun i => H.inTree_iff.symm
      reaches_root := fun i hi => H.within_root (H.inTree_iff.mp hi)
      root_parent := H.root_parent
      listed_once := fun i hi hne => by
        have hlt := H.inTree_iff.mp hi
        obtain ⟨p, hp⟩ := H.has_parent (Nat.pos_of_ne_zero hne) hlt
        refine ⟨p, H.inTree_iff.mpr (Nat.lt_trans (H.parent_lt hp) hlt), hp, fun q => ?_⟩
        rw [H.count_children, hp]
        simp [eq_comm]
      root_unlisted := fun q hq => by
        rw [H.mem_children_iff, H.root_parent] at hq
        contradiction
      declared_eq := H.find_eq
      decl_owner := fun _ _ => H.owner_eq
      decl_member := fun i d hd => by rw [H.member_eq hd]; simp [Scope.isClass]
      class_defines := fun i d hd hk => hdefines hd (by rw [hk]; rfl)
      namespace_defines := fun i d hd hk => hdefines hd (by rw [hk]; rfl)
      id_inTree := fun _ _ hi => H.inTree_iff.mpr (H.byId?_lt hi)
      id_resolves := fun i hi => by
        rw [Model.byId?, if_neg hi]
        exact Option.isSome_iff_exists.mp (H.id_known hi)
      use_name := fun _ => H.use_name
      use_inTree := fun _ hu => H.inTree_iff.mpr (Model.lt_size_of_kind_ne (H.use_kind hu))
      use_kind := fun _ => H.use_kind
      classes_nodup := H.classes_nodup
      mem_classes := fun i => by
        rw [H.mem_classes]
        refine ⟨fun hk => ⟨H.inTree_iff.mpr ?_, hk⟩, And.right⟩
        exact Model.lt_size_of_kind_ne (hk ▸ by decide)
      classified := fun policy follow _ _ => H.lookup_enclosingClass? policy follow
      judged := fun policy follow u _ => by
        obtain ⟨f, hf, _⟩ := H.evaluate?_judged policy follow u
        exact Option.isSome_of_eq_some hf }

end TwoPhase
