import TwoPhase.Proofs.ScopeTable
import Mathlib.Data.List.Nodup
import Mathlib.Logic.Relation

/-!
# The invariant of scope models

`Model.Inv` says how the parts of a model fit together: the parents and the lists of children describe one
tree, the index finds what the scopes own, declarations know their owner, and ids, uses and classes speak
of scopes of the table. `Draft.Edit` lists the changes that building a model is made of, each with what it
needs; every edit keeps the invariant (`Draft.Edit.inv`), and so does every run of edits.
-/

namespace TwoPhase

/-- The kind of scope that a declaration of this kind stands for. -/
def DeclKind.opens? : DeclKind → Option ScopeKind
  | namespaceName => some .namespaceScope
  | className => some .classScope
  | _ => none

/-- Scopes in one place of the tree; their declarations and the text of a class may differ. -/
structure Scope.SameFrame (s t : Scope) : Prop where
  id : s.id = t.id
  kind : s.kind = t.kind
  name : s.name = t.name
  parent : s.parent = t.parent
  children : s.children = t.children

theorem Scope.SameFrame.rfl {s : Scope} : s.SameFrame s :=
  ⟨Eq.refl _, Eq.refl _, Eq.refl _, Eq.refl _, Eq.refl _⟩

/-- Scopes that agree in what never changes. -/
structure Scope.SamePlace (s t : Scope) : Prop where
  kind : s.kind = t.kind
  name : s.name = t.name
  parent : s.parent = t.parent

theorem Scope.SamePlace.trans {s t r : Scope} (h : s.SamePlace t) (h' : t.SamePlace r) :
    s.SamePlace r :=
  ⟨h.kind.trans h'.kind, h.name.trans h'.name, h.parent.trans h'.parent⟩

theorem Scope.SameFrame.samePlace {s t : Scope} (h : s.SameFrame t) : s.SamePlace t :=
  ⟨h.kind, h.name, h.parent⟩

namespace Model

/-- A declaration of `name` in scope `i` that declares a class or namespace stands for a scope of that
name and kind whose parent is `i`. -/
def Opens (m : Model) (i : ScopeId) (name : String) (kind : DeclKind) (defines : Option ScopeId) :
    Prop :=
  ∀ k, kind.opens? = some k →
    ∃ c, defines = some c ∧ (m.scope c).parent = some i ∧ (m.scope c).name = name ∧
      (m.scope c).kind = k

/-- The scopes form a tree, and their declarations are those of the index. -/
structure TreeInv (m : Model) : Prop where
  size_pos : 0 < m.scopes.size
  root_parent : (m.scope root).parent = none
  root_kind : (m.scope root).kind = .namespaceScope
  parent_lt : ∀ {i p}, (m.scope i).parent = some p → p < i
  has_parent : ∀ {i}, 0 < i → i < m.scopes.size → ∃ p, (m.scope i).parent = some p
  count_children : ∀ p c,
    (m.scope p).children.count c = if (m.scope c).parent = some p then 1 else 0
  find_eq : ∀ i name, m.index.find i name = (m.scope i).decls.filter (·.name == name)
  owner_eq : ∀ {i d}, d ∈ (m.scope i).decls → d.owner = i
  member_eq : ∀ {i d}, d ∈ (m.scope i).decls → d.member = (m.scope i).isClass
  opens : ∀ {i d}, d ∈ (m.scope i).decls → m.Opens i d.name d.kind d.defines

/-- **The invariant** of a model. The ids, the uses and the list of classes are kept beside the tree. -/
structure Inv (m : Model) : Prop extends TreeInv m where
  id_lt : ∀ {id i}, (id, i) ∈ m.ids → i < m.scopes.size
  id_known : ∀ {i}, (m.scope i).id ≠ "" → (m.ids.lookup (m.scope i).id).isSome
  use_name : ∀ {u}, u ∈ m.uses → u.name ≠ ""
  use_kind : ∀ {u}, u ∈ m.uses → (m.scope u.scope).kind ≠ .namespaceScope
  classes_nodup : m.classes.Nodup
  mem_classes : ∀ {i}, i ∈ m.classes ↔ (m.scope i).kind = .classScope

theorem lt_size_of_kind_ne {m : Model} (h : (m.scope i).kind ≠ .namespaceScope) :
    i < m.scopes.size := by
  by_contra hi
  rw [scope_of_size_le (Nat.le_of_not_lt hi)] at h
  exact h rfl

variable {m m' : Model}

theorem Inv.lookup_lt (H : m.Inv) {id : String} (h : m.ids.lookup id = some i) : i < m.scopes.size := by
  obtain ⟨before, after, hids, _⟩ := List.lookup_eq_some_iff.mp h
  have hmem : (id, i) ∈ m.ids := by
    rw [hids]
    simp
  exact H.id_lt hmem

theorem Inv.byId?_lt (H : m.Inv) {id : String} (h : m.byId? id = some i) : i < m.scopes.size := by
  unfold byId? at h
  split at h
  · contradiction
  · exact H.lookup_lt h

theorem Opens.of_frame (hf : ∀ i, (m'.scope i).SameFrame (m.scope i))
    (H : m.Opens i name kind defines) : m'.Opens i name kind defines := by
  intro k hk
  obtain ⟨c, hc, hparent, hname, hkind⟩ := H k hk
  refine ⟨c, hc, ?_, ?_, ?_⟩
  · rw [(hf c).parent, hparent]
  · rw [(hf c).name, hname]
  · rw [(hf c).kind, hkind]

/-- The tree stays if every scope keeps its frame and what is declared in addition is in order. -/
theorem TreeInv.of_frame (H : m.TreeInv) (hsize : m'.scopes.size = m.scopes.size)
    (hf : ∀ i, (m'.scope i).SameFrame (m.scope i))
    (hfind : ∀ i name, m'.index.find i name = (m'.scope i).decls.filter (·.name == name))
    (hdecls : ∀ i d, d ∈ (m'.scope i).decls → d ∈ (m.scope i).decls ∨
      d.owner = i ∧ d.member = (m.scope i).isClass ∧ m.Opens i d.name d.kind d.defines) :
    m'.TreeInv where
  size_pos := hsize ▸ H.size_pos
  root_parent := by rw [(hf _).parent, H.root_parent]
  root_kind := by rw [(hf _).kind, H.root_kind]
  parent_lt := by
    intro i p hp
    rw [(hf i).parent] at hp
    exact H.parent_lt hp
  has_parent := by
    intro i hi hlt
    rw [(hf i).parent]
    exact H.has_parent hi (hsize ▸ hlt)
  count_children := by
    intro p c
    rw [(hf p).children, (hf c).parent, H.count_children]
  find_eq := hfind
  owner_eq := by
    intro i d hd
    rcases hdecls i d hd with hd | ⟨h, _⟩
    · exact H.owner_eq hd
    · exact h
  member_eq := by
    intro i d hd
    have hclass : (m'.scope i).isClass = (m.scope i).isClass := by simp [Scope.isClass, (hf i).kind]
    rw [hclass]
    rcases hdecls i d hd with hd | ⟨_, h, _⟩
    · exact H.member_eq hd
    · exact h
  opens := by
    intro i d hd
    rcases hdecls i d hd with hd | ⟨_, _, h⟩
    · exact (H.opens hd).of_frame hf
    · exact h.of_frame hf

/-- The invariant stays if every scope keeps its frame and the tables beside the tree stay in order. -/
theorem Inv.of_frame (H : m.Inv) (ht : m'.TreeInv)
    (hsize : m'.scopes.size = m.scopes.size) (hf : ∀ i, (m'.scope i).SameFrame (m.scope i))
    (hids : ∀ id i, (id, i) ∈ m'.ids → i < m.scopes.size)
    (hknown : ∀ id, (m.ids.lookup id).isSome → (m'.ids.lookup id).isSome)
    (huses : ∀ u ∈ m'.uses, u ∈ m.uses ∨
      u.name ≠ "" ∧ (m.scope u.scope).kind ≠ .namespaceScope)
    (hclasses : m'.classes = m.classes) : m'.Inv where
  toTreeInv := ht
  id_lt := fun h => hsize ▸ hids _ _ h
  id_known := by
    intro i hi
    rw [(hf i).id] at hi ⊢
    exact hknown _ (H.id_known hi)
  use_name := by
    intro u hu
    rcases huses u hu with hu | ⟨h, _⟩
    · exact H.use_name hu
    · exact h
  use_kind := by
    intro u hu
    rw [(hf _).kind]
    rcases huses u hu with hu | ⟨_, h⟩
    · exact H.use_kind hu
    · exact h
  classes_nodup := hclasses ▸ H.classes_nodup
  mem_classes := by
    intro i
    rw [hclasses, (hf i).kind, H.mem_classes]

end Model

namespace Draft

/-- A change of the text of a class. -/
structure KeepsFrame (f : Scope → Scope) : Prop where
  frame : ∀ sc, (f sc).SameFrame sc
  decls : ∀ sc, (f sc).decls = sc.decls

/-- **One change of a draft**, with what it needs. -/
inductive Edit : Draft → Draft → Prop
  | skip {b : Draft} : Edit b b.skip
  | defer {b : Draft} : Edit b { b with deferred := ds }
  | register {b : Draft} {id : String} : s < b.next → Edit b (b.register id s)
  | declare {b : Draft} : s < b.next → b.model.Opens s name kind defines →
    Edit b (b.declare s name kind loc static injected defines)
  | openScope {b : Draft} : p < b.next → kind ≠ .classScope → Edit b (b.openScope p kind d)
  | openClass {b : Draft} : p < b.next → Edit b (b.openClass p d)
  | amend {b : Draft} : s < b.next → KeepsFrame f → Edit b (b.modifyScope s f)
  | use {b : Draft} {u : Use} : u.name ≠ "" → (b.model.scope s).kind ≠ .namespaceScope →
    Edit b { b with model := { b.model with uses := b.model.uses ++ [u.placed b.model.file s] } }

variable {b b' : Draft} {s p i : ScopeId} {id : String} {d : DeclInfo} {f : Scope → Scope}

/-! ### The tree under the operations -/

theorem declare_frame (h : s < b.next) (i : ScopeId) :
    ((b.declare s name kind loc static injected defines).model.scope i).SameFrame
      (b.model.scope i) := by
  rw [declare_scope h]
  split
  · next hi => subst hi; exact ⟨rfl, rfl, rfl, rfl, rfl⟩
  · exact .rfl

theorem declare_tree (H : b.model.TreeInv) (h : s < b.next)
    (hopens : b.model.Opens s name kind defines) :
    (b.declare s name kind loc static injected defines).model.TreeInv := by
  refine H.of_frame declare_next (declare_frame h) (fun i n => ?_) (fun i d hd => ?_)
  · rw [declare_find, declare_scope h, H.find_eq]
    by_cases hi : i = s
    · subst hi
      by_cases hn : n = name
      · simp [hn, newDecl]
      · simp [hn, Ne.symm hn, newDecl]
    · simp [hi]
  · rw [declare_scope h] at hd
    split at hd
    · next hi =>
      subst hi
      rcases List.mem_append.mp hd with hd | hd
      · exact .inl hd
      · cases List.mem_singleton.mp hd
        exact .inr ⟨rfl, rfl, hopens⟩
    · exact .inl hd

theorem openScope_parent (h : p < b.next) (i : ScopeId) :
    ((b.openScope p kind d).model.scope i).parent =
      if i = b.next then some p else (b.model.scope i).parent := by
  rw [openScope_scope h]
  split
  · rfl
  · split
    · next hi => rw [hi]
    · rfl

/-- A new scope does not change the frame of the others, but for the children of its parent. -/
theorem openScope_of_ne (h : p < b.next) (hi : i ≠ b.next) :
    ((b.openScope p kind d).model.scope i).id = (b.model.scope i).id ∧
      ((b.openScope p kind d).model.scope i).kind = (b.model.scope i).kind ∧
      ((b.openScope p kind d).model.scope i).name = (b.model.scope i).name ∧
      ((b.openScope p kind d).model.scope i).decls = (b.model.scope i).decls := by
  rw [openScope_scope h, if_neg hi]
  split
  · next hip => subst hip; exact ⟨rfl, rfl, rfl, rfl⟩
  · exact ⟨rfl, rfl, rfl, rfl⟩

theorem openScope_self (h : p < b.next) :
    (b.openScope p kind d).model.scope b.next =
      { id := d.id, kind, name := d.name, loc := d.loc, parent := some p } := by
  rw [openScope_scope h, if_pos rfl]

theorem scope_next : b.model.scope b.next = {} :=
  Model.scope_of_size_le (Nat.le_refl _)

theorem openScope_decls (h : p < b.next) (i : ScopeId) :
    ((b.openScope p kind d).model.scope i).decls = (b.model.scope i).decls := by
  by_cases hi : i = b.next
  · rw [hi, openScope_self h, scope_next]
  · exact (openScope_of_ne h hi).2.2.2

theorem opens_openScope (hp : p < b.next) (H : b.model.Opens i name kind defines) :
    (b.openScope p k d).model.Opens i name kind defines := by
  intro k' hk
  obtain ⟨c, hc, hparent, hname, hkind⟩ := H k' hk
  have hne : c ≠ b.next := (Nat.ne_of_lt (Model.lt_size_of_parent hparent))
  obtain ⟨_, hkind', hname', _⟩ := openScope_of_ne hp hne
  refine ⟨c, hc, ?_, ?_, ?_⟩
  · rw [openScope_parent hp, if_neg hne, hparent]
  · rw [hname', hname]
  · rw [hkind', hkind]

theorem openScope_count_children (H : b.model.TreeInv) (hp : p < b.next) (q c : ScopeId) :
    ((b.openScope p kind d).model.scope q).children.count c =
      if ((b.openScope p kind d).model.scope c).parent = some q then 1 else 0 := by
  have hold := H.count_children q c
  rw [openScope_parent hp c, openScope_scope hp q]
  by_cases hc : c = b.next
  · -- the new scope is in the list of its parent and, having had no parent, in no other
    subst hc
    rw [scope_next] at hold
    by_cases hq : q = b.next
    · simp [hq, Nat.ne_of_lt hp]
    · by_cases hqp : q = p
      · subst hqp
        simpa [hq] using hold
      · simpa [hq, hqp, Ne.symm hqp] using hold
  · rw [if_neg hc]
    by_cases hq : q = b.next
    · subst hq
      have hne : (b.model.scope c).parent ≠ some b.next := by
        intro hpar
        exact Nat.lt_asymm (H.parent_lt hpar) (Model.lt_size_of_parent hpar)
      simp [hne]
    · by_cases hqp : q = p
      · subst hqp
        simpa [hq, Ne.symm hc] using hold
      · simpa [hq, hqp] using hold

theorem openScope_tree (H : b.model.TreeInv) (hp : p < b.next) :
    (b.openScope p kind d).model.TreeInv := by
  have hroot : Model.root ≠ b.next := Nat.ne_of_lt H.size_pos
  refine
    { size_pos := ?_, root_parent := ?_, root_kind := ?_, parent_lt := ?_, has_parent := ?_
      count_children := openScope_count_children H hp, find_eq := ?_, owner_eq := ?_
      member_eq := ?_, opens := ?_ }
  · exact Nat.lt_of_lt_of_eq (Nat.succ_pos _) openScope_next.symm
  · rw [openScope_parent hp, if_neg hroot, H.root_parent]
  · rw [(openScope_of_ne hp hroot).2.1, H.root_kind]
  · intro i q hq
    rw [openScope_parent hp] at hq
    split at hq
    · next hi => cases hq; exact hi ▸ hp
    · exact H.parent_lt hq
  · intro i hi hlt
    rw [openScope_parent hp]
    by_cases hin : i = b.next
    · exact ⟨p, if_pos hin⟩
    · have hlt' : i < b.next + 1 := Nat.lt_of_lt_of_eq hlt openScope_next
      rw [if_neg hin]
      exact H.has_parent hi (Nat.lt_of_le_of_ne (Nat.lt_succ_iff.mp hlt') hin)
  · intro i n
    rw [openScope_index, openScope_decls hp, H.find_eq]
  · intro i d hd
    rw [openScope_decls hp] at hd
    exact H.owner_eq hd
  · intro i d hd
    rw [openScope_decls hp] at hd
    have hne : i ≠ b.next := Nat.ne_of_lt (Model.lt_size_of_mem_decls hd)
    rw [H.member_eq hd, Scope.isClass, Scope.isClass, (openScope_of_ne hp hne).2.1]
  · intro i d hd
    rw [openScope_decls hp] at hd
    exact opens_openScope hp (H.opens hd)

/-! ### The tables beside the tree -/

theorem openScope_id_lt (H : b.model.Inv) (h : (id, i) ∈ (b.openScope p kind d).model.ids) :
    i < b.next + 1 := by
  rw [openScope_ids] at h
  rcases mem_register_ids h with h | h
  · exact Nat.lt_succ_of_lt (H.id_lt h)
  · cases h
    exact Nat.lt_succ_self _

theorem openScope_id_known (H : b.model.Inv) (hp : p < b.next)
    (h : ((b.openScope p kind d).model.scope i).id ≠ "") :
    ((b.openScope p kind d).model.ids.lookup ((b.openScope p kind d).model.scope i).id).isSome := by
  rw [openScope_ids]
  by_cases hi : i = b.next
  · subst hi
    rw [openScope_self hp] at h ⊢
    exact lookup_register_self h
  · rw [(openScope_of_ne hp hi).1] at h ⊢
    have hknown := H.id_known h
    rwa [lookup_register_of_isSome hknown]

theorem openScope_use_kind (H : b.model.Inv) (hp : p < b.next) (hu : u ∈ b.model.uses) :
    ((b.openScope p kind d).model.scope u.scope).kind ≠ .namespaceScope := by
  have hne : u.scope ≠ b.next := Nat.ne_of_lt (Model.lt_size_of_kind_ne (H.use_kind hu))
  rw [(openScope_of_ne hp hne).2.1]
  exact H.use_kind hu

theorem openScope_kind (hp : p < b.next) (i : ScopeId) :
    ((b.openScope p kind d).model.scope i).kind =
      if i = b.next then kind else (b.model.scope i).kind := by
  by_cases hi : i = b.next
  · rw [if_pos hi, hi, openScope_self hp]
  · rw [if_neg hi, (openScope_of_ne hp hi).2.1]

theorem openScope_inv (H : b.model.Inv) (hp : p < b.next) (hk : kind ≠ .classScope) :
    (b.openScope p kind d).model.Inv where
  toTreeInv := openScope_tree H.toTreeInv hp
  id_lt := fun h => Nat.lt_of_lt_of_eq (openScope_id_lt H h) openScope_next.symm
  id_known := openScope_id_known H hp
  use_name := fun hu => H.use_name (openScope_uses ▸ hu)
  use_kind := fun hu => openScope_use_kind H hp (openScope_uses ▸ hu)
  classes_nodup := by
    rw [openScope_classes]
    exact H.classes_nodup
  mem_classes := by
    intro i
    rw [openScope_classes, H.mem_classes, openScope_kind hp]
    split
    · next hi => simp [hi, scope_next, hk]
    · rfl

theorem openClass_inv (H : b.model.Inv) (hp : p < b.next) : (b.openClass p d).model.Inv where
  toTreeInv :=
    have ht := openScope_tree H.toTreeInv hp
    ht.of_frame rfl (fun _ => .rfl) ht.find_eq (fun _ _ hd => .inl hd)
  id_lt := fun h => Nat.lt_of_lt_of_eq (openScope_id_lt H h) openScope_next.symm
  id_known := openScope_id_known H hp
  use_name := fun hu => H.use_name (openScope_uses ▸ hu)
  use_kind := fun hu => openScope_use_kind H hp (openScope_uses ▸ hu)
  classes_nodup := by
    have hnew : b.next ∉ b.model.classes := by simp [H.mem_classes, scope_next]
    simpa using List.nodup_append.mpr ⟨H.classes_nodup, List.nodup_singleton b.next, by
      intro i hi j hj
      cases List.mem_singleton.mp hj
      exact fun hij => hnew (hij ▸ hi)⟩
  mem_classes := by
    intro i
    rw [openClass_classes, openClass_scope, openScope_kind hp, List.mem_append, H.mem_classes]
    split
    · next hi => simp [hi]
    · next hi => simp [hi]

theorem register_inv (H : b.model.Inv) (hs : s < b.next) : (b.register id s).model.Inv := by
  have hframe (i : ScopeId) : ((b.register id s).model.scope i).SameFrame (b.model.scope i) := by
    rw [register_scope]
    exact .rfl
  have htree : (b.register id s).model.TreeInv := by
    refine H.toTreeInv.of_frame register_next hframe (fun i n => ?_) (fun i d hd => .inl ?_)
    · rw [register_index, register_scope, H.find_eq]
    · rwa [register_scope] at hd
  refine H.of_frame htree register_next hframe (fun id' i hi => ?_) (fun id' h => ?_)
    (fun u hu => .inl ?_) register_classes
  · rcases mem_register_ids hi with hi | hi
    · exact H.id_lt hi
    · cases hi
      exact hs
  · rwa [lookup_register_of_isSome h]
  · rwa [register_uses] at hu

theorem modifyScope_inv (H : b.model.Inv) (hs : s < b.next) (hf : KeepsFrame f) :
    (b.modifyScope s f).model.Inv := by
  have hframe (i : ScopeId) : ((b.modifyScope s f).model.scope i).SameFrame (b.model.scope i) := by
    rw [modifyScope_scope hs]
    split
    · next hi => exact hi ▸ hf.frame _
    · exact .rfl
  have hdecls (i : ScopeId) :
      ((b.modifyScope s f).model.scope i).decls = (b.model.scope i).decls := by
    rw [modifyScope_scope hs]
    split
    · next hi => exact hi ▸ hf.decls _
    · rfl
  have htree : (b.modifyScope s f).model.TreeInv := by
    refine H.toTreeInv.of_frame modifyScope_next hframe (fun i n => ?_) (fun i d hd => .inl ?_)
    · rw [hdecls]
      exact H.find_eq i n
    · rwa [hdecls] at hd
  exact H.of_frame htree modifyScope_next hframe (fun _ _ => H.id_lt) (fun _ h => h)
    (fun _ hu => .inl hu) rfl

/-- Every edit keeps the invariant. -/
theorem Edit.inv (h : Edit b b') (H : b.model.Inv) : b'.model.Inv := by
  have same (i : ScopeId) : (b.model.scope i).SameFrame (b.model.scope i) := .rfl
  cases h with
  | skip | defer =>
    exact H.of_frame (H.toTreeInv.of_frame rfl same H.find_eq fun _ _ hd => .inl hd) rfl same
      (fun _ _ => H.id_lt) (fun _ h => h) (fun _ hu => .inl hu) rfl
  | register hs => exact register_inv H hs
  | declare hs hopens =>
    exact H.of_frame (declare_tree H.toTreeInv hs hopens) declare_next (declare_frame hs)
      (fun _ _ => H.id_lt) (fun _ h => h) (fun _ hu => .inl hu) rfl
  | openScope hp hk => exact openScope_inv H hp hk
  | openClass hp => exact openClass_inv H hp
  | amend hs hf => exact modifyScope_inv H hs hf
  | use hname hkind =>
    refine H.of_frame (H.toTreeInv.of_frame rfl same H.find_eq fun _ _ hd => .inl hd) rfl same
      (fun _ _ => H.id_lt) (fun _ h => h) (fun u hu => ?_) rfl
    rcases List.mem_append.mp hu with hu | hu
    · exact .inl hu
    · cases List.mem_singleton.mp hu
      exact .inr ⟨hname, hkind⟩

end Draft

end TwoPhase
