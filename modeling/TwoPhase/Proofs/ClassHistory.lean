import TwoPhase.Proofs.ClassNodes

/-!
# The history of the classes of a unit

While a model is built, each class is what the nodes met so far have made of it (`Model.Told`). Nodes that are
no class nodes leave all classes as they are, and a class node changes its own class alone. So the account holds
whenever a node is met, and in the end it tells of every class which nodes it comes from: one definition at
most, and declarations, whose parameters may be other than those of the definition.
-/

namespace TwoPhase

namespace Model

/-- A class called `name` in scope `p` that has not been defined. -/
structure OpenClassAt (m : Model) (p : ScopeId) (name : String) (s : ScopeId) : Prop where
  isClass : (m.scope s).isClass = true
  parent_eq : (m.scope s).parent = some p
  name_eq : (m.scope s).name = name
  isOpen : (m.scope s).defined = false

/-- Of the classes of one name in one scope, at most one is not defined. -/
def OneOpenClass (m : Model) : Prop :=
  ∀ {p name s s'}, name ≠ "" → m.OpenClassAt p name s → m.OpenClassAt p name s' → s = s'

/-- **The classes of a model are what the nodes met so far have made of them.** -/
structure Told (past : List Visit) (m : Model) : Prop where
  place : ∀ {v s}, v ∈ past → v.class? = some s → (m.scope s).isClass = true ∧
    (m.scope s).name = v.info.name ∧ (m.scope s).parent = some v.parent
  has_node : ∀ {s}, (m.scope s).isClass = true → ∃ v ∈ past, v.class? = some s
  made : ∀ {s}, (m.scope s).isClass = true → (m.scope s).MadeBy s (past.filter (·.class? == some s))
  declared : ∀ {s p}, (m.scope s).isClass = true → (m.scope s).parent = some p →
    (m.scope s).name ≠ "" → m.ClassDeclared p s
  one_open : m.OneOpenClass

end Model

namespace Draft

variable {b b' b'' : Draft} {s p i : ScopeId} {d : DeclInfo}

/-! ### Nodes that are no class nodes -/

/-- From `b` to `b'` there are no new classes, and none changes. -/
structure KeepsClasses (b b' : Draft) : Prop where
  isClass : ∀ i, (b'.model.scope i).isClass = (b.model.scope i).isClass
  same : ∀ {i}, (b.model.scope i).isClass = true → (b.model.scope i).SameClass (b'.model.scope i)

namespace KeepsClasses

theorem refl : KeepsClasses b b :=
  ⟨fun _ => rfl, fun _ => .rfl⟩

theorem trans (h : KeepsClasses b b') (h' : KeepsClasses b' b'') : KeepsClasses b b'' :=
  ⟨fun i => (h'.isClass i).trans (h.isClass i),
    fun {i} hi => (h.same hi).trans (h'.same ((h.isClass i).trans hi))⟩

theorem of_scopes_eq (h : b'.model.scopes = b.model.scopes) : KeepsClasses b b' := by
  have hscope (i : ScopeId) : b'.model.scope i = b.model.scope i := by
    rw [Model.scope, h, Model.scope]
  exact ⟨fun i => by rw [hscope], fun {i} _ => by rw [hscope]; exact .rfl⟩

theorem declare (hs : s < b.next)
    (hk : kind = .templateParam → (b.model.scope s).isClass = false) :
    KeepsClasses b (b.declare s name kind loc static injected defines) := by
  refine ⟨fun i => ?_, fun {i} hi => ?_⟩
  · rw [Scope.isClass, (declare_frame hs i).kind, Scope.isClass]
  · by_cases hparam : kind = .templateParam
    · have hne : i ≠ s := fun his => Bool.false_ne_true ((hk hparam).symm.trans (his ▸ hi))
      rw [declare_scope hs, if_neg hne]
      exact .rfl
    · exact declare_sameClass hs hparam i

theorem declareOther (hs : s < b.next) (hk : kind ≠ .templateParam) :
    KeepsClasses b (b.declare s name kind loc static injected defines) :=
  .declare hs fun h => absurd h hk

theorem openScope (hp : p < b.next) (hk : k ≠ .classScope) : KeepsClasses b (b.openScope p k d) := by
  refine ⟨fun i => ?_, fun _ => openScope_sameClass hp _⟩
  rw [Scope.isClass, openScope_kind hp, Scope.isClass]
  split
  · next hi =>
    have hblank : (b.model.scope i).kind = .namespaceScope := by rw [hi, scope_next]
    rw [hblank]
    simpa using hk
  · rfl

theorem register {id : String} : KeepsClasses b (b.register id s) :=
  of_scopes_eq register_scopes

theorem addUses {uses : List (Option Use)} : KeepsClasses b (b.addUses s uses) :=
  of_scopes_eq addUses_scopes

theorem declareParams (hs : s < b.next) (hclass : (b.model.scope s).isClass = false) (loc : Loc)
    (params : List String) : KeepsClasses b (params.foldl (declareParam s loc) b) := by
  induction params generalizing b with
  | nil => exact .refl
  | cons q params ih =>
    have hstep : KeepsClasses b (declareParam s loc b q) := .declare hs fun _ => hclass
    exact hstep.trans (ih (Nat.lt_of_lt_of_eq hs declare_next.symm) ((hstep.isClass s).trans hclass))

theorem enterNamespace (hp : p < b.next) : KeepsClasses b (b.enterNamespace p d).2 := by
  unfold Draft.enterNamespace
  split
  · exact .register
  · have hopen : KeepsClasses b (b.openScope p .namespaceScope d) := .openScope hp (by decide)
    dsimp only
    split
    · exact hopen
    · exact hopen.trans (.declareOther (openScope_next ▸ Nat.lt_succ_of_lt hp) (by decide))

theorem enterBody (hp : p < b.next) (hk : k ≠ .classScope) : KeepsClasses b (b.enterBody p k d).2 := by
  have hopen : KeepsClasses b (b.openScope p k d) := .openScope hp hk
  simp only [Draft.enterBody]
  split
  · refine hopen.trans (.declareParams (openScope_next ▸ Nat.lt_succ_self _) ?_ _ _)
    rw [hopen.isClass, scope_next]
    rfl
  · exact hopen

theorem note (hp : p < b.next) : KeepsClasses b (b.note p d) := by
  have hskip : KeepsClasses b b.skip := .of_scopes_eq rfl
  have hname (kind : DeclKind) (hk : kind ≠ .templateParam) :
      KeepsClasses b ((b.declare p d.name kind d.loc d.static).addUses p d.uses) :=
    (KeepsClasses.declareOther hp hk).trans .addUses
  unfold Draft.note
  split
  · split
    · exact hskip
    · exact hname _ (by decide)
  · split
    · exact hskip
    · exact hname _ (by decide)
  · exact hskip

theorem enterOutOfLine (h : b.enterOutOfLine? d = some r) : KeepsClasses b r.2 := by
  unfold enterOutOfLine? at h
  split at h
  · cases h
  · next owner _ =>
    split at h
    · cases h
    · next hclass =>
      have howner : owner < b.next := Model.lt_size_of_isClass (by simpa using hclass)
      cases h
      split
      · have hdecl : KeepsClasses b (b.declare owner d.name .functionName d.loc d.static) :=
          .declareOther howner (by decide)
        exact hdecl.trans (.enterBody (Nat.lt_of_lt_of_eq howner declare_next.symm) (by decide))
      · exact .enterBody howner (by decide)

end KeepsClasses

/-- A node that is not a class node enters its scope without a change to any class. -/
theorem enter?_keepsClasses (hp : p < b.next) (h : b.enter? p d defines = some r)
    (hk : NodeKind.ofText? d.kind ≠ some .classNode) : KeepsClasses b r.2 := by
  unfold enter? at h
  split at h
  · cases h
    exact .enterNamespace hp
  · next hclass => exact absurd hclass hk
  · split at h
    · cases h
    · cases h
      have hdecl : KeepsClasses b
          (b.declare p d.name .functionName d.loc d.static false (some b.next)) :=
        .declareOther hp (by decide)
      exact hdecl.trans (.enterBody (Nat.lt_of_lt_of_eq hp declare_next.symm) (by decide))
  · cases h
    exact .enterBody hp (by decide)
  · cases h

end Draft

namespace Model.Told

open Draft

variable {b b' : Draft} {s p : ScopeId} {past new : List Visit} {v : Visit}

/-- Steps that change no class keep the account. -/
theorem keep (h : b.model.Told past) (hrun : Run b b') (hkeeps : KeepsClasses b b')
    (hnew : ∀ v ∈ new, v.class? = none) : b'.model.Told (past ++ new) := by
  have hplace {i} (hi : (b'.model.scope i).isClass = true) : (b.model.scope i).isClass = true ∧
      (b'.model.scope i).SamePlace (b.model.scope i) := by
    rw [hkeeps.isClass] at hi
    exact ⟨hi, hrun.samePlace (lt_size_of_isClass hi)⟩
  have hfilter (s : ScopeId) :
      (past ++ new).filter (·.class? == some s) = past.filter (·.class? == some s) := by
    rw [List.filter_append, List.append_right_eq_self, List.filter_eq_nil_iff]
    intro v hv
    simp [hnew v hv]
  have hopen {p name s} (ho : b'.model.OpenClassAt p name s) : b.model.OpenClassAt p name s := by
    obtain ⟨hs, hsame⟩ := hplace ho.isClass
    exact ⟨hs, hsame.parent.symm.trans ho.parent_eq, hsame.name.symm.trans ho.name_eq,
      (hkeeps.same hs).defined.symm.trans ho.isOpen⟩
  refine ⟨fun {v s} hv hs => ?_, fun {s} hs => ?_, fun {s} hs => ?_, fun {s p} hs hp hname => ?_,
    fun hne ho ho' => h.one_open hne (hopen ho) (hopen ho')⟩
  · rcases List.mem_append.mp hv with hv | hv
    · obtain ⟨hclass, hname, hparent⟩ := h.place hv hs
      have hclass' := (hkeeps.isClass s).trans hclass
      exact ⟨hclass', (hplace hclass').2.name.trans hname, (hplace hclass').2.parent.trans hparent⟩
    · cases (hnew v hv).symm.trans hs
  · obtain ⟨v, hv, hvs⟩ := h.has_node (hplace hs).1
    exact ⟨v, List.mem_append_left _ hv, hvs⟩
  · rw [hfilter]
    exact (h.made (hplace hs).1).congr (hkeeps.same (hplace hs).1)
  · obtain ⟨hold, hsame⟩ := hplace hs
    rw [hsame.parent] at hp
    rw [hsame.name] at hname
    exact hrun.classDeclared (lt_size_of_isClass hold) (h.declared hold hp hname)

/-- The same of steps between two nodes. -/
theorem keep_between (h : b.model.Told past) (hrun : Run b b') (hkeeps : KeepsClasses b b') :
    b'.model.Told past := by
  have hkeep : b'.model.Told (past ++ []) := h.keep hrun hkeeps (List.forall_mem_nil _)
  rwa [List.append_nil] at hkeep

/-- What the nodes met so far have made of the scope that a class node comes to. -/
theorem madeBy_before (h : b.model.Told past)
    (hs : (b.model.scope s).isClass = true ∨ s = b.next) :
    (b.model.scope s).MadeBy s (past.filter (·.class? == some s)) := by
  rcases hs with hs | rfl
  · exact h.made hs
  · -- a scope that is still to be opened has no nodes
    have hnil : past.filter (·.class? == some b.next) = [] := by
      rw [List.filter_eq_nil_iff]
      intro v hv hvs
      obtain ⟨hclass, _⟩ := h.place hv (by simpa using hvs)
      rw [scope_next] at hclass
      cases hclass
    rw [hnil, scope_next]
    exact Scope.madeBy_nil _

end Model.Told

namespace Draft.Taken

variable {b b' : Draft} {s p i : ScopeId} {d : DeclInfo} {past : List Visit}

/-- A class other than that of the node is where it was. -/
theorem place_of_ne (ht : Taken b p d defines s b') (hi : i ≠ s)
    (hclass : (b'.model.scope i).isClass = true) :
    (b.model.scope i).isClass = true ∧ (b'.model.scope i).SamePlace (b.model.scope i) := by
  rw [ht.isClass hi] at hclass
  exact ⟨hclass, ht.run.samePlace (Model.lt_size_of_isClass hclass)⟩

theorem openClassAt_of_ne (ht : Taken b p d defines s b') (hi : i ≠ s)
    (ho : b'.model.OpenClassAt q name i) : b.model.OpenClassAt q name i := by
  obtain ⟨hclass, hsame⟩ := ht.place_of_ne hi ho.isClass
  exact ⟨hclass, hsame.parent.symm.trans ho.parent_eq, hsame.name.symm.trans ho.name_eq,
    (ht.same hi).defined.symm.trans ho.isOpen⟩

/-- If the class of the node is open, it is the only one in its place. -/
theorem openClassAt_unique (ht : Taken b p d defines s b') (H : b.model.Inv) (h : b.model.Told past)
    (hne : name ≠ "") (hs : b'.model.OpenClassAt q name s) (hi : b'.model.OpenClassAt q name i) :
    i = s := by
  by_contra his
  have hold := ht.openClassAt_of_ne his hi
  have hopen := hs.isOpen
  rw [ht.takes.defined, Bool.or_eq_false_iff] at hopen
  rcases ht.old_or_new with hclass | ⟨_, hnone⟩
  · have hsame := ht.run.samePlace (Model.lt_size_of_isClass hclass)
    exact his (h.one_open hne hold ⟨hclass, hsame.parent.symm.trans hs.parent_eq,
      hsame.name.symm.trans hs.name_eq, hopen.1⟩)
  · -- a node that only declares the class would have joined the other one
    cases ht.parent_eq.symm.trans hs.parent_eq
    cases ht.name_eq.symm.trans hs.name_eq
    obtain ⟨c, hc, hkind, hcname, hdefines⟩ :=
      h.declared hold.isClass hold.parent_eq (hold.name_eq ▸ hne)
    have hdef := (class?_none H.toTreeInv hnone hne hc hkind (hcname.trans hold.name_eq) hdefines).1
    exact Bool.false_ne_true (hopen.2.symm.trans hdef)

theorem oneOpenClass (ht : Taken b p d defines s b') (H : b.model.Inv) (h : b.model.Told past) :
    b'.model.OneOpenClass := by
  intro q name i j hne hi hj
  by_cases his : i = s
  · subst his
    exact (ht.openClassAt_unique H h hne hi hj).symm
  · by_cases hjs : j = s
    · subst hjs
      exact ht.openClassAt_unique H h hne hj hi
    · exact h.one_open hne (ht.openClassAt_of_ne his hi) (ht.openClassAt_of_ne hjs hj)

end Draft.Taken

/-- A class node adds to the account of its class. -/
theorem Model.Told.take {v : Visit} {past : List Visit} (H : v.before.model.Inv)
    (h : v.before.model.Told past) (ht : Draft.Taken v.before v.parent v.info v.defines s b')
    (hv : v.class? = some s) : b'.model.Told (past ++ [v]) := by
  have hself : (b'.model.scope s).isClass = true := by simp [Scope.isClass, ht.kind]
  refine ⟨fun {v' i} hv' hi => ?_, fun {i} hi => ?_, fun {i} hi => ?_, fun {i p} hi hp hname => ?_,
    ht.oneOpenClass H h⟩
  · rcases List.mem_append.mp hv' with hv' | hv'
    · obtain ⟨hclass, hname, hparent⟩ := h.place hv' hi
      have hsame := ht.run.samePlace (Model.lt_size_of_isClass hclass)
      refine ⟨?_, hsame.name.trans hname, hsame.parent.trans hparent⟩
      rwa [Scope.isClass, hsame.kind]
    · cases List.mem_singleton.mp hv'
      cases hv.symm.trans hi
      exact ⟨hself, ht.name_eq, ht.parent_eq⟩
  · by_cases his : i = s
    · exact ⟨v, by simp, his ▸ hv⟩
    · obtain ⟨v', hv', hvi⟩ := h.has_node (ht.place_of_ne his hi).1
      exact ⟨v', List.mem_append_left _ hv', hvi⟩
  · by_cases his : i = s
    · subst his
      have hfilter : [v].filter (·.class? == some i) = [v] := by simp [hv]
      rw [List.filter_append, hfilter]
      refine (h.madeBy_before ?_).take rfl ht.isOpen ht.takes
      exact ht.old_or_new.imp_right And.left
    · have hfilter : [v].filter (·.class? == some i) = [] := by simp [hv, Ne.symm his]
      rw [List.filter_append, hfilter, List.append_nil]
      exact (h.made (ht.place_of_ne his hi).1).congr (ht.same his)
  · by_cases his : i = s
    · subst his
      cases ht.parent_eq.symm.trans hp
      exact ht.declared (ht.name_eq ▸ hname)
    · obtain ⟨hold, hsame⟩ := ht.place_of_ne his hi
      rw [hsame.parent] at hp
      rw [hsame.name] at hname
      exact ht.run.classDeclared (Model.lt_size_of_isClass hold) (h.declared hold hp hname)

namespace Draft

variable {b b' : Draft} {p : ScopeId} {d : DeclInfo} {past : List Visit}

theorem start_told (file : String) : (start file).model.Told [] := by
  have hblank (i : ScopeId) : (start file).model.scope i = {} := by cases i <;> rfl
  have hnone {i} (h : ((start file).model.scope i).isClass = true) : False := by
    rw [hblank] at h
    cases h
  exact ⟨fun hv => absurd hv List.not_mem_nil, fun hs => (hnone hs).elim, fun hs => (hnone hs).elim,
    fun hs => (hnone hs).elim, fun _ ho => (hnone ho.isClass).elim⟩

theorem class?_eq_none_of_kind {v : Visit} (h : NodeKind.ofText? v.info.kind ≠ some .classNode) :
    v.class? = none := by
  simp [Visit.class?, Visit.isClass, h]

/-- The account of the classes is kept at every step. -/
theorem told_keptBySteps : KeptBySteps fun past b => b.model.Told past where
  enter := fun {past b p d members s b'} H hp h henter => by
    by_cases hk : NodeKind.ofText? d.kind = some .classNode
    · have htake : b.takeClass p d (d.definesClass members) = (s, b') := by
        simpa [enter?, hk] using henter
      have ht := takeClass_taken H hp d (d.definesClass members)
      have hclass : (⟨p, b, d, members⟩ : Visit).class? =
          some (b.takeClass p d (d.definesClass members)).1 := by
        simp [Visit.class?, Visit.isClass, Visit.defines, takeClass, hk]
      rw [htake] at ht hclass
      exact Model.Told.take (v := ⟨p, b, d, members⟩) H h ht hclass
    · obtain ⟨k, he⟩ := enter?_entered H hp henter
      exact h.keep he.run (enter?_keepsClasses hp henter hk)
        (List.forall_mem_singleton.mpr (class?_eq_none_of_kind hk))
  note := fun {past b p d members} H hp h henter => by
    have hk : NodeKind.ofText? d.kind ≠ some .classNode := by
      intro hk
      simp [enter?, hk] at henter
    exact h.keep (note_run H hp) (.note hp) (List.forall_mem_singleton.mpr (class?_eq_none_of_kind hk))
  setAside := fun {past b p d members} h haside => by
    have hk : NodeKind.ofText? d.kind ≠ some .classNode := by
      intro hk
      simp [DeclInfo.isOutOfLine, hk] at haside
    exact h.keep (.single .defer) (.of_scopes_eq rfl)
      (List.forall_mem_singleton.mpr (class?_eq_none_of_kind hk))
  enterOutOfLine := fun H h henter =>
    h.keep_between (enterOutOfLine?_entered H henter).run (.enterOutOfLine henter)
  addUses := fun uses H hs h => h.keep_between (addUses_run H hs uses) .addUses
  skip := fun h => h.keep_between (.single .skip) (.of_scopes_eq rfl)

end Draft

namespace CompilationUnit

variable (u : CompilationUnit)

theorem model_told : u.model.Told u.visits := by
  obtain ⟨⟨b, hb, hold⟩, _⟩ := u.visits_keep Draft.told_keptBySteps (Draft.start_told u.file)
  exact hb ▸ hold

theorem visit_told {v : Visit} (hv : v ∈ u.visits) : v.InOrder ∧ ∃ past, v.before.model.Told past :=
  (u.visits_keep Draft.told_keptBySteps (Draft.start_told u.file)).2 v hv

/-- The class nodes that share scope `s`, in the order in which they are met. -/
def classNodes (s : ScopeId) : List Visit :=
  u.visits.filter (·.class? == some s)

theorem mem_classNodes {v : Visit} : v ∈ u.classNodes s ↔ v ∈ u.visits ∧ v.class? = some s := by
  simp [classNodes]

end CompilationUnit

namespace Visit

variable {v : Visit}

theorem class?_eq_next_iff (hv : v.InOrder) (hclass : v.isClass = true) :
    v.class? = some v.before.next ↔ v.before.class? v.parent v.info.name v.defines = none := by
  rw [class?, if_pos hclass, Option.some.injEq]
  rcases Draft.enterClass_old_or_new hv.inv (p := v.parent) v.info v.defines with ⟨hold, hs⟩ | ⟨hs, hnone⟩
  · refine iff_of_false (fun heq => ?_) (by simp [hs])
    rw [heq, Draft.scope_next] at hold
    cases hold
  · exact iff_of_true hs hnone

/-- A node that declares a class and does not define it opens a scope exactly if no class of its name has been
declared in the same place. -/
theorem opens_iff (hv : v.InOrder) (hclass : v.isClass = true) (hname : v.info.name ≠ "")
    (hdef : v.defines = false) :
    v.class? = some v.before.next ↔
      ∀ c ∈ (v.before.model.scope v.parent).decls, c.kind = .className → c.name ≠ v.info.name := by
  rw [class?_eq_next_iff hv hclass]
  constructor
  · intro hnone c hc hkind hcname
    obtain ⟨s, hs, _⟩ := hv.inv.opens hc .classScope (by rw [hkind]; rfl)
    have hdef' := (Draft.class?_none hv.inv.toTreeInv hnone hname hc hkind hcname hs).1
    exact Bool.false_ne_true (hdef.symm.trans hdef')
  · intro hnone
    refine Draft.class?_eq_none (fun c hc hkind => ?_) _
    obtain ⟨hmem, hcname⟩ := hv.inv.mem_declared.mp hc
    exact hnone c hmem hkind hcname

end Visit

namespace Scope.TextOf

variable {sc : Scope} {nodes : List Visit}

theorem length_le (h : sc.TextOf nodes) : nodes.length ≤ 1 := by
  match nodes, h with
  | [], _ => exact Nat.zero_le _
  | [_], _ => exact Nat.le_refl _

theorem bases_eq (h : sc.TextOf nodes) :
    sc.bases = nodes.flatMap fun v => v.info.bases.filterMap Draft.wellFormed? := by
  match nodes, h with
  | [], h => exact h.2
  | [_], h => simpa using h.2.1

theorem loc_eq (h : sc.TextOf nodes) (hv : v ∈ nodes) : sc.loc = v.info.loc := by
  match nodes, h with
  | [_], h =>
    cases List.mem_singleton.mp hv
    exact h.2.2

end Scope.TextOf

/-- **No class mixes two definitions.** A class comes from nodes of its own name and place, of which at most one
defines it: the bases are those of that node, in order, and so is the place of the class. A named node that
does not define its class opens a scope exactly if no class of its name has been declared there before; so at
every point of the building, of the classes of one name in one place at most one is not yet defined. -/
theorem CompilationUnit.classes_not_mixed (u : CompilationUnit) :
    (∀ s, (u.model.scope s).isClass = true →
      u.classNodes s ≠ [] ∧
      (∀ v ∈ u.classNodes s, (u.model.scope s).name = v.info.name ∧
        (u.model.scope s).parent = some v.parent) ∧
      ((u.classNodes s).filter (·.defines)).length ≤ 1 ∧
      (u.model.scope s).bases = ((u.classNodes s).filter (·.defines)).flatMap
        (fun v => v.info.bases.filterMap Draft.wellFormed?) ∧
      ∀ v ∈ u.classNodes s, v.defines = true → (u.model.scope s).loc = v.info.loc) ∧
    (∀ v ∈ u.visits, v.isClass = true → v.info.name ≠ "" → v.defines = false →
      (v.class? = some v.before.next ↔
        ∀ c ∈ (v.before.model.scope v.parent).decls, c.kind = .className → c.name ≠ v.info.name)) ∧
    (∀ v ∈ u.visits, v.before.model.OneOpenClass) ∧ u.model.OneOpenClass := by
  have h := u.model_told
  refine ⟨fun s hs => ?_, fun v hv => Visit.opens_iff (u.visit_told hv).1, fun v hv => ?_, h.one_open⟩
  · have hmade : (u.model.scope s).TextOf ((u.classNodes s).filter (·.defines)) := (h.made hs).text
    refine ⟨?_, fun v hv => ?_, hmade.length_le, hmade.bases_eq, fun v hv hdef => ?_⟩
    · obtain ⟨v, hv, hvs⟩ := h.has_node hs
      exact List.ne_nil_of_mem (u.mem_classNodes.mpr ⟨hv, hvs⟩)
    · obtain ⟨hv, hvs⟩ := u.mem_classNodes.mp hv
      exact (h.place hv hvs).2
    · exact hmade.loc_eq (List.mem_filter.mpr ⟨hv, hdef⟩)
  · obtain ⟨_, past, hpast⟩ := u.visit_told hv
    exact hpast.one_open

/-- **Where the two records of template parameters part.** A class declares the parameters that are listed with it
and those of a declaration whose place a definition has taken, all of them parameters of one of its nodes. So the
two records agree exactly if each parameter that has been replaced is one of the class in the end. -/
theorem CompilationUnit.declaresParam_iff_replaced (u : CompilationUnit) {s : ScopeId}
    (hs : (u.model.scope s).isClass = true) :
    (∀ name, (u.model.scope s).DeclaresParam name ↔
      (u.model.scope s).hasTemplateParam name = true ∨ ∃ v ∈ u.classNodes s, v.Replaces s name) ∧
    (∀ name, (u.model.scope s).DeclaresParam name →
      ∃ v ∈ u.classNodes s, v.info.template = true ∧ name ∈ v.info.templateParams) ∧
    ((∀ name, (u.model.scope s).DeclaresParam name ↔
        (u.model.scope s).hasTemplateParam name = true) ↔
      ∀ v ∈ u.classNodes s, ∀ name, v.Replaces s name →
        (u.model.scope s).hasTemplateParam name = true) := by
  have hmade : (u.model.scope s).MadeBy s (u.classNodes s) := u.model_told.made hs
  have hparams (name : String) : (u.model.scope s).DeclaresParam name ↔
      (u.model.scope s).hasTemplateParam name = true ∨ ∃ v ∈ u.classNodes s, v.Replaces s name := by
    rw [hmade.params, Scope.hasTemplateParam, List.contains_iff_mem]
  refine ⟨hparams, hmade.origin, fun h v hv name hr => ?_, fun h name => ?_⟩
  · exact (h name).mp ((hparams name).mpr (.inr ⟨v, hv, hr⟩))
  · rw [hparams, or_iff_left_iff_imp]
    rintro ⟨v, hv, hr⟩
    exact h v hv name hr

/-- A class template that is declared with a parameter `U` and then defined with a parameter `T`. -/
def unitWithRenamedParam : CompilationUnit where
  file := "a.cpp"
  decls := some
    [.node { kind := "class", name := "B", template := true, templateParams := ["U"] } [],
      .node { kind := "class", name := "B", template := true, templateParams := ["T"] }
        [.node { kind := "variable", name := "m" } []]]

theorem declaresParam_iff_replaced_sample :
    (unitWithRenamedParam.model.scope 1).isClass = true ∧
    (unitWithRenamedParam.model.scope 1).DeclaresParam "U" ∧
    (unitWithRenamedParam.model.scope 1).hasTemplateParam "U" = false ∧
    ∃ v ∈ unitWithRenamedParam.classNodes 1, v.Replaces 1 "U" := by
  have hs : (unitWithRenamedParam.model.scope 1).isClass = true := by decide +kernel
  have hdeclares : (unitWithRenamedParam.model.scope 1).DeclaresParam "U" := by
    unfold Scope.DeclaresParam
    decide +kernel
  have hparam : (unitWithRenamedParam.model.scope 1).hasTemplateParam "U" = false := by decide +kernel
  have hreplaced := ((unitWithRenamedParam.declaresParam_iff_replaced hs).1 "U").mp hdeclares
  exact ⟨hs, hdeclares, hparam, hreplaced.resolve_left (by simp [hparam])⟩

end TwoPhase
