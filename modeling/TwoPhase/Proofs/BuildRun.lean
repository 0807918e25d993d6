import TwoPhase.Proofs.ScopeTree

/-!
# Building a model is a run of edits

Each operation of the builder is shown to be a run of edits from a draft in order, together with the place
and the kind of the scope that it enters. The walk over the declarations follows by one induction over
them, and the invariant of every model that is built with it (`CompilationUnit.model_inv`).
-/

namespace TwoPhase

namespace Model.TreeInv

variable {m : Model}

theorem mem_declared (H : m.TreeInv) {d : Declaration} :
    d ∈ m.declared i name ↔ d ∈ (m.scope i).decls ∧ d.name = name := by
  simp [declared, H.find_eq]

/-- What is declared as a class or namespace is a scope inside the declaring one. -/
theorem opens_declared (H : m.TreeInv) {d : Declaration} (hd : d ∈ m.declared i name)
    (hk : d.kind.opens? = some k) :
    ∃ c, d.defines = some c ∧ (m.scope c).parent = some i ∧ (m.scope c).name = name ∧
      (m.scope c).kind = k := by
  obtain ⟨hmem, rfl⟩ := H.mem_declared.mp hd
  exact H.opens hmem k hk

end Model.TreeInv

namespace Draft

/-- A finite sequence of edits. -/
abbrev Run : Draft → Draft → Prop := Relation.ReflTransGen Edit

variable {b b' : Draft} {s p i : ScopeId} {d : DeclInfo}

theorem Run.inv (h : Run b b') (H : b.model.Inv) : b'.model.Inv := by
  induction h with
  | refl => exact H
  | tail _ hedit ih => exact hedit.inv ih

theorem Edit.next_le (h : Edit b b') : b.next ≤ b'.next := by
  cases h with
  | skip | defer | use => exact Nat.le_refl _
  | register => exact Nat.le_of_eq register_next.symm
  | declare => exact Nat.le_of_eq declare_next.symm
  | amend => exact Nat.le_of_eq modifyScope_next.symm
  | openScope => exact openScope_next ▸ Nat.le_succ _
  | openClass => exact openClass_next ▸ Nat.le_succ _

theorem Run.next_le (h : Run b b') : b.next ≤ b'.next := by
  induction h with
  | refl => exact Nat.le_refl _
  | tail _ hedit ih => exact Nat.le_trans ih hedit.next_le

theorem openScope_samePlace (hp : p < b.next) (hi : i < b.next) :
    ((b.openScope p k d).model.scope i).SamePlace (b.model.scope i) := by
  rw [openScope_scope hp, if_neg (Nat.ne_of_lt hi)]
  split
  · next hip => exact hip ▸ ⟨rfl, rfl, rfl⟩
  · exact ⟨rfl, rfl, rfl⟩

theorem modifyScope_samePlace (hs : s < b.next) (hf : KeepsFrame f) (i : ScopeId) :
    ((b.modifyScope s f).model.scope i).SamePlace (b.model.scope i) := by
  rw [modifyScope_scope hs]
  split
  · next his => exact his ▸ (hf.frame _).samePlace
  · exact ⟨rfl, rfl, rfl⟩

/-- A scope keeps its kind, name and parent. -/
theorem Edit.samePlace (h : Edit b b') (hi : i < b.next) :
    (b'.model.scope i).SamePlace (b.model.scope i) := by
  cases h with
  | skip | defer | use => exact ⟨rfl, rfl, rfl⟩
  | register =>
    rw [register_scope]
    exact ⟨rfl, rfl, rfl⟩
  | declare hs => exact (declare_frame hs i).samePlace
  | amend hs hf => exact modifyScope_samePlace hs hf i
  | openScope hp => exact openScope_samePlace hp hi
  | openClass hp => exact openScope_samePlace hp hi

theorem Run.samePlace (h : Run b b') (hi : i < b.next) :
    (b'.model.scope i).SamePlace (b.model.scope i) := by
  induction h with
  | refl => exact ⟨rfl, rfl, rfl⟩
  | tail hrun hedit ih =>
    exact (hedit.samePlace (Nat.lt_of_lt_of_le hi (Run.next_le hrun))).trans ih

theorem register_byId? {id id' : String} (hid : b.model.byId? id = some i) :
    (b.register id' s).model.byId? id = some i := by
  unfold Model.byId? at hid ⊢
  split at hid
  · contradiction
  · next hne => rw [if_neg hne, lookup_register_of_isSome (by simp [hid]), hid]

theorem openScope_byId? {id : String} (hid : b.model.byId? id = some i) :
    (b.openScope p k d).model.byId? id = some i := by
  rw [Model.byId?, openScope_ids]
  exact register_byId? hid

/-- An id that has a scope keeps it. -/
theorem Edit.byId?_eq (h : Edit b b') {id : String} (hid : b.model.byId? id = some i) :
    b'.model.byId? id = some i := by
  cases h with
  | skip | defer | use | declare | amend => exact hid
  | register => exact register_byId? hid
  | openScope => exact openScope_byId? hid
  | openClass => exact openScope_byId? hid

theorem Run.byId?_eq (h : Run b b') {id : String} (hid : b.model.byId? id = some i) :
    b'.model.byId? id = some i := by
  induction h with
  | refl => exact hid
  | tail _ hedit ih => exact hedit.byId?_eq ih

/-- A fold whose steps are runs is a run. -/
theorem foldl_run {f : Draft → α → Draft}
    (hf : ∀ b a, b.model.Inv → s < b.next → Run b (f b a)) (H : b.model.Inv) (hs : s < b.next)
    (l : List α) : Run b (l.foldl f b) := by
  induction l generalizing b with
  | nil => exact .refl
  | cons a l ih =>
    have hrun := hf b a H hs
    exact hrun.trans (ih (hrun.inv H) (Nat.lt_of_lt_of_le hs hrun.next_le))

/-! ### Entering a scope -/

/-- What entering a scope inside a draft gives: a run to `b'`, and a scope of kind `k` there. -/
structure Entered (b : Draft) (k : ScopeKind) (s : ScopeId) (b' : Draft) : Prop where
  run : Run b b'
  lt : s < b'.next
  kind : (b'.model.scope s).kind = k

theorem Entered.trans (h : Entered b k s b') (hrun : Run b' b'') : Entered b k s b'' where
  run := h.run.trans hrun
  lt := Nat.lt_of_lt_of_le h.lt hrun.next_le
  kind := (hrun.samePlace h.lt).kind.trans h.kind

theorem Entered.inv (h : Entered b k s b') (H : b.model.Inv) : b'.model.Inv :=
  h.run.inv H

theorem entered_register {id : String} (hlt : s < b.next) (hk : (b.model.scope s).kind = k) :
    Entered b k s (b.register id s) where
  run := .single (.register hlt)
  lt := Nat.lt_of_lt_of_eq hlt register_next.symm
  kind := by rw [register_scope, hk]

theorem entered_openScope (hp : p < b.next) (hk : k ≠ .classScope) :
    Entered b k b.next (b.openScope p k d) where
  run := .single (.openScope hp hk)
  lt := openScope_next ▸ Nat.lt_succ_self _
  kind := by rw [openScope_kind hp, if_pos rfl]

theorem entered_openClass (hp : p < b.next) :
    Entered b .classScope b.next (b.openClass p d) where
  run := .single (.openClass hp)
  lt := openClass_next ▸ Nat.lt_succ_self _
  kind := by rw [openClass_scope, openScope_kind hp, if_pos rfl]

theorem namespace?_spec (H : b.model.Inv) (h : b.namespace? p name = some s) :
    s < b.next ∧ (b.model.scope s).kind = .namespaceScope := by
  unfold namespace? at h
  split at h
  · contradiction
  · obtain ⟨decl, hfind, hdef⟩ := Option.bind_eq_some_iff.mp h
    have hkind : decl.kind = .namespaceName := by simpa using List.find?_some hfind
    obtain ⟨c, hc, hparent, _, hck⟩ :=
      H.opens_declared (List.mem_of_find?_eq_some hfind) (by rw [hkind]; rfl)
    cases hc.symm.trans hdef
    exact ⟨Model.lt_size_of_parent hparent, hck⟩

theorem class?_spec (H : b.model.Inv) (h : b.class? p name defines = some s) :
    s < b.next ∧ (b.model.scope s).kind = .classScope := by
  unfold class? at h
  split at h
  · contradiction
  · obtain ⟨decl, hmem, hdecl⟩ := List.exists_of_findSome?_eq_some h
    split at hdecl
    · next hkind =>
      have hkind : decl.kind = .className := by simpa using hkind
      obtain ⟨c, hc, hparent, _, hck⟩ := H.opens_declared hmem (by rw [hkind]; rfl)
      obtain ⟨hdef, _⟩ := Option.filter_eq_some_iff.mp hdecl
      cases hc.symm.trans hdef
      exact ⟨Model.lt_size_of_parent hparent, hck⟩
    · contradiction

theorem enterNamespace_entered (H : b.model.Inv) (hp : p < b.next) (d : DeclInfo) :
    Entered b .namespaceScope (b.enterNamespace p d).1 (b.enterNamespace p d).2 := by
  unfold enterNamespace
  split
  · next s hs =>
    obtain ⟨hlt, hk⟩ := namespace?_spec H hs
    exact entered_register hlt hk
  · have hopen : Entered b .namespaceScope b.next (b.openScope p .namespaceScope d) :=
      entered_openScope hp (by decide)
    dsimp only
    split
    · exact hopen
    · refine hopen.trans (.single (.declare (Nat.lt_of_lt_of_le hp hopen.run.next_le) ?_))
      rintro k ⟨⟩
      refine ⟨b.next, rfl, ?_⟩
      rw [openScope_self hp]
      exact ⟨rfl, rfl, rfl⟩

theorem enterClass_entered (H : b.model.Inv) (hp : p < b.next) (d : DeclInfo) (defines : Bool) :
    Entered b .classScope (b.enterClass p d defines).1 (b.enterClass p d defines).2 := by
  unfold enterClass
  split
  · next s hs =>
    obtain ⟨hlt, hk⟩ := class?_spec H hs
    exact entered_register hlt hk
  · have hopen : Entered b .classScope b.next (b.openClass p d) := entered_openClass hp
    dsimp only
    split
    · exact hopen
    · have hdecl : Run (b.openClass p d)
          ((b.openClass p d).declare p d.name .className d.loc false false (some b.next)) := by
        refine .single (.declare (Nat.lt_of_lt_of_le hp hopen.run.next_le) ?_)
        rintro k ⟨⟩
        refine ⟨b.next, rfl, ?_⟩
        rw [openClass_scope, openScope_self hp]
        exact ⟨rfl, rfl, rfl⟩
      have hnamed := hopen.trans hdecl
      exact hnamed.trans (.single (.declare hnamed.lt fun _ hk => nomatch hk))

/-- Declaring what is no class or namespace. -/
theorem declare_run (hs : s < b.next) (hk : kind.opens? = none) :
    Run b (b.declare s name kind loc static injected defines) :=
  .single (.declare hs fun _ h => nomatch hk.symm.trans h)

theorem enterBody_entered (H : b.model.Inv) (hp : p < b.next) (hk : k ≠ .classScope)
    (d : DeclInfo) :
    Entered b k (b.enterBody p k d).1 (b.enterBody p k d).2 := by
  have hopen : Entered b k b.next (b.openScope p k d) := entered_openScope hp hk
  simp only [enterBody]
  split
  · exact hopen.trans (foldl_run (fun _ _ _ hs => declare_run hs rfl) (hopen.inv H) hopen.lt _)
  · exact hopen

/-! ### What a node says -/

theorem setTemplate_run (H : b.model.Inv) (hs : s < b.next) : Run b (b.setTemplate s d defines) := by
  unfold setTemplate
  split
  · have hamend : Run b (b.modifyScope s fun sc =>
        { sc with isTemplate := true, templateParams := d.templateParams }) :=
      .single (.amend hs ⟨fun _ => ⟨rfl, rfl, rfl, rfl, rfl⟩, fun _ => rfl⟩)
    refine hamend.trans (foldl_run (fun b' q _ hs => ?_) (hamend.inv H)
      (Nat.lt_of_lt_of_le hs hamend.next_le) _)
    split
    · exact .refl
    · exact declare_run hs rfl
  · exact .refl

theorem addBase_run (hs : s < b.next) (base : Option Base) : Run b (addBase s b base) := by
  unfold addBase
  split
  · exact .single (.amend hs ⟨fun _ => ⟨rfl, rfl, rfl, rfl, rfl⟩, fun _ => rfl⟩)
  · exact .single .skip

theorem addBases_run (H : b.model.Inv) (hs : s < b.next) (bases : List (Option Base)) :
    Run b (b.addBases s bases) :=
  foldl_run (fun _ base _ hs => addBase_run hs base) H hs bases

theorem addClassInfo_run (H : b.model.Inv) (hs : s < b.next) (d : DeclInfo) (defines : Bool) :
    Run b (b.addClassInfo s d defines) := by
  have htemplate : Run b (b.setTemplate s d defines) := setTemplate_run H hs
  have hs' := Nat.lt_of_lt_of_le hs htemplate.next_le
  unfold addClassInfo
  split
  · have hdefined : Run b ((b.setTemplate s d defines).modifyScope s fun sc =>
        { sc with loc := d.loc, defined := true }) :=
      htemplate.tail (.amend hs' ⟨fun _ => ⟨rfl, rfl, rfl, rfl, rfl⟩, fun _ => rfl⟩)
    exact hdefined.trans (addBases_run (hdefined.inv H) (Nat.lt_of_lt_of_le hs hdefined.next_le) _)
  · exact htemplate.trans (addBases_run (htemplate.inv H) hs' _)

theorem addUse_run (use : Option Use) : Run b (addUse s b use) := by
  unfold addUse
  split
  · exact .single .skip
  · split
    · exact .single .skip
    · next hu =>
      rw [not_or] at hu
      exact .single (.use hu.1 hu.2)

theorem addUses_run (H : b.model.Inv) (hs : s < b.next) (uses : List (Option Use)) :
    Run b (b.addUses s uses) :=
  foldl_run (fun _ use _ _ => addUse_run use) H hs uses

/-! ### The walk -/

mutual

/-- Placing a node is a run of edits. -/
theorem walk_run : (d : Decl) → ∀ {b : Draft} {p}, b.model.Inv → p < b.next → Run b (walk p b d)
  | .missing, _, _, _, _ => .single .skip
  | .node d members, b, p, H, hp => by
    unfold walk
    split
    · -- a namespace
      have h := enterNamespace_entered H hp d
      exact h.run.trans (walkAll_run members (h.inv H) h.lt)
    · -- a class
      have h := enterClass_entered H hp d (d.definesClass members)
      have h := h.trans (addClassInfo_run (h.inv H) h.lt d (d.definesClass members))
      have h := h.trans (walkAll_run members (h.inv H) h.lt)
      exact (h.trans (addUses_run (h.inv H) h.lt _)).run
    · -- a function, set aside if it names an owner
      split
      · exact .single .defer
      · have hdecl : Run b (b.declare p d.name .functionName d.loc d.static false (some b.next)) :=
          declare_run hp rfl
        have H := hdecl.inv H
        have h := enterBody_entered (k := .functionScope) H (Nat.lt_of_lt_of_le hp hdecl.next_le)
          (by decide) d
        have h := h.trans (walkAll_run members (h.inv H) h.lt)
        exact hdecl.trans (h.trans (addUses_run (h.inv H) h.lt _)).run
    · -- a block
      have h := enterBody_entered (k := .blockScope) H hp (by decide) d
      have h := h.trans (walkAll_run members (h.inv H) h.lt)
      exact (h.trans (addUses_run (h.inv H) h.lt _)).run
    · -- a variable
      split
      · exact .single .skip
      · have hdecl : Run b (b.declare p d.name .variableName d.loc d.static) := declare_run hp rfl
        exact hdecl.trans (addUses_run (hdecl.inv H) (Nat.lt_of_lt_of_le hp hdecl.next_le) _)
    · -- a type
      split
      · exact .single .skip
      · have hdecl : Run b (b.declare p d.name .typeName d.loc d.static) := declare_run hp rfl
        exact hdecl.trans (addUses_run (hdecl.inv H) (Nat.lt_of_lt_of_le hp hdecl.next_le) _)
    · -- no kind of node
      exact .single .skip

theorem walkAll_run :
    (ds : List Decl) → ∀ {b : Draft} {p}, b.model.Inv → p < b.next → Run b (walkAll p b ds)
  | [], _, _, _, _ => .refl
  | d :: ds, _, _, H, hp =>
    have h := walk_run d H hp
    h.trans (walkAll_run ds (h.inv H) (Nat.lt_of_lt_of_le hp h.next_le))

end

theorem defineOutOfLine_run (H : b.model.Inv) (members : List Decl) :
    Run b (b.defineOutOfLine d members) := by
  unfold defineOutOfLine
  split
  · exact .single .skip
  · split
    · exact .single .skip
    · next owner _ hclass =>
      have howner : owner < b.next := Model.lt_size_of_isClass (by simpa using hclass)
      have hdecl : Run b (if (b.model.declared owner d.name).isEmpty then
          b.declare owner d.name .functionName d.loc d.static else b) := by
        split
        · exact declare_run howner rfl
        · exact .refl
      have H := hdecl.inv H
      have h := enterBody_entered (k := .functionScope) H
        (Nat.lt_of_lt_of_le howner hdecl.next_le) (by decide) d
      have h := h.trans (walkAll_run members (h.inv H) h.lt)
      exact hdecl.trans (h.trans (addUses_run (h.inv H) h.lt _)).run

/-- Placing functions that are defined outside their classes is a run of edits. -/
theorem defineAll_run (H : b.model.Inv) (nodes : List (DeclInfo × List Decl)) :
    Run b (nodes.foldl (fun b (d, members) => b.defineOutOfLine d members) b) := by
  induction nodes generalizing b with
  | nil => exact .refl
  | cons node nodes ih =>
    have hrun : Run b (b.defineOutOfLine node.1 node.2) := defineOutOfLine_run H _
    exact hrun.trans (ih (hrun.inv H))

theorem start_inv (file : String) : (start file).model.Inv := by
  have hblank (i : ScopeId) : (start file).model.scope i = {} := by
    cases i <;> rfl
  exact
    { size_pos := Nat.one_pos
      root_parent := rfl
      root_kind := rfl
      parent_lt := by simp [hblank]
      has_parent := fun hpos hlt => absurd (Nat.lt_one_iff.mp hlt) (Nat.ne_of_gt hpos)
      count_children := by simp [hblank]
      find_eq := fun i name => by rw [hblank]; rfl
      owner_eq := by simp [hblank]
      member_eq := by simp [hblank]
      opens := by simp [hblank]
      id_lt := fun h => nomatch h
      id_known := by simp [hblank]
      use_name := fun h => nomatch h
      use_kind := fun h => nomatch h
      classes_nodup := List.nodup_nil
      mem_classes := fun {i} => by
        rw [hblank]
        exact iff_of_false List.not_mem_nil (by decide) }

/-- The model of a unit is what a run of edits makes of the blank model. -/
theorem start_run_model (u : CompilationUnit) :
    ∃ b, Run (start u.file) b ∧ b.model = u.model := by
  have H := start_inv u.file
  have hwalk : Run (start u.file) (walkAll Model.root (start u.file) u.topLevel) :=
    walkAll_run u.topLevel H H.size_pos
  exact ⟨_, hwalk.trans (defineAll_run (hwalk.inv H) _), rfl⟩

end Draft

/-- The invariant holds of every model that is built. -/
theorem CompilationUnit.model_inv (u : CompilationUnit) : u.model.Inv := by
  obtain ⟨b, hrun, hb⟩ := Draft.start_run_model u
  exact hb ▸ hrun.inv (Draft.start_inv u.file)

end TwoPhase
