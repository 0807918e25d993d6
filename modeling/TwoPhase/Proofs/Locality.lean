import TwoPhase.Proofs.Accounting
import TwoPhase.Proofs.CompleteView

/-!
# What a node changes

Walking over a node inside a scope touches that scope under the name of the node alone, and otherwise only what
lies in the children of that name. The members of the node are walked inside its own scope and touch nothing
outside it. So nodes of different names leave each other's scopes alone.
-/

namespace TwoPhase

/-- Scope `i` lies in a child of scope `p` that is called `name`. -/
def Model.Under (m : Model) (p : ScopeId) (name : String) (i : ScopeId) : Prop :=
  ∃ s, m.Within i s ∧ (m.scope s).parent = some p ∧ (m.scope s).name = name

namespace Draft

variable {b b' b'' : Draft} {p s i : ScopeId} {d : DeclInfo} {nodes : List DeclInfo}

/-- A run that registers no ids but those of `nodes` and sets nothing aside. -/
structure Plain (nodes : List DeclInfo) (b b' : Draft) : Prop where
  run : Run b b'
  lookup_eq : ∀ {id}, (∀ x ∈ nodes, x.id = id → id = "") →
    b'.model.ids.lookup id = b.model.ids.lookup id
  deferred : b'.deferred = b.deferred

/-- A plain run that changes nothing outside scope `p`. -/
structure ChangesIn (nodes : List DeclInfo) (p : ScopeId) (b b' : Draft) : Prop extends
    Plain nodes b b' where
  scope_eq : ∀ {i}, i < b.next → ¬ b.model.Within i p → b'.model.scope i = b.model.scope i
  within : ∀ {i}, b.next ≤ i → i < b'.next → b'.model.Within i p

/-- A plain run that changes, of what was there, only the declarations of `name` in scope `p` and the children
of that name. -/
structure ChangesAt (nodes : List DeclInfo) (p : ScopeId) (name : String) (b b' : Draft) : Prop extends
    Plain nodes b b' where
  scope_eq : ∀ {i}, i < b.next → i ≠ p → ¬ b.model.Under p name i →
    b'.model.scope i = b.model.scope i
  parent_same : (b.model.scope p).SameText (b'.model.scope p)
  declared_eq : ∀ {n}, n ≠ name → b'.model.declared p n = b.model.declared p n
  under : ∀ {i}, b.next ≤ i → i < b'.next → b'.model.Under p name i

theorem Plain.refl : Plain nodes b b :=
  ⟨.refl, fun _ => rfl, rfl⟩

theorem Plain.trans (h : Plain nodes b b') (h' : Plain nodes b' b'') : Plain nodes b b'' :=
  ⟨h.run.trans h'.run, fun hid => (h'.lookup_eq hid).trans (h.lookup_eq hid),
    h'.deferred.trans h.deferred⟩

theorem Plain.mono (h : Plain nodes b b') (hsub : nodes ⊆ nodes') : Plain nodes' b b' :=
  ⟨h.run, fun hid => h.lookup_eq fun x hx => hid x (hsub hx), h.deferred⟩

theorem addUses_keeps (s : ScopeId) (uses : List (Option Use)) :
    (b.addUses s uses).model.scopes = b.model.scopes ∧
      (b.addUses s uses).model.index = b.model.index ∧
      (b.addUses s uses).model.ids = b.model.ids ∧ (b.addUses s uses).deferred = b.deferred := by
  unfold addUses
  induction uses generalizing b with
  | nil => exact ⟨rfl, rfl, rfl, rfl⟩
  | cons use uses ih =>
    obtain ⟨hscopes, hindex, hids, hdeferred⟩ := ih (b := addUse s b use)
    have huse : (addUse s b use).model.scopes = b.model.scopes ∧
        (addUse s b use).model.index = b.model.index ∧ (addUse s b use).model.ids = b.model.ids ∧
        (addUse s b use).deferred = b.deferred := by
      unfold addUse
      split
      · exact ⟨rfl, rfl, rfl, rfl⟩
      · split <;> exact ⟨rfl, rfl, rfl, rfl⟩
    exact ⟨hscopes.trans huse.1, hindex.trans huse.2.1, hids.trans huse.2.2.1,
      hdeferred.trans huse.2.2.2⟩

theorem addUses_scopes {uses : List (Option Use)} :
    (b.addUses s uses).model.scopes = b.model.scopes :=
  (addUses_keeps s uses).1

theorem Plain.addUses (H : b.model.Inv) (hp : p < b.next) (s : ScopeId) (uses : List (Option Use)) :
    Plain nodes b (b.addUses s uses) := by
  obtain ⟨_, _, hids, hdeferred⟩ := addUses_keeps (b := b) s uses
  exact ⟨foldl_run (fun _ use _ _ => addUse_run use) H hp uses, fun _ => by rw [hids], hdeferred⟩

theorem Run.under_iff (h : Run b b') (H : b.model.Inv) (hi : i < b.next) :
    b'.model.Under p name i ↔ b.model.Under p name i := by
  have hplace {s} (his : b.model.Within i s) := h.samePlace (Nat.lt_of_le_of_lt (H.within_le his) hi)
  constructor
  · rintro ⟨s, his, hparent, hname⟩
    have his := (h.within_iff H hi).mp his
    exact ⟨s, his, (hplace his).parent ▸ hparent, (hplace his).name ▸ hname⟩
  · rintro ⟨s, his, hparent, hname⟩
    exact ⟨s, (h.within_iff H hi).mpr his, (hplace his).parent.trans hparent,
      (hplace his).name.trans hname⟩

theorem lookup_register_of_ne {id id' : String} (h : id = id' → id' = "") :
    (b.register id s).model.ids.lookup id' = b.model.ids.lookup id' := by
  rw [lookup_register, if_neg fun ⟨heq, hne⟩ => hne (heq ▸ h heq.symm), Option.or_none]

theorem declared_eq_of_scope_eq (H : b.model.Inv) (H' : b'.model.Inv)
    (h : b'.model.scope i = b.model.scope i) (n : String) :
    b'.model.declared i n = b.model.declared i n := by
  rw [Model.declared, H'.find_eq, h, Model.declared, H.find_eq]

/-! ### Changes inside a scope -/

namespace ChangesIn

theorem trans (H : b.model.Inv) (h : ChangesIn nodes p b b') (h' : ChangesIn nodes p b' b'') :
    ChangesIn nodes p b b'' where
  toPlain := h.toPlain.trans h'.toPlain
  scope_eq := fun hi hnot => by
    have hnot' := mt (h.run.within_iff H hi).mp hnot
    rw [h'.scope_eq (Nat.lt_of_lt_of_le hi h.run.next_le) hnot', h.scope_eq hi hnot]
  within := fun {i} hi hi' => by
    rcases Nat.lt_or_ge i b'.next with hlt | hge
    · exact (h'.run.within_iff (h.run.inv H) hlt).mpr (h.within hi hlt)
    · exact h'.within hge hi'

theorem mono (h : ChangesIn nodes p b b') (hsub : nodes ⊆ nodes') : ChangesIn nodes' p b b' :=
  { h with toPlain := h.toPlain.mono hsub }

/-- A plain run that opens no scope and keeps all scopes but `p`. -/
theorem of_next_eq (h : Plain nodes b b') (hnext : b'.next = b.next)
    (hscope : ∀ i, i ≠ p → b'.model.scope i = b.model.scope i) : ChangesIn nodes p b b' where
  toPlain := h
  scope_eq := fun _ hnot => hscope _ fun hi => hnot (hi ▸ .refl)
  within := fun hi hi' => absurd (hnext ▸ hi') (Nat.not_lt.mpr hi)

theorem refl : ChangesIn nodes p b b :=
  of_next_eq .refl rfl fun _ _ => rfl

theorem foldl {f : Draft → α → Draft} (hf : ∀ b a, p < b.next → ChangesIn nodes p b (f b a))
    (H : b.model.Inv) (hp : p < b.next) (l : List α) : ChangesIn nodes p b (l.foldl f b) := by
  induction l generalizing b with
  | nil => exact refl
  | cons a l ih =>
    have h := hf b a hp
    exact h.trans H (ih (h.run.inv H) (Nat.lt_of_lt_of_le hp h.run.next_le))

theorem skip : ChangesIn nodes p b b.skip :=
  of_next_eq ⟨.single .skip, fun _ => rfl, rfl⟩ rfl fun _ _ => rfl

theorem declare (hp : p < b.next) (hk : kind.opens? = none) :
    ChangesIn nodes p b (b.declare p name kind loc static injected defines) :=
  of_next_eq ⟨declare_run hp hk, fun _ => rfl, rfl⟩ declare_next fun i hi => by
    rw [declare_scope hp, if_neg hi]

theorem amend {f : Scope → Scope} (hp : p < b.next) (hf : KeepsFrame f) :
    ChangesIn nodes p b (b.modifyScope p f) :=
  of_next_eq ⟨.single (.amend hp hf), fun _ => rfl, rfl⟩ modifyScope_next fun i hi => by
    rw [modifyScope_scope hp, if_neg hi]

theorem addUses (H : b.model.Inv) (hp : p < b.next) (s : ScopeId) (uses : List (Option Use)) :
    ChangesIn nodes p b (b.addUses s uses) :=
  of_next_eq (.addUses H hp s uses) (by rw [next, addUses_scopes, next]) fun i _ => by
    rw [Model.scope, addUses_scopes, Model.scope]

theorem setTemplate (H : b.model.Inv) (hp : p < b.next) (d : DeclInfo) (defines : Bool) :
    ChangesIn nodes p b (b.setTemplate p d defines) := by
  unfold Draft.setTemplate
  split
  · have hset : ChangesIn nodes p b (b.modifyScope p fun sc =>
        { sc with isTemplate := true, templateParams := d.templateParams }) :=
      amend hp ⟨fun _ => ⟨rfl, rfl, rfl, rfl, rfl⟩, fun _ => rfl⟩
    refine hset.trans H (foldl (fun b q hp => ?_) (hset.run.inv H)
      (Nat.lt_of_lt_of_le hp hset.run.next_le) _)
    split
    · exact refl
    · exact declare hp rfl
  · exact refl

theorem addBases (H : b.model.Inv) (hp : p < b.next) (bases : List (Option Base)) :
    ChangesIn nodes p b (b.addBases p bases) := by
  refine foldl (fun b base hp => ?_) H hp bases
  unfold addBase
  split
  · exact amend hp ⟨fun _ => ⟨rfl, rfl, rfl, rfl, rfl⟩, fun _ => rfl⟩
  · exact skip

theorem addClassInfo (H : b.model.Inv) (hp : p < b.next) (d : DeclInfo) (defines : Bool) :
    ChangesIn nodes p b (b.addClassInfo p d defines) := by
  have htemplate : ChangesIn nodes p b (b.setTemplate p d defines) := setTemplate H hp d defines
  have H' := htemplate.run.inv H
  have hp' := Nat.lt_of_lt_of_le hp htemplate.run.next_le
  unfold Draft.addClassInfo
  split
  · have hdefined : ChangesIn nodes p (b.setTemplate p d defines)
        ((b.setTemplate p d defines).modifyScope p fun sc => { sc with loc := d.loc, defined := true }) :=
      amend hp' ⟨fun _ => ⟨rfl, rfl, rfl, rfl, rfl⟩, fun _ => rfl⟩
    exact htemplate.trans H (hdefined.trans H' (addBases (hdefined.run.inv H')
      (Nat.lt_of_lt_of_le hp' hdefined.run.next_le) _))
  · exact htemplate.trans H (addBases H' hp' _)

end ChangesIn

/-! ### Changes under one name -/

namespace ChangesAt

theorem trans (H : b.model.Inv) (h : ChangesAt nodes p name b b')
    (h' : ChangesAt nodes p name b' b'') : ChangesAt nodes p name b b'' where
  toPlain := h.toPlain.trans h'.toPlain
  scope_eq := fun hi hne hnot => by
    have hnot' := mt (h.run.under_iff H hi).mp hnot
    rw [h'.scope_eq (Nat.lt_of_lt_of_le hi h.run.next_le) hne hnot', h.scope_eq hi hne hnot]
  parent_same := h.parent_same.trans h'.parent_same
  declared_eq := fun hn => (h'.declared_eq hn).trans (h.declared_eq hn)
  under := fun {i} hi hi' => by
    rcases Nat.lt_or_ge i b'.next with hlt | hge
    · exact (h'.run.under_iff (h.run.inv H) hlt).mpr (h.under hi hlt)
    · exact h'.under hge hi'

/-- Changes inside a child of that name. -/
theorem of_changesIn (H : b.model.Inv) (h : ChangesIn nodes s b b')
    (hparent : (b.model.scope s).parent = some p) (hname : (b.model.scope s).name = name) :
    ChangesAt nodes p name b b' := by
  have hs : s < b.next := Model.lt_size_of_parent hparent
  have hp : p < b.next := Nat.lt_trans (H.parent_lt hparent) hs
  have hout : ¬ b.model.Within p s := fun hps =>
    Nat.not_lt.mpr (H.within_le hps) (H.parent_lt hparent)
  have hself := h.scope_eq hp hout
  have hplace := h.run.samePlace hs
  refine ⟨h.toPlain, fun hi _ hnot => h.scope_eq hi fun his => hnot ⟨s, his, hparent, hname⟩,
    by rw [hself]; exact .rfl, fun _ => declared_eq_of_scope_eq H (h.run.inv H) hself _, fun hi hi' => ?_⟩
  exact ⟨s, h.within hi hi', hplace.parent.trans hparent, hplace.name.trans hname⟩

/-- All that changes under a name of `p` lies in `p`. -/
theorem changesIn (h : ChangesAt nodes p name b b') : ChangesIn nodes p b b' where
  toPlain := h.toPlain
  scope_eq := fun hi hnot => by
    refine h.scope_eq hi (fun heq => hnot (heq ▸ .refl)) ?_
    rintro ⟨s, his, hparent, _⟩
    exact hnot (his.tail hparent)
  within := fun hi hi' => by
    obtain ⟨s, his, hparent, _⟩ := h.under hi hi'
    exact his.tail hparent

/-- A plain run that opens no scope and leaves all scopes as they are. -/
theorem of_scopes_eq (h : Plain nodes b b') (hnext : b'.next = b.next)
    (hscope : ∀ i, b'.model.scope i = b.model.scope i)
    (hdeclared : b'.model.declared p = b.model.declared p) : ChangesAt nodes p name b b' where
  toPlain := h
  scope_eq := fun _ _ _ => hscope _
  parent_same := by rw [hscope]; exact .rfl
  declared_eq := fun _ => by rw [hdeclared]
  under := fun hi hi' => absurd (hnext ▸ hi') (Nat.not_lt.mpr hi)

theorem skip : ChangesAt nodes p name b b.skip :=
  of_scopes_eq ⟨.single .skip, fun _ => rfl, rfl⟩ rfl (fun _ => rfl) rfl

theorem register (hs : s < b.next) (hd : d ∈ nodes) : ChangesAt nodes p name b (b.register d.id s) := by
  refine of_scopes_eq ⟨.single (.register hs), fun {id} hid => ?_, register_deferred⟩ register_next
    (fun _ => register_scope) ?_
  · exact lookup_register_of_ne (hid d hd)
  · unfold Model.declared
    rw [register_index]

theorem declare (hp : p < b.next) (hopens : b.model.Opens p name kind defines) :
    ChangesAt nodes p name b (b.declare p name kind loc static injected defines) where
  toPlain := ⟨.single (.declare hp hopens), fun _ => rfl, rfl⟩
  scope_eq := fun _ hne _ => by rw [declare_scope hp, if_neg hne]
  parent_same := by
    rw [declare_scope hp, if_pos rfl]
    exact ⟨rfl, rfl, Option.map_id'.symm, rfl, rfl, rfl, rfl⟩
  declared_eq := fun {n} hn => by
    rw [Model.declared, declare_find, if_neg fun h => hn h.2]
    rfl
  under := fun hi hi' => by
    rw [declare_next] at hi'
    exact absurd hi' (Nat.not_lt.mpr hi)

/-- A plain run that adds a scope for a node of that name. -/
theorem of_openScope (hp : p < b.next) (hd : d ∈ nodes) (hrun : Run b b')
    (hscopes : b'.model.scopes = (b.openScope p k d).model.scopes)
    (hindex : b'.model.index = b.model.index)
    (hids : b'.model.ids = (b.openScope p k d).model.ids) (hdeferred : b'.deferred = b.deferred) :
    ChangesAt nodes p d.name b b' := by
  have hscope (i : ScopeId) : b'.model.scope i = (b.openScope p k d).model.scope i := by
    rw [Model.scope, hscopes, Model.scope]
  have hnext : b'.next = b.next + 1 := by
    rw [next, hscopes]
    exact openScope_next
  refine ⟨⟨hrun, fun {id} hid => ?_, hdeferred⟩, fun hi hne _ => ?_, ?_, fun _ => ?_, fun {i} hi hi' => ?_⟩
  · rw [hids, openScope_ids, lookup_register_of_ne (hid d hd)]
  · rw [hscope, openScope_scope hp, if_neg (Nat.ne_of_lt hi), if_neg hne]
  · rw [hscope, openScope_scope hp, if_neg (Nat.ne_of_lt hp), if_pos rfl]
    exact ⟨rfl, rfl, Option.map_id'.symm, rfl, rfl, rfl, rfl⟩
  · rw [Model.declared, hindex]
    rfl
  · rw [hnext] at hi'
    obtain rfl : i = b.next := Nat.le_antisymm (Nat.lt_succ_iff.mp hi') hi
    refine ⟨b.next, .refl, ?_, ?_⟩
    · rw [hscope, openScope_self hp]
    · rw [hscope, openScope_self hp]

theorem addUses (H : b.model.Inv) (hp : p < b.next) (uses : List (Option Use)) :
    ChangesAt nodes p name b (b.addUses p uses) := by
  obtain ⟨hscopes, hindex, _, _⟩ := addUses_keeps (b := b) p uses
  refine of_scopes_eq (.addUses H hp p uses) (by rw [next, hscopes, next]) (fun i => ?_) ?_
  · rw [Model.scope, hscopes, Model.scope]
  · unfold Model.declared
    rw [hindex]

theorem openScope (hp : p < b.next) (hd : d ∈ nodes) (hk : kind ≠ .classScope) :
    ChangesAt nodes p d.name b (b.openScope p kind d) :=
  of_openScope hp hd (.single (.openScope hp hk)) rfl openScope_index rfl openScope_quiet.deferred

theorem openClass (hp : p < b.next) (hd : d ∈ nodes) :
    ChangesAt nodes p d.name b (b.openClass p d) :=
  of_openScope (k := .classScope) hp hd (.single (.openClass hp)) rfl openScope_index rfl
    openScope_quiet.deferred

end ChangesAt

/-! ### Entering a scope -/

/-- Coming to a scope inside `p` for the node `d`: the scope is a child of `p` that has the name of the node. -/
structure EntersChild (nodes : List DeclInfo) (p : ScopeId) (name : String) (b : Draft) (s : ScopeId)
    (b' : Draft) : Prop extends ChangesAt nodes p name b b' where
  parent_eq : (b'.model.scope s).parent = some p
  name_eq : (b'.model.scope s).name = name

theorem EntersChild.trans (H : b.model.Inv) (h : EntersChild nodes p name b s b')
    (h' : ChangesIn nodes s b' b'') : EntersChild nodes p name b s b'' where
  toChangesAt := h.toChangesAt.trans H
    (.of_changesIn (h.run.inv H) h' h.parent_eq h.name_eq)
  parent_eq := (h'.run.samePlace (Model.lt_size_of_parent h.parent_eq)).parent.trans h.parent_eq
  name_eq := (h'.run.samePlace (Model.lt_size_of_parent h.parent_eq)).name.trans h.name_eq

theorem enterNamespace_child (H : b.model.Inv) (hp : p < b.next) (hd : d ∈ nodes) :
    EntersChild nodes p d.name b (b.enterNamespace p d).1 (b.enterNamespace p d).2 := by
  unfold enterNamespace
  split
  · next s hs =>
    obtain ⟨hparent, hname⟩ := namespace?_place H hs
    refine ⟨.register (Model.lt_size_of_parent hparent) hd, ?_, ?_⟩
    · rwa [register_scope]
    · rwa [register_scope]
  · have hopen : ChangesAt nodes p d.name b (b.openScope p .namespaceScope d) :=
      .openScope hp hd (by decide)
    have hself : (b.openScope p .namespaceScope d).model.scope b.next = _ := openScope_self hp
    dsimp only
    split
    · exact ⟨hopen, by rw [hself], by rw [hself]⟩
    · have hp' := Nat.lt_of_lt_of_le hp hopen.run.next_le
      refine ⟨hopen.trans H (.declare hp' ?_), ?_, ?_⟩
      · rintro k ⟨⟩
        exact ⟨b.next, rfl, by rw [hself], by rw [hself], by rw [hself]⟩
      · rw [(declare_frame hp' _).parent, hself]
      · rw [(declare_frame hp' _).name, hself]

theorem enterClass_child (H : b.model.Inv) (hp : p < b.next) (hd : d ∈ nodes) (defines : Bool) :
    EntersChild nodes p d.name b (b.enterClass p d defines).1 (b.enterClass p d defines).2 := by
  unfold enterClass
  split
  · next s hs =>
    obtain ⟨hparent, hname⟩ := class?_place H hs
    refine ⟨.register (Model.lt_size_of_parent hparent) hd, ?_, ?_⟩
    · rwa [register_scope]
    · rwa [register_scope]
  · have hopen : ChangesAt nodes p d.name b (b.openClass p d) := .openClass hp hd
    have hself : (b.openClass p d).model.scope b.next = _ := openScope_self hp
    dsimp only
    split
    · exact ⟨hopen, by rw [hself], by rw [hself]⟩
    · have hp' := Nat.lt_of_lt_of_le hp hopen.run.next_le
      have hlt : b.next < (b.openClass p d).next := openClass_next ▸ Nat.lt_succ_self _
      have hnamed : EntersChild nodes p d.name b b.next
          ((b.openClass p d).declare p d.name .className d.loc false false (some b.next)) := by
        refine ⟨hopen.trans H (.declare hp' ?_), ?_, ?_⟩
        · rintro k ⟨⟩
          exact ⟨b.next, rfl, by rw [hself], by rw [hself], by rw [hself]⟩
        · rw [(declare_frame hp' _).parent, hself]
        · rw [(declare_frame hp' _).name, hself]
      exact hnamed.trans H (.declare (Nat.lt_of_lt_of_eq hlt declare_next.symm) rfl)

theorem enterBody_child (H : b.model.Inv) (hp : p < b.next) (hd : d ∈ nodes)
    (hk : k ≠ .classScope) :
    EntersChild nodes p d.name b (b.enterBody p k d).1 (b.enterBody p k d).2 := by
  have hopen : ChangesAt nodes p d.name b (b.openScope p k d) := .openScope hp hd hk
  have hself : (b.openScope p k d).model.scope b.next = _ := openScope_self hp
  have hentered : EntersChild nodes p d.name b b.next (b.openScope p k d) :=
    ⟨hopen, by rw [hself], by rw [hself]⟩
  simp only [enterBody]
  split
  · exact hentered.trans H (.foldl (fun _ _ hs => .declare hs rfl) (hopen.run.inv H)
      (openScope_next ▸ Nat.lt_succ_self _) _)
  · exact hentered

/-! ### The walk -/

mutual

/-- Walking over a node changes its parent scope under the name of the node only. -/
theorem walk_changesAt : (d : Decl) → ∀ {b : Draft} {p name}, b.model.Inv → p < b.next →
    (∀ n ∈ d.name?, n = name) → (∀ x ∈ d.nodes, x.owner = "") →
    ChangesAt d.nodes p name b (walk p b d)
  | .missing, _, _, _, _, _, _, _ => .skip
  | .node d members, b, p, name, H, hp, hname, howner => by
    obtain rfl : d.name = name := hname d.name rfl
    have hd : d ∈ (Decl.node d members).nodes := .head _
    have hmembers {b s b'} (H : b.model.Inv)
        (h : EntersChild (Decl.node d members).nodes p d.name b s b') :
        EntersChild (Decl.node d members).nodes p d.name b s (walkAll s b' members) := by
      refine h.trans H (.mono (walkAll_changesIn members (h.run.inv H)
        (Model.lt_size_of_parent h.parent_eq) fun x hx => howner x (.tail _ hx)) ?_)
      exact List.subset_cons_self d (Decl.nodesIn members)
    have huses {b s b'} (H : b.model.Inv)
        (h : EntersChild (Decl.node d members).nodes p d.name b s b') :
        ChangesAt (Decl.node d members).nodes p d.name b (b'.addUses s d.uses) :=
      (h.trans H (.addUses (h.run.inv H) (Model.lt_size_of_parent h.parent_eq) s d.uses)).toChangesAt
    have hdeclare (kind : DeclKind) (hk : kind.opens? = none) (defines : Option ScopeId) :
        ChangesAt (Decl.node d members).nodes p d.name b
          (b.declare p d.name kind d.loc d.static false defines) :=
      .declare hp fun _ h => nomatch hk.symm.trans h
    unfold walk
    cases NodeKind.ofText? d.kind with
    | none => exact .skip
    | some kind =>
      cases kind with
      | namespaceNode => exact (hmembers H (enterNamespace_child H hp hd)).toChangesAt
      | classNode =>
        have h := enterClass_child H hp hd (d.definesClass members)
        have hinfo := h.trans H (.addClassInfo (h.run.inv H) (Model.lt_size_of_parent h.parent_eq) d
          (d.definesClass members))
        exact huses H (hmembers H hinfo)
      | functionNode =>
        dsimp only
        rw [if_neg (not_not.mpr (howner d hd))]
        have h := hdeclare .functionName rfl (some b.next)
        have H' := h.run.inv H
        have hbody := enterBody_child (k := .functionScope) H'
          (Nat.lt_of_lt_of_le hp h.run.next_le) hd (by decide)
        exact h.trans H (huses H' (hmembers H' hbody))
      | blockNode => exact huses H (hmembers H (enterBody_child H hp hd (by decide)))
      | variableNode =>
        dsimp only
        split
        · exact .skip
        · have h := hdeclare .variableName rfl none
          exact h.trans H (.addUses (h.run.inv H) (Nat.lt_of_lt_of_le hp h.run.next_le) d.uses)
      | typeNode =>
        dsimp only
        split
        · exact .skip
        · have h := hdeclare .typeName rfl none
          exact h.trans H (.addUses (h.run.inv H) (Nat.lt_of_lt_of_le hp h.run.next_le) d.uses)

theorem walkAll_changesIn : (ds : List Decl) → ∀ {b : Draft} {p}, b.model.Inv → p < b.next →
    (∀ x ∈ Decl.nodesIn ds, x.owner = "") → ChangesIn (Decl.nodesIn ds) p b (walkAll p b ds)
  | [], _, _, _, _, _ => .refl
  | d :: ds, b, p, H, hp, howner => by
    have hnode : ChangesAt d.nodes p (d.name?.getD "") b (walk p b d) :=
      walk_changesAt d H hp (fun n hn => by rw [hn]; rfl) fun x hx => howner x (List.mem_append_left _ hx)
    have hrest := walkAll_changesIn ds (hnode.run.inv H) (Nat.lt_of_lt_of_le hp hnode.run.next_le)
      fun x hx => howner x (List.mem_append_right _ hx)
    exact (hnode.changesIn.mono (List.subset_append_left _ _)).trans H
      (hrest.mono (List.subset_append_right _ _))

end

end Draft

end TwoPhase
