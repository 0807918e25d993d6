import TwoPhase.Proofs.ForwardDeclaration
import TwoPhase.Proofs.WalkSteps

/-!
# What class nodes make of a class

All nodes that declare one class share a scope. A node that defines the class gives it its bases and its place;
the parameters are those of the first node that has some, until the definition comes with its own.
`Scope.MadeBy` says what a class is after a list of nodes, `Scope.Takes` what one more node adds to it, and
`Draft.Taken` that placing a class node does just this to one class, old or new, and nothing to the others.
-/

namespace TwoPhase

namespace Visit

def isClass (v : Visit) : Bool :=
  NodeKind.ofText? v.info.kind == some .classNode

/-- Of a class node: it has members, bases or uses. -/
def defines (v : Visit) : Bool :=
  v.info.definesClass v.members

/-- The scope of a class node, newly opened or shared with earlier nodes. -/
def class? (v : Visit) : Option ScopeId :=
  if v.isClass then some (v.before.enterClass v.parent v.info v.defines).1 else none

/-- The node defines a template, and takes the place of a declaration that has given scope `s` the parameter
`name`. -/
def Replaces (v : Visit) (s : ScopeId) (name : String) : Prop :=
  v.defines = true ∧ v.info.template = true ∧ name ∈ (v.before.model.scope s).templateParams

end Visit

namespace Scope

/-- The scope holds `name` as a template parameter. -/
def DeclaresParam (sc : Scope) (name : String) : Prop :=
  ∃ d ∈ sc.decls, d.kind = .templateParam ∧ d.name = name

/-- The class is as its defining nodes say; there is one of them or none. -/
def TextOf (sc : Scope) : List Visit → Prop
  | [] => sc.defined = false ∧ sc.bases = []
  | [v] => sc.defined = true ∧ sc.bases = v.info.bases.filterMap Draft.wellFormed? ∧
    sc.loc = v.info.loc
  | _ => False

/-- The class in scope `s` is what `nodes` have made of it. -/
structure MadeBy (sc : Scope) (s : ScopeId) (nodes : List Visit) : Prop where
  text : sc.TextOf (nodes.filter (·.defines))
  params : ∀ name, sc.DeclaresParam name ↔
    name ∈ sc.templateParams ∨ ∃ v ∈ nodes, v.Replaces s name
  origin : ∀ name, sc.DeclaresParam name →
    ∃ v ∈ nodes, v.info.template = true ∧ name ∈ v.info.templateParams

/-- As a class, one scope is what the other is. The place of a class does not matter before its definition. -/
structure SameClass (sc sc' : Scope) : Prop where
  loc : sc.defined = true → sc'.loc = sc.loc
  bases : sc'.bases = sc.bases
  templateParams : sc'.templateParams = sc.templateParams
  defined : sc'.defined = sc.defined
  params : ∀ name, sc'.DeclaresParam name ↔ sc.DeclaresParam name

variable {sc sc' sc'' : Scope} {s : ScopeId} {nodes : List Visit}

theorem SameClass.rfl : sc.SameClass sc :=
  ⟨fun _ => Eq.refl _, Eq.refl _, Eq.refl _, Eq.refl _, fun _ => Iff.rfl⟩

theorem SameClass.trans (h : sc.SameClass sc') (h' : sc'.SameClass sc'') : sc.SameClass sc'' where
  loc := fun hdef => (h'.loc (h.defined.trans hdef)).trans (h.loc hdef)
  bases := h'.bases.trans h.bases
  templateParams := h'.templateParams.trans h.templateParams
  defined := h'.defined.trans h.defined
  params := fun name => (h'.params name).trans (h.params name)

/-- Declarations of other kinds make no difference to a class. -/
theorem SameClass.of_decls {d : Declaration} (hd : d.kind ≠ .templateParam) :
    sc.SameClass { sc with decls := sc.decls ++ [d] } := by
  refine ⟨fun _ => Eq.refl _, Eq.refl _, Eq.refl _, Eq.refl _, fun name => ?_⟩
  simp [DeclaresParam, or_and_right, exists_or, hd]

theorem TextOf.congr (h : sc.SameClass sc') (ht : sc.TextOf nodes) : sc'.TextOf nodes := by
  match nodes, ht with
  | [], ht => exact ⟨h.defined.trans ht.1, h.bases.trans ht.2⟩
  | [_], ht => exact ⟨h.defined.trans ht.1, h.bases.trans ht.2.1, (h.loc ht.1).trans ht.2.2⟩

theorem MadeBy.congr (h : sc.SameClass sc') (hm : sc.MadeBy s nodes) : sc'.MadeBy s nodes where
  text := hm.text.congr h
  params := fun name => by rw [h.params, h.templateParams, hm.params]
  origin := fun name hname => hm.origin name ((h.params name).mp hname)

/-- A class that no node has been met of. -/
theorem madeBy_nil (s : ScopeId) : ({} : Scope).MadeBy s [] where
  text := ⟨Eq.refl _, Eq.refl _⟩
  params := fun name => by simp [DeclaresParam]
  origin := fun name h => by simp [DeclaresParam] at h

/-- The parameters of the node become those of the class: it is the first to have some, or the definition. -/
def SetsParams (sc : Scope) (d : DeclInfo) (defines : Bool) : Prop :=
  d.template = true ∧ (sc.templateParams = [] ∨ defines = true)

/-- What a class node adds to a class. -/
structure Takes (sc : Scope) (d : DeclInfo) (defines : Bool) (sc' : Scope) : Prop where
  loc : defines = true → sc'.loc = d.loc
  loc_of_defined : sc.defined = true → defines = false → sc'.loc = sc.loc
  bases : sc'.bases = sc.bases ++ d.bases.filterMap Draft.wellFormed?
  defined : sc'.defined = (sc.defined || defines)
  set : sc.SetsParams d defines → sc'.templateParams = d.templateParams ∧
    ∀ name, sc'.DeclaresParam name ↔ sc.DeclaresParam name ∨ name ∈ d.templateParams
  keep : ¬ sc.SetsParams d defines → sc'.templateParams = sc.templateParams ∧
    ∀ name, sc'.DeclaresParam name ↔ sc.DeclaresParam name

theorem TextOf.take {v : Visit} (ht : sc.TextOf nodes) (hopen : v.defines = true → sc.defined = false)
    (h : sc.Takes v.info v.defines sc') :
    sc'.TextOf (nodes ++ [v].filter (·.defines)) := by
  cases hdef : v.defines with
  | true =>
    -- the class has not been defined so far
    have hnil : nodes = [] := by
      match nodes, ht with
      | [], _ => rfl
      | [_], ht => cases (hopen hdef).symm.trans ht.1
    subst hnil
    rw [List.filter_singleton, hdef]
    exact ⟨by simp [h.defined, hdef], by rw [h.bases, ht.2, List.nil_append], h.loc hdef⟩
  | false =>
    have hnone : v.info.bases = [] := by
      have hnot : v.info.definesClass v.members = false := hdef
      simp only [DeclInfo.definesClass, Bool.or_eq_false_iff, Bool.not_eq_false'] at hnot
      simpa using hnot.1.2
    have hbases : sc'.bases = sc.bases := by rw [h.bases, hnone, List.filterMap_nil, List.append_nil]
    have hdefined : sc'.defined = sc.defined := by rw [h.defined, hdef, Bool.or_false]
    rw [List.filter_singleton, hdef, cond_false, List.append_nil]
    match nodes, ht with
    | [], ht => exact ⟨hdefined.trans ht.1, hbases.trans ht.2⟩
    | [_], ht =>
      exact ⟨hdefined.trans ht.1, hbases.trans ht.2.1, (h.loc_of_defined ht.1 hdef).trans ht.2.2⟩

theorem MadeBy.take {v : Visit} (hm : sc.MadeBy s nodes) (hsc : v.before.model.scope s = sc)
    (hopen : v.defines = true → sc.defined = false) (h : sc.Takes v.info v.defines sc') :
    sc'.MadeBy s (nodes ++ [v]) where
  text := by
    rw [List.filter_append]
    exact hm.text.take hopen h
  params := fun name => by
    simp only [List.mem_append, List.mem_singleton, or_and_right, exists_or, exists_eq_left]
    by_cases hsets : sc.SetsParams v.info v.defines
    · obtain ⟨htp, hdecl⟩ := h.set hsets
      rw [htp, hdecl, hm.params]
      constructor
      · rintro ((hname | hold) | hnew)
        · -- the class had the parameter before, so that only a definition can set others
          have hdef := hsets.2.resolve_left fun hnil => absurd (hnil ▸ hname) List.not_mem_nil
          exact .inr (.inr ⟨hdef, hsets.1, hsc ▸ hname⟩)
        · exact .inr (.inl hold)
        · exact .inl hnew
      · rintro (hnew | hold | ⟨_, _, hname⟩)
        · exact .inr hnew
        · exact .inl (.inr hold)
        · exact .inl (.inl (hsc ▸ hname))
    · obtain ⟨htp, hdecl⟩ := h.keep hsets
      have hnot : ¬ v.Replaces s name := fun hr => hsets ⟨hr.2.1, .inr hr.1⟩
      rw [htp, hdecl, hm.params]
      simp [hnot]
  origin := fun name hname => by
    have hold (h : sc.DeclaresParam name) :
        ∃ v' ∈ nodes ++ [v], v'.info.template = true ∧ name ∈ v'.info.templateParams := by
      obtain ⟨v', hv', h⟩ := hm.origin name h
      exact ⟨v', List.mem_append_left _ hv', h⟩
    by_cases hsets : sc.SetsParams v.info v.defines
    · rcases ((h.set hsets).2 name).mp hname with h | h
      · exact hold h
      · exact ⟨v, List.mem_append_right _ (List.mem_singleton_self v), hsets.1, h⟩
    · exact hold (((h.keep hsets).2 name).mp hname)

/-- What is added to a class is added to what is the same as a class. -/
theorem Takes.of_sameClass {d : DeclInfo} (h : sc.SameClass sc') (ht : sc'.Takes d defines sc'') :
    sc.Takes d defines sc'' := by
  have hsets : sc'.SetsParams d defines ↔ sc.SetsParams d defines := by
    rw [SetsParams, SetsParams, h.templateParams]
  refine ⟨ht.loc, fun hdef hnot => ?_, ?_, ?_, fun h' => ?_, fun h' => ?_⟩
  · rw [ht.loc_of_defined (h.defined.trans hdef) hnot, h.loc hdef]
  · rw [ht.bases, h.bases]
  · rw [ht.defined, h.defined]
  · obtain ⟨htp, hdecl⟩ := ht.set (hsets.mpr h')
    exact ⟨htp, fun name => by rw [hdecl, h.params]⟩
  · obtain ⟨htp, hdecl⟩ := ht.keep (mt hsets.mp h')
    exact ⟨by rw [htp, h.templateParams], fun name => by rw [hdecl, h.params]⟩

end Scope

namespace Model

/-- The class in scope `s` is declared in scope `p`. -/
def ClassDeclared (m : Model) (p s : ScopeId) : Prop :=
  ∃ c ∈ (m.scope p).decls, c.kind = .className ∧ c.name = (m.scope s).name ∧ c.defines = some s

theorem Inv.isClass_iff {m : Model} (H : m.Inv) : (m.scope i).isClass = true ↔ i ∈ m.classes := by
  rw [H.mem_classes, Scope.isClass, beq_iff_eq]

end Model

namespace Draft

variable {b b' b'' : Draft} {s p i : ScopeId} {d : DeclInfo}

/-! ### What a node says of its class -/

theorem declaresParam_iff (H : b.model.TreeInv) :
    b.declaresParam s name = true ↔ (b.model.scope s).DeclaresParam name := by
  simp only [declaresParam, Scope.DeclaresParam, List.any_eq_true, H.mem_declared, beq_iff_eq]
  exact exists_congr fun c => by rw [and_assoc, and_comm (a := c.name = name)]

/-- Declaring the parameters that are missing. -/
theorem foldl_missing (H : b.model.Inv) (hs : s < b.next) (loc : Loc) (params : List String)
    (hb' : b' = params.foldl (fun b q => if b.declaresParam s q then b else declareParam s loc b q) b) :
    (∀ i, i ≠ s → b'.model.scope i = b.model.scope i) ∧
    (∃ decls, b'.model.scope s = { b.model.scope s with decls }) ∧
    ∀ name, (b'.model.scope s).DeclaresParam name ↔
      (b.model.scope s).DeclaresParam name ∨ name ∈ params := by
  induction params generalizing b with
  | nil =>
    subst hb'
    exact ⟨fun _ _ => rfl, ⟨_, rfl⟩, fun name => by simp⟩
  | cons q params ih =>
    rw [List.foldl_cons] at hb'
    split at hb'
    · next hq =>
      rw [declaresParam_iff H.toTreeInv] at hq
      obtain ⟨hother, hdecls, hparams⟩ := ih H hs hb'
      refine ⟨hother, hdecls, fun name => ?_⟩
      rw [hparams, List.mem_cons]
      constructor
      · rintro (h | h)
        · exact .inl h
        · exact .inr (.inr h)
      · rintro (h | rfl | h)
        · exact .inl h
        · exact .inl hq
        · exact .inr h
    · have hrun : Run b (declareParam s loc b q) := declare_run hs rfl
      obtain ⟨hother, ⟨decls, hself⟩, hparams⟩ :=
        ih (hrun.inv H) (Nat.lt_of_lt_of_le hs hrun.next_le) hb'
      have hstep (i : ScopeId) : (declareParam s loc b q).model.scope i = _ := declare_scope hs i
      refine ⟨fun i hi => ?_, ⟨decls, ?_⟩, fun name => ?_⟩
      · rw [hother i hi, hstep, if_neg hi]
      · rw [hself, hstep, if_pos rfl]
      · rw [hparams, hstep, if_pos rfl, List.mem_cons, ← or_assoc]
        refine or_congr_left ?_
        simp [Scope.DeclaresParam, newDecl, or_and_right, exists_or, eq_comm]

theorem setTemplate_scope (H : b.model.Inv) (hs : s < b.next) (d : DeclInfo) (defines : Bool) :
    (∀ i, i ≠ s → (b.setTemplate s d defines).model.scope i = b.model.scope i) ∧
    ∃ isTemplate templateParams decls, (b.setTemplate s d defines).model.scope s =
        { b.model.scope s with isTemplate, templateParams, decls } ∧
      ((b.model.scope s).SetsParams d defines → templateParams = d.templateParams ∧
        ∀ name, ((b.setTemplate s d defines).model.scope s).DeclaresParam name ↔
          (b.model.scope s).DeclaresParam name ∨ name ∈ d.templateParams) ∧
      (¬ (b.model.scope s).SetsParams d defines → templateParams = (b.model.scope s).templateParams ∧
        decls = (b.model.scope s).decls) := by
  unfold setTemplate
  split
  · next hsets =>
    have hkeeps : KeepsFrame fun sc =>
        { sc with isTemplate := true, templateParams := d.templateParams } :=
      ⟨fun _ => ⟨rfl, rfl, rfl, rfl, rfl⟩, fun _ => rfl⟩
    have hamend : Run b (b.modifyScope s _) := .single (.amend hs hkeeps)
    obtain ⟨hother, ⟨decls, hself⟩, hparams⟩ :=
      foldl_missing (hamend.inv H) (Nat.lt_of_lt_of_le hs hamend.next_le) d.loc d.templateParams rfl
    refine ⟨fun i hi => ?_, true, d.templateParams, decls, ?_, fun _ => ⟨rfl, fun name => ?_⟩,
      fun hnot => absurd hsets hnot⟩
    · rw [hother i hi, modifyScope_scope hs, if_neg hi]
    · rw [hself, modifyScope_scope hs, if_pos rfl]
    · rw [hparams, modifyScope_scope hs, if_pos rfl]
      rfl
  · next hnot =>
    exact ⟨fun _ _ => rfl, _, _, _, rfl, fun hsets => absurd hsets hnot, fun _ => ⟨rfl, rfl⟩⟩

theorem addBases_scope (hs : s < b.next) (bases : List (Option Base)) :
    (∀ i, i ≠ s → (b.addBases s bases).model.scope i = b.model.scope i) ∧
    (b.addBases s bases).model.scope s =
      { b.model.scope s with bases := (b.model.scope s).bases ++ bases.filterMap wellFormed? } := by
  unfold addBases
  induction bases generalizing b with
  | nil => exact ⟨fun _ _ => rfl, by simp⟩
  | cons base bases ih =>
    rw [List.foldl_cons]
    cases hbase : wellFormed? base with
    | none =>
      have hskip : addBase s b base = b.skip := by simp [addBase, hbase]
      rw [hskip, List.filterMap_cons_none hbase]
      exact ih hs
    | some base' =>
      have hadd : addBase s b base = b.modifyScope s fun sc => { sc with bases := sc.bases ++ [base'] } := by
        simp [addBase, hbase]
      obtain ⟨hother, hself⟩ := ih (b := addBase s b base) (by rwa [hadd, modifyScope_next])
      refine ⟨fun i hi => ?_, ?_⟩
      · rw [hother i hi, hadd, modifyScope_scope hs, if_neg hi]
      · rw [hself, hadd, modifyScope_scope hs, if_pos rfl, List.filterMap_cons_some hbase]
        simp

/-- What a class node says beside its parameters. -/
theorem addClassInfo_scope (hs : s < (b.setTemplate s d defines).next) :
    (∀ i, i ≠ s → (b.addClassInfo s d defines).model.scope i =
      (b.setTemplate s d defines).model.scope i) ∧
    (b.addClassInfo s d defines).model.scope s =
      { (b.setTemplate s d defines).model.scope s with
        loc := if defines then d.loc else ((b.setTemplate s d defines).model.scope s).loc
        defined := ((b.setTemplate s d defines).model.scope s).defined || defines
        bases := ((b.setTemplate s d defines).model.scope s).bases ++ d.bases.filterMap wellFormed? } := by
  cases defines with
  | false =>
    obtain ⟨hother, hself⟩ := addBases_scope hs d.bases
    exact ⟨hother, hself.trans (by simp)⟩
  | true =>
    obtain ⟨hother, hself⟩ := addBases_scope (Nat.lt_of_lt_of_eq hs modifyScope_next.symm) d.bases
    refine ⟨fun i hi => (hother i hi).trans ?_, hself.trans ?_⟩
    · rw [modifyScope_scope hs, if_neg hi]
    · simp [modifyScope_scope hs]

/-- What a class node says is added to its scope and to no other. -/
theorem addClassInfo_takes (H : b.model.Inv) (hs : s < b.next) (d : DeclInfo) (defines : Bool) :
    (∀ i, i ≠ s → (b.addClassInfo s d defines).model.scope i = b.model.scope i) ∧
    (b.model.scope s).Takes d defines ((b.addClassInfo s d defines).model.scope s) := by
  obtain ⟨hother, isTemplate, templateParams, decls, hself, hset, hkeep⟩ :=
    setTemplate_scope H hs d defines
  have hrun : Run b (b.setTemplate s d defines) := setTemplate_run H hs
  obtain ⟨hother', hself'⟩ := addClassInfo_scope (Nat.lt_of_lt_of_le hs hrun.next_le)
  have hparams (name : String) : ((b.addClassInfo s d defines).model.scope s).DeclaresParam name ↔
      ((b.setTemplate s d defines).model.scope s).DeclaresParam name := by
    rw [hself']
    rfl
  rw [hself] at hself'
  refine ⟨fun i hi => (hother' i hi).trans (hother i hi), ?_, ?_, ?_, ?_, ?_, ?_⟩
  · rintro rfl
    rw [hself', if_pos rfl]
  · rintro _ rfl
    rw [hself', if_neg Bool.false_ne_true]
  · rw [hself']
  · rw [hself']
  · intro hsets
    obtain ⟨rfl, hnames⟩ := hset hsets
    exact ⟨by rw [hself'], fun name => (hparams name).trans (hnames name)⟩
  · intro hnot
    obtain ⟨rfl, rfl⟩ := hkeep hnot
    refine ⟨by rw [hself'], fun name => (hparams name).trans ?_⟩
    rw [hself]
    rfl

/-! ### Changes that are none to a class -/

theorem declare_sameClass (hs : s < b.next) (hk : kind ≠ .templateParam) (i : ScopeId) :
    (b.model.scope i).SameClass
      ((b.declare s name kind loc static injected defines).model.scope i) := by
  rw [declare_scope hs]
  split
  · next hi => exact hi ▸ .of_decls hk
  · exact .rfl

theorem openScope_sameClass (hp : p < b.next) (i : ScopeId) :
    (b.model.scope i).SameClass ((b.openScope p k d).model.scope i) := by
  rw [openScope_scope hp]
  split
  · next hi =>
    rw [hi, scope_next]
    exact ⟨fun h => absurd h Bool.false_ne_true, rfl, rfl, rfl, fun _ => Iff.rfl⟩
  · split
    · next hi =>
      rw [hi]
      exact ⟨fun _ => rfl, rfl, rfl, rfl, fun _ => Iff.rfl⟩
    · exact .rfl

theorem Edit.mem_decls (h : Edit b b') (hc : c ∈ (b.model.scope i).decls) :
    c ∈ (b'.model.scope i).decls := by
  cases h with
  | skip | defer | use => exact hc
  | register => rwa [register_scope]
  | declare hs =>
    rw [declare_scope hs]
    split
    · next hi => exact List.mem_append_left _ (hi ▸ hc)
    · exact hc
  | amend hs hf =>
    rw [modifyScope_scope hs]
    split
    · next hi =>
      rw [hf.decls]
      exact hi ▸ hc
    · exact hc
  | openScope hp => rwa [openScope_decls hp]
  | openClass hp => rwa [openClass_scope, openScope_decls hp]

theorem Run.mem_decls (h : Run b b') (hc : c ∈ (b.model.scope i).decls) :
    c ∈ (b'.model.scope i).decls := by
  induction h with
  | refl => exact hc
  | tail _ hedit ih => exact hedit.mem_decls ih

theorem Run.classDeclared (h : Run b b') (hs : s < b.next) (hd : b.model.ClassDeclared p s) :
    b'.model.ClassDeclared p s := by
  obtain ⟨c, hc, hkind, hname, hdefines⟩ := hd
  exact ⟨c, h.mem_decls hc, hkind, hname.trans (h.samePlace hs).name.symm, hdefines⟩

/-! ### The class of a node -/

/-- A class node joins a class only if the two do not both define it. -/
theorem class?_open (h : b.class? p name defines = some s) (hdef : defines = true) :
    (b.model.scope s).defined = false := by
  unfold class? at h
  split at h
  · cases h
  · obtain ⟨c, _, hc⟩ := List.exists_of_findSome?_eq_some h
    split at hc
    · simpa [hdef] using (Option.filter_eq_some_iff.mp hc).2
    · cases hc

/-- A class node that joins no class of its name is a definition, and so are they. -/
theorem class?_none (H : b.model.TreeInv) (h : b.class? p name defines = none) (hname : name ≠ "")
    (hc : c ∈ (b.model.scope p).decls) (hkind : c.kind = .className) (hcname : c.name = name)
    (hdefines : c.defines = some s) : defines = true ∧ (b.model.scope s).defined = true := by
  unfold class? at h
  rw [if_neg hname, List.findSome?_eq_none_iff] at h
  have hjoin := h c (H.mem_declared.mpr ⟨hc, hcname⟩)
  simpa [hkind, hdefines, Option.filter] using hjoin

/-- **A class node comes to scope `s`**, which is a class of its name, and changes no other class. -/
structure Taken (b : Draft) (p : ScopeId) (d : DeclInfo) (defines : Bool) (s : ScopeId) (b' : Draft) :
    Prop extends Entered b .classScope s b' where
  name_eq : (b'.model.scope s).name = d.name
  parent_eq : (b'.model.scope s).parent = some p
  old_or_new : (b.model.scope s).isClass = true ∨ s = b.next ∧ b.class? p d.name defines = none
  isOpen : defines = true → (b.model.scope s).defined = false
  takes : (b.model.scope s).Takes d defines (b'.model.scope s)
  isClass : ∀ {i}, i ≠ s → (b'.model.scope i).isClass = (b.model.scope i).isClass
  same : ∀ {i}, i ≠ s → (b.model.scope i).SameClass (b'.model.scope i)
  declared : d.name ≠ "" → b'.model.ClassDeclared p s

theorem enterClass_of_some (h : b.class? p d.name defines = some s) :
    b.enterClass p d defines = (s, b.register d.id s) := by
  rw [enterClass, h]

theorem enterClass_of_none (h : b.class? p d.name defines = none) :
    b.enterClass p d defines = (b.next, if d.name = "" then b.openClass p d else b.newClass p d) := by
  rw [enterClass, h]
  rfl

theorem newClass_classes : (b.newClass p d).model.classes = b.model.classes ++ [b.next] := by
  change (b.openClass p d).model.classes = _
  exact openClass_classes

theorem newClass_sameClass (hp : p < b.next) (i : ScopeId) :
    (b.model.scope i).SameClass ((b.newClass p d).model.scope i) := by
  have hopen : (b.model.scope i).SameClass ((b.openClass p d).model.scope i) :=
    openScope_sameClass hp i
  have hp' : p < (b.openClass p d).next := openClass_next ▸ Nat.lt_succ_of_lt hp
  have hs : b.next < ((b.openClass p d).declare p d.name .className d.loc false false
      (some b.next)).next := by
    rw [declare_next, openClass_next]
    exact Nat.lt_succ_self _
  exact (hopen.trans (declare_sameClass hp' (by decide) i)).trans
    (declare_sameClass hs (by decide) i)

/-- Coming to the scope of a class node changes no class; a new one is blank. -/
theorem enterClass_sameClass (hp : p < b.next) (d : DeclInfo) (defines : Bool) (i : ScopeId) :
    (b.model.scope i).SameClass ((b.enterClass p d defines).2.model.scope i) := by
  cases h : b.class? p d.name defines with
  | some s =>
    rw [enterClass_of_some h, register_scope]
    exact .rfl
  | none =>
    rw [enterClass_of_none h]
    dsimp only
    split
    · exact openScope_sameClass hp i
    · exact newClass_sameClass hp i

/-- The class that a class node comes to has been met before, or the node opens it. -/
theorem enterClass_old_or_new (H : b.model.Inv) (d : DeclInfo) (defines : Bool) :
    (b.model.scope (b.enterClass p d defines).1).isClass = true ∧
      b.class? p d.name defines = some (b.enterClass p d defines).1 ∨
    (b.enterClass p d defines).1 = b.next ∧ b.class? p d.name defines = none := by
  cases h : b.class? p d.name defines with
  | some s =>
    rw [enterClass_of_some h]
    exact .inl ⟨by simp [Scope.isClass, (class?_spec H h).2], rfl⟩
  | none =>
    rw [enterClass_of_none h]
    exact .inr ⟨rfl, rfl⟩

theorem enterClass_classes (hi : i ≠ (b.enterClass p d defines).1) :
    i ∈ (b.enterClass p d defines).2.model.classes ↔ i ∈ b.model.classes := by
  cases h : b.class? p d.name defines with
  | some s => rw [enterClass_of_some h, register_classes]
  | none =>
    rw [enterClass_of_none h] at hi ⊢
    dsimp only
    split
    · simp [show i ≠ b.next from hi]
    · simp [newClass_classes, show i ≠ b.next from hi]

theorem enterClass_declared (H : b.model.Inv) (hp : p < b.next) (d : DeclInfo) (defines : Bool)
    (hname : d.name ≠ "") :
    (b.enterClass p d defines).2.model.ClassDeclared p (b.enterClass p d defines).1 := by
  have H' := (enterClass_entered H hp d defines).inv H
  have hchild := enterClass_child H hp (List.mem_singleton_self d) defines
  suffices hdecl : ∃ c ∈ (b.enterClass p d defines).2.model.declared p d.name,
      c.kind = .className ∧ c.defines = some (b.enterClass p d defines).1 by
    obtain ⟨c, hc, hkind, hdefines⟩ := hdecl
    obtain ⟨hmem, hcname⟩ := H'.mem_declared.mp hc
    exact ⟨c, hmem, hkind, hcname.trans hchild.name_eq.symm, hdefines⟩
  cases h : b.class? p d.name defines with
  | some s =>
    rw [enterClass_of_some h, Model.declared, register_index]
    unfold class? at h
    rw [if_neg hname] at h
    obtain ⟨c, hc, hs⟩ := List.exists_of_findSome?_eq_some h
    split at hs
    · next hkind => exact ⟨c, hc, by simpa using hkind, (Option.filter_eq_some_iff.mp hs).1⟩
    · cases hs
  | none =>
    obtain ⟨c, hkind, hdefines, hc⟩ := newClass_declared (d := d) hp
    rw [enterClass_of_none h]
    simp only [if_neg hname, hc]
    exact ⟨c, by simp, hkind, hdefines⟩

theorem takeClass_taken (H : b.model.Inv) (hp : p < b.next) (d : DeclInfo) (defines : Bool) :
    Taken b p d defines (b.takeClass p d defines).1 (b.takeClass p d defines).2 := by
  have he := enterClass_entered H hp d defines
  have hchild := enterClass_child H hp (List.mem_singleton_self d) defines
  have hinfo := addClassInfo_run (he.inv H) he.lt d defines
  have hplace := hinfo.samePlace he.lt
  obtain ⟨hother, htakes⟩ := addClassInfo_takes (he.inv H) he.lt d defines
  have hsame := enterClass_sameClass hp d defines
  unfold takeClass
  exact
    { toEntered := he.trans hinfo
      name_eq := hplace.name.trans hchild.name_eq
      parent_eq := hplace.parent.trans hchild.parent_eq
      old_or_new := (enterClass_old_or_new H d defines).imp_left And.left
      isOpen := fun hdef => by
        rcases enterClass_old_or_new H (p := p) d defines with ⟨_, hs⟩ | ⟨hs, _⟩
        · exact class?_open hs hdef
        · rw [hs, scope_next]
      takes := htakes.of_sameClass (hsame _)
      isClass := fun {i} hi => by
        rw [hother i hi, Bool.eq_iff_iff, (he.inv H).isClass_iff, H.isClass_iff,
          enterClass_classes hi]
      same := fun {i} hi => by
        rw [hother i hi]
        exact hsame i
      declared := fun hname => hinfo.classDeclared he.lt (enterClass_declared H hp d defines hname) }

end Draft

end TwoPhase
