import TwoPhase.Proofs.Insertion

/-!
# Forward declarations of classes

A class that is declared before it is declared once more, or defined, gets its scope and its parameters earlier,
and otherwise everything stays as it is. The forward declaration opens the scope that the class would open
itself; the class then finds that scope, and finds its parameters declared in it.
-/

namespace TwoPhase

/-- A node that declares the class of `d`, with the parameters that `d` has, and says nothing else. -/
structure DeclInfo.ForwardOf (e d : DeclInfo) : Prop where
  isClass : NodeKind.ofText? e.kind = some .classNode
  name : e.name = d.name
  template : e.template = d.template
  templateParams : e.templateParams = d.templateParams
  id : e.id = ""
  bases : e.bases = []
  uses : e.uses = []

namespace Draft

variable {V : View} {o o' b b' : Draft} {s p : ScopeId} {d e : DeclInfo}

/-! ### Parameters that are declared already -/

theorem modifyScope_eq_self {f : Scope → Scope} (hf : f (b.model.scope s) = b.model.scope s) :
    b.modifyScope s f = b := by
  have hscopes : b.model.scopes.modify s f = b.model.scopes := by
    refine Array.ext Array.size_modify fun i hi hi' => ?_
    rw [Array.getElem_modify]
    split
    · next hsi =>
      subst hsi
      have hget : b.model.scope s = b.model.scopes[s] := by
        simp [Model.scope, Array.getElem?_eq_getElem hi']
      rwa [hget] at hf
    · rfl
  rw [modifyScope, hscopes]

/-- The scope has the parameters of the node, in its text and among its declarations. -/
structure HasParams (b : Draft) (s : ScopeId) (d : DeclInfo) : Prop where
  isTemplate : (b.model.scope s).isTemplate = true
  templateParams : (b.model.scope s).templateParams = d.templateParams
  declares : ∀ q ∈ d.templateParams, b.declaresParam s q = true

theorem HasParams.setTemplate_eq (h : d.template = true → b.HasParams s d) (defines : Bool) :
    b.setTemplate s d defines = b := by
  unfold setTemplate
  split
  · next hset =>
    obtain ⟨hisTemplate, hparams, hdeclares⟩ := h hset.1
    have hself : (b.modifyScope s fun sc =>
        { sc with isTemplate := true, templateParams := d.templateParams }) = b :=
      modifyScope_eq_self (by rw [← hisTemplate, ← hparams])
    dsimp only
    rw [hself]
    generalize d.templateParams = params at hdeclares
    induction params with
    | nil => rfl
    | cons q params ih =>
      rw [List.foldl_cons, if_pos (hdeclares q (.head _))]
      exact ih fun r hr => hdeclares r (.tail _ hr)
  · rfl

theorem declaresParam_declare (q : String) :
    (b.declare s n .templateParam loc).declaresParam s q = (b.declaresParam s q || q == n) := by
  simp only [declaresParam, Model.declared, declare_find, true_and]
  split
  · next hq => simp [hq, List.any_append, newDecl]
  · next hq => simp [hq]

/-- Declaring the parameters that are missing declares all of them and changes nothing else in the scope. -/
theorem foldl_declareParam (hs : s < b.next) (params : List String) {b' : Draft}
    (hb' : b' = params.foldl (fun b q => if b.declaresParam s q then b else declareParam s loc b q) b) :
    (b.model.scope s).SameText (b'.model.scope s) ∧
      (∀ q, b.declaresParam s q = true → b'.declaresParam s q = true) ∧
      ∀ q ∈ params, b'.declaresParam s q = true := by
  induction params generalizing b with
  | nil =>
    subst hb'
    exact ⟨.rfl, fun _ h => h, fun _ h => nomatch h⟩
  | cons n params ih =>
    rw [List.foldl_cons] at hb'
    split at hb'
    · next hn =>
      obtain ⟨htext, hkeep, hall⟩ := ih hs hb'
      refine ⟨htext, hkeep, fun q hq => ?_⟩
      rcases List.mem_cons.mp hq with rfl | hq
      · exact hkeep q hn
      · exact hall q hq
    · obtain ⟨htext, hkeep, hall⟩ := ih (Nat.lt_of_lt_of_eq hs declare_next.symm) hb'
      refine ⟨.trans ?_ htext, fun q hq => hkeep q ?_, fun q hq => ?_⟩
      · rw [declare_scope hs, if_pos rfl]
        exact ⟨rfl, rfl, Option.map_id'.symm, rfl, rfl, rfl, rfl⟩
      · rw [declaresParam_declare, hq, Bool.true_or]
      · rcases List.mem_cons.mp hq with rfl | hq
        · exact hkeep q (by rw [declaresParam_declare, beq_self_eq_true, Bool.or_true])
        · exact hall q hq

/-- The first declaration of a class sets its parameters. -/
theorem setTemplate_hasParams (hs : s < b.next) (hnone : (b.model.scope s).templateParams = [])
    (htemplate : d.template = true) (defines : Bool) : (b.setTemplate s d defines).HasParams s d := by
  unfold setTemplate
  rw [if_pos ⟨htemplate, .inl hnone⟩]
  obtain ⟨htext, _, hall⟩ := foldl_declareParam (Nat.lt_of_lt_of_eq hs modifyScope_next.symm)
    d.templateParams rfl
  refine ⟨?_, ?_, hall⟩
  · rw [htext.isTemplate, modifyScope_scope hs, if_pos rfl]
  · rw [htext.templateParams, modifyScope_scope hs, if_pos rfl]

theorem setTemplate_defined (hs : s < b.next) (defines : Bool) :
    ((b.setTemplate s d defines).model.scope s).defined = (b.model.scope s).defined := by
  unfold setTemplate
  split
  · obtain ⟨htext, _⟩ := foldl_declareParam (Nat.lt_of_lt_of_eq hs modifyScope_next.symm)
      d.templateParams rfl
    rw [htext.defined, modifyScope_scope hs, if_pos rfl]
  · rfl

/-! ### The class that is declared first -/

theorem class?_eq_none (h : ∀ c ∈ b.model.declared p name, c.kind ≠ .className) (defines : Bool) :
    b.class? p name defines = none := by
  unfold class?
  split
  · rfl
  · rw [List.findSome?_eq_none_iff]
    intro c hc
    rw [if_neg (by simpa using h c hc)]

theorem enterClass_of_new (h : ∀ c ∈ b.model.declared p d.name, c.kind ≠ .className)
    (hname : d.name ≠ "") (defines : Bool) :
    b.enterClass p d defines = (b.next, b.newClass p d) := by
  simp only [enterClass, class?_eq_none h, if_neg hname]
  rfl

theorem walk_class (h : NodeKind.ofText? d.kind = some .classNode) (members : List Decl) :
    walk p b (.node d members) =
      (walkAll (b.enterClass p d (d.definesClass members)).1
        ((b.enterClass p d (d.definesClass members)).2.addClassInfo
          (b.enterClass p d (d.definesClass members)).1 d (d.definesClass members)) members).addUses
        (b.enterClass p d (d.definesClass members)).1 d.uses := by
  unfold walk
  rw [h]

theorem walk_class_entered (H : b.model.Inv) (hp : p < b.next)
    (h : NodeKind.ofText? d.kind = some .classNode) (members : List Decl) :
    Entered b .classScope (b.enterClass p d (d.definesClass members)).1 (walk p b (.node d members)) := by
  have he := enterClass_entered H hp d (d.definesClass members)
  have hinfo := he.trans (addClassInfo_run (he.inv H) he.lt d (d.definesClass members))
  have hall := hinfo.trans (walkAll_run members (hinfo.inv H) hinfo.lt)
  rw [walk_class h]
  exact hall.trans (addUses_run (hall.inv H) hall.lt d.uses)

theorem walk_forward (he : e.ForwardOf d)
    (hnew : ∀ c ∈ b.model.declared p d.name, c.kind ≠ .className) (hname : d.name ≠ "") :
    walk p b (.node e []) = (b.newClass p e).setTemplate b.next e false := by
  have hdefines : e.definesClass [] = false := by
    simp [DeclInfo.definesClass, he.bases, he.uses]
  rw [walk_class he.isClass, hdefines, enterClass_of_new (he.name ▸ hnew) (he.name ▸ hname), he.uses,
    addClassInfo, he.bases]
  rfl

theorem newClass_lt : b.next < (b.newClass p d).next := by
  rw [newClass, declare_next, declare_next, openClass_next]
  exact Nat.lt_succ_self _

/-- The scope of a new class: nothing but its place and its name. -/
theorem newClass_self (hp : p < b.next) :
    Scope.SameText { kind := .classScope, name := d.name, parent := some p }
      ((b.newClass p d).model.scope b.next) := by
  have hlt : b.next < ((b.openClass p d).declare p d.name .className d.loc false false
      (some b.next)).next := by
    rw [declare_next, openClass_next]
    exact Nat.lt_succ_self _
  have hp' : p < (b.openClass p d).next := openClass_next ▸ Nat.lt_succ_of_lt hp
  rw [newClass, declare_scope hlt, if_pos rfl, declare_scope hp', if_neg (Nat.ne_of_gt hp),
    openClass_scope, openScope_scope hp, if_pos rfl]
  exact ⟨rfl, rfl, rfl, rfl, rfl, rfl, rfl⟩

theorem newClass_declared (hp : p < b.next) : ∃ c : Declaration, c.kind = .className ∧
    c.defines = some b.next ∧
    (b.newClass p d).model.declared p d.name = b.model.declared p d.name ++ [c] := by
  refine ⟨(b.openClass p d).newDecl p d.name .className d.loc false false (some b.next), rfl, rfl, ?_⟩
  have hindex : (b.openClass p d).model.index = b.model.index := openScope_index
  simp only [newClass, Model.declared, declare_find, hindex, true_and, if_true, Nat.ne_of_lt hp, false_and,
    if_false]

/-- A class that has been declared is found by its next declaration. -/
theorem class?_setTemplate_newClass (H : b.model.Inv) (hp : p < b.next) (hname : e.name ≠ "")
    (hnew : ∀ c ∈ b.model.declared p e.name, c.kind ≠ .className) (defines : Bool) :
    ((b.newClass p e).setTemplate b.next e false).class? p e.name defines = some b.next := by
  have hlt : b.next < (b.newClass p e).next := newClass_lt
  have he := enterClass_entered H hp e false
  rw [enterClass_of_new hnew hname] at he
  have H' := he.inv H
  have hset : ChangesIn [] b.next (b.newClass p e) ((b.newClass p e).setTemplate b.next e false) :=
    .setTemplate H' hlt e false
  have hdefined : (((b.newClass p e).setTemplate b.next e false).model.scope b.next).defined = false := by
    rw [setTemplate_defined hlt, (newClass_self hp).defined]
  have hdeclared : ((b.newClass p e).setTemplate b.next e false).model.declared p e.name =
      (b.newClass p e).model.declared p e.name := by
    refine declared_eq_of_scope_eq H' (hset.run.inv H') (hset.scope_eq (Nat.lt_trans hp hlt) ?_) _
    exact fun hps => Nat.not_lt.mpr (H'.within_le hps) hp
  obtain ⟨c, hkind, hdefines, hc⟩ := newClass_declared (d := e) hp
  have hold : (b.model.declared p e.name).findSome? (fun c : Declaration =>
      if c.kind == .className then c.defines.filter fun s => !defines ||
        !(((b.newClass p e).setTemplate b.next e false).model.scope s).defined else none) = none := by
    rw [List.findSome?_eq_none_iff]
    intro c hc
    rw [if_neg (by simpa using hnew c hc)]
  unfold class?
  rw [if_neg hname, hdeclared, hc, List.findSome?_append, hold, Option.none_or, List.findSome?_singleton,
    hkind, hdefines]
  simp [hdefined]

theorem lookup_setTemplate_newClass (H : (b.newClass p d).model.Inv) (defines : Bool) (id : String) :
    ((b.newClass p d).setTemplate b.next d defines).model.ids.lookup id =
      (b.model.ids.lookup id).or (if id = d.id ∧ d.id ≠ "" then some b.next else none) := by
  have hset : ChangesIn [] b.next (b.newClass p d) ((b.newClass p d).setTemplate b.next d defines) :=
    .setTemplate H newClass_lt d defines
  have hids : (b.newClass p d).model.ids = (b.openScope p .classScope d).model.ids := rfl
  rw [hset.lookup_eq (fun x hx => nomatch hx), hids, openScope_ids, lookup_register]

end Draft

/-- The view of a draft in one where the class of scope `s`, inside `p`, is declared at another place. The id
of the class comes into view when both sides have registered it. -/
def View.forwarding (p s : ScopeId) (id : String) : View where
  map := fun i => i
  injective := Function.injective_id
  knows := (· ≠ id)
  located := fun i => i ≠ p ∧ i ≠ s

namespace Draft

variable {b : Draft} {p s : ScopeId} {d e : DeclInfo} {id : String}

theorem seen_forwarding_self (H : b.model.Inv) : SeenIn (.forwarding p s id) b b b b :=
  .of_fixed H H (fun _ _ => rfl) (Nat.le_refl _) (fun _ => rfl) (fun _ => trivial) (fun _ _ => trivial) rfl
    (fun _ _ => .rfl) (fun _ _ => ⟨[], (List.append_nil _).symm, fun _ he => nomatch he⟩) (fun _ => rfl)

/-- The class and its forward declaration open scopes that agree up to the id. -/
theorem newClass_seen (H : b.model.Inv) (hp : p < b.next) (he : e.ForwardOf d) (defines : Bool) :
    SeenIn (.forwarding p b.next d.id) b b ((b.newClass p d).setTemplate b.next d defines)
      ((b.newClass p e).setTemplate b.next e false) := by
  have hclass : SeenIn (.forwarding p b.next d.id) b b (b.newClass p d) (b.newClass p e) := by
    refine (seen_forwarding_self H).newClass hp he.name (fun id hid => ?_) ?_
    · simp [he.id, show id ≠ d.id from hid]
    · rintro (hlocated | hlocated)
      · exact absurd rfl hlocated.1
      · exact absurd rfl hlocated.2
  exact hclass.setTemplate newClass_lt (fun _ => trivial) he.template
    he.templateParams (fun hlocated => absurd rfl hlocated.2) (.inl (newClass_self hp).templateParams)

/-- Where the class registers its id in the scope of the forward declaration, the scopes agree. -/
theorem register_seen (H : b.model.Inv) (hp : p < b.next) (hname : d.name ≠ "")
    (hnew : ∀ c ∈ b.model.declared p d.name, c.kind ≠ .className) (he : e.ForwardOf d) (defines : Bool) :
    SeenIn (View.forwarding p b.next d.id).knowingAll b b
      ((b.newClass p d).setTemplate b.next d defines)
      (((b.newClass p e).setTemplate b.next e false).register d.id b.next) := by
  have hclass := enterClass_entered H hp d defines
  have hforward := enterClass_entered H hp e false
  rw [enterClass_of_new hnew hname] at hclass
  rw [enterClass_of_new (he.name ▸ hnew) (he.name ▸ hname)] at hforward
  have h := newClass_seen H hp he defines
  have hregister : SeenIn (.forwarding p b.next d.id) b b ((b.newClass p d).setTemplate b.next d defines)
      (((b.newClass p e).setTemplate b.next e false).register d.id b.next) := by
    refine h.of_places ⟨rfl, rfl, rfl, rfl⟩ register_quiet rfl register_next (fun _ => ⟨rfl, rfl, rfl⟩)
      ⟨fun hi => ?_, fun hi => ?_, fun hid => ?_⟩
    · rw [register_scope]
      exact h.scope hi
    · simp only [Model.declared, register_index]
      exact h.declared hi
    · rw [lookup_register_of_ne fun heq => absurd heq.symm hid]
      exact h.lookup hid
  refine hregister.learn fun id => ?_
  rw [lookup_register, lookup_setTemplate_newClass (hforward.inv H),
    lookup_setTemplate_newClass (hclass.inv H), he.id]
  simp [View.forwarding]

/-- Both walks over the class go on alike: behind a forward declaration it finds its scope and its parameters. -/
theorem walk_forward_seen (H : b.model.Inv) (hp : p < b.next)
    (hd : NodeKind.ofText? d.kind = some .classNode) (hname : d.name ≠ "")
    (hnew : ∀ c ∈ b.model.declared p d.name, c.kind ≠ .className) (he : e.ForwardOf d)
    (members : List Decl) :
    SeenIn (View.forwarding p b.next d.id).knowingAll b b
      (walk p b (.node d members)) (walk p (walk p b (.node e [])) (.node d members)) := by
  have h := register_seen H hp hname hnew he (d.definesClass members)
  have hfound := class?_setTemplate_newClass H hp (he.name ▸ hname) (he.name ▸ hnew)
    (d.definesClass members)
  have hlt : b.next < (b.newClass p e).next := newClass_lt
  have hparams : d.template = true → HasParams
      (((b.newClass p e).setTemplate b.next e false).register d.id b.next) b.next d := by
    intro htemplate
    obtain ⟨hisTemplate, htemplateParams, hdeclares⟩ := setTemplate_hasParams hlt
      (newClass_self hp).templateParams (he.template.trans htemplate) false
    refine ⟨by rwa [register_scope], by rwa [register_scope, ← he.templateParams], fun q hq => ?_⟩
    rw [declaresParam, Model.declared, register_index]
    exact hdeclares q (he.templateParams ▸ hq)
  have hentered : ((b.newClass p e).setTemplate b.next e false).enterClass p d (d.definesClass members) =
      (b.next, ((b.newClass p e).setTemplate b.next e false).register d.id b.next) := by
    rw [he.name] at hfound
    rw [enterClass, hfound]
  have hclass := enterClass_entered H hp d (d.definesClass members)
  rw [enterClass_of_new hnew hname] at hclass
  have hclass' := hclass.trans (addClassInfo_run (hclass.inv H) hclass.lt d (d.definesClass members))
  have hinfo : SeenIn (View.forwarding p b.next d.id).knowingAll b b
      ((b.newClass p d).addClassInfo b.next d (d.definesClass members))
      ((((b.newClass p e).setTemplate b.next e false).register d.id b.next).addClassInfo b.next d
        (d.definesClass members)) := by
    unfold addClassInfo
    rw [HasParams.setTemplate_eq hparams]
    exact h.addDefinition (Nat.lt_of_lt_of_le hclass.lt (setTemplate_run (hclass.inv H) hclass.lt).next_le)
      d (d.definesClass members)
  rw [walk_forward he hnew hname, walk_class hd, walk_class hd, hentered, enterClass_of_new hnew hname]
  exact (hinfo.walkAll members (hclass'.inv H) hclass'.lt fun _ => trivial).addUses (n := "") trivial d.uses

end Draft

/-- **Forward declarations are transparent.** Before a class with a name, in a scope that lies in namespaces only
and declares no class of that name yet, a declaration with the same parameters may be put. All findings stay, in
order: their uses, verdicts, reasons, qualifications, kinds of resolution, classes and bases. Every scope stays
what and where it is, and every id stands for the same scope. -/
theorem CompilationUnit.findings_insert_forward {u u' : CompilationUnit} {d e : DeclInfo}
    {members : List Decl} (site : Site) (hd : NodeKind.ofText? d.kind = some .classNode)
    (hname : d.name ≠ "")
    (hnew : ∀ c ∈ (site.reach Model.root (Draft.start u.file)).2.model.declared
      (site.reach Model.root (Draft.start u.file)).1 d.name, c.kind ≠ .className)
    (he : e.ForwardOf d) (hfile : u'.file = u.file) (hu : u.topLevel = site.fill [.node d members])
    (hu' : u'.topLevel = site.fill [.node e [], .node d members]) :
    u.model.EmbedsIn (fun i => i) u'.model ∧
      ∀ policy follow, List.Forall₂ (Finding.SameAs fun i => i) (u.model.findings policy follow)
        (u'.model.findings policy follow) := by
  obtain ⟨p, b, hr, H, houter⟩ := site.exists_reach u.file
  rw [hr] at hnew
  have h := Draft.walk_forward_seen H houter.lt hd hname hnew he members
  have hrun : Draft.Run b (Draft.walk p b (.node d members)) := Draft.walk_run _ H houter.lt
  have hclass : ((Draft.walk p b (.node d members)).model.scope b.next).isClass = true := by
    have hentered := Draft.walk_class_entered H houter.lt hd members
    rw [Draft.enterClass_of_new hnew hname] at hentered
    rw [Scope.isClass, hentered.kind]
    rfl
  have C : (View.forwarding p b.next d.id).knowingAll.Complete
      (Draft.walk p b (.node d members)).model := by
    refine ⟨rfl, fun _ _ => trivial, fun _ => trivial, fun hnoisy => hnoisy.elim, fun {i} hi => ?_⟩
    by_cases hip : i = p
    · exact .inl (hip ▸ hrun.outer H houter)
    · obtain rfl : i = b.next := by
        by_contra his
        exact hi ⟨hip, his⟩
      exact .inr hclass
  obtain ⟨M, hmoved⟩ := site.mirrored hfile hu hu' hr (fun i hi => rfl) C h (List.map_id' _).symm rfl
  exact ⟨M.embedsIn, fun policy follow =>
    (M.findings_same hmoved policy follow).imp fun g g' hg => hg.sameAs fun _ _ hnoisy => hnoisy⟩

/-- The class template `B`, declared but not defined. -/
def sampleForward : DeclInfo where
  kind := "class"
  name := "B"
  loc := { line := 1 }
  template := true
  templateParams := ["T"]

theorem findings_insert_forward_sample :
    sampleForward.ForwardOf sampleBase ∧
    ((sampleUnit []).model.findings .lenient false).map (·.verdict) = [.nonCompliant] ∧
    ((sampleUnit [.node sampleForward []]).model.findings .lenient false).map (·.verdict) =
      [.nonCompliant] ∧
    (sampleUnit []).model.byId? "B" = some 2 ∧
    (sampleUnit [.node sampleForward []]).model.byId? "B" = some 2 := by
  have he : sampleForward.ForwardOf sampleBase := ⟨rfl, rfl, rfl, rfl, rfl, rfl, rfl⟩
  have hfile : (sampleUnit [.node sampleForward []]).file = (sampleUnit []).file := rfl
  have hverdicts : ((sampleUnit []).model.findings .lenient false).map (·.verdict) = [.nonCompliant] := by
    decide +kernel
  have hid : (sampleUnit []).model.byId? "B" = some 2 := by decide +kernel
  obtain ⟨hembeds, hsame⟩ := CompilationUnit.findings_insert_forward
    (.inside [] { kind := "namespace", name := "N" } rfl (.here [] [sampleDerived]) []) rfl (by decide)
    (by decide +kernel) he hfile rfl rfl
  refine ⟨he, hverdicts, ?_, hid, ?_⟩
  · rw [← hverdicts]
    exact Finding.map_verdict_eq (hsame .lenient false) fun hg => hg.verdict
  · rw [hembeds.byId, hid]
    rfl

end TwoPhase
