import TwoPhase.Proofs.BuildRun
import TwoPhase.Proofs.Ledger
import Mathlib.Data.List.Forall2

/-!
# The model keeps the ledger

Each operation of the builder adds to the uses, to the scopes of functions, to the number of skipped entries, to
the functions set aside and to the ids just what the ledger says. So the ledger of a unit tells what its model has
recorded, placed and counted, and which uses and functions leave no trace in it.
-/

namespace TwoPhase

namespace Model

variable {m m' : Model} {i : ScopeId} {d : DeclInfo}

/-- The kind of the scope that an id stands for. -/
def idKind? (m : Model) (id : String) : Option ScopeKind :=
  (m.byId? id).map fun s => (m.scope s).kind

/-- The scopes of functions, in the order in which they were opened. -/
def functionScopes (m : Model) : List ScopeId :=
  (List.range m.scopes.size).filter fun i => (m.scope i).kind = .functionScope

/-- Scope `i` is the body of function `d`. If `d` names an owner, the body lies in the class with that id. -/
structure IsBodyOf (m : Model) (i : ScopeId) (d : DeclInfo) : Prop where
  kind : (m.scope i).kind = .functionScope
  name : (m.scope i).name = d.name
  owner : d.owner ≠ "" → ∃ c, m.byId? d.owner = some c ∧ (m.scope c).isClass = true ∧
    (m.scope i).parent = some c

theorem IsBodyOf.of_samePlace (h : m.IsBodyOf i d)
    (hplace : ∀ i < m.scopes.size, (m'.scope i).SamePlace (m.scope i))
    (hids : ∀ {id c}, m.byId? id = some c → m'.byId? id = some c) : m'.IsBodyOf i d := by
  have hi := hplace i (lt_size_of_kind_ne (by rw [h.kind]; decide))
  refine ⟨hi.kind.trans h.kind, hi.name.trans h.name, fun howner => ?_⟩
  obtain ⟨c, hc, hclass, hparent⟩ := h.owner howner
  have hkind := (hplace c (lt_size_of_isClass hclass)).kind
  exact ⟨c, hids hc, by rwa [Scope.isClass, hkind], hi.parent.trans hparent⟩

theorem functionScopes_congr (hsize : m'.scopes.size = m.scopes.size)
    (hkind : ∀ i, (m'.scope i).kind = (m.scope i).kind) : m'.functionScopes = m.functionScopes := by
  simp only [functionScopes, hsize, hkind]

end Model

namespace Draft

/-- From `b` to `b'`, what is recorded, placed, counted, set aside and named by ids is `l`. -/
structure Accounts (b : Draft) (l : Ledger) (b' : Draft) : Prop where
  uses : ∃ new, b'.model.uses = b.model.uses ++ new ∧
    List.Forall₂ (fun x u => ∃ s, x = Use.placed u b.model.file s) new l.recorded
  bodies : ∃ new, b'.model.functionScopes = b.model.functionScopes ++ new ∧
    List.Forall₂ (fun i n => b'.model.IsBodyOf i n.1) new l.functions
  skipped : b'.model.skipped = b.model.skipped + l.count
  deferred : b'.deferred = b.deferred ++ l.deferred
  file : b'.model.file = b.model.file
  idKind : ∀ id, b'.model.idKind? id = (b.model.idKind? id).or (l.ids.lookup id)
  keeps : ∀ {i d}, b.model.IsBodyOf i d → b'.model.IsBodyOf i d

variable {b b' b'' : Draft} {l l' : Ledger} {s p : ScopeId} {d : DeclInfo}

theorem Accounts.trans (h : Accounts b l b') (h' : Accounts b' l' b'') :
    Accounts b (l ++ l') b'' where
  uses := by
    obtain ⟨new, huses, hnew⟩ := h.uses
    obtain ⟨new', huses', hnew'⟩ := h'.uses
    rw [h.file] at hnew'
    exact ⟨new ++ new', by rw [huses', huses, List.append_assoc], List.rel_append hnew hnew'⟩
  bodies := by
    obtain ⟨new, hscopes, hnew⟩ := h.bodies
    obtain ⟨new', hscopes', hnew'⟩ := h'.bodies
    exact ⟨new ++ new', by rw [hscopes', hscopes, List.append_assoc],
      List.rel_append (hnew.imp fun _ _ => h'.keeps) hnew'⟩
  skipped := by rw [h'.skipped, h.skipped, Ledger.count_append, Nat.add_assoc]
  deferred := by rw [h'.deferred, h.deferred, Ledger.append_deferred, List.append_assoc]
  file := h'.file.trans h.file
  idKind := fun id => by
    rw [h'.idKind, h.idKind, Ledger.append_ids, List.lookup_append, Option.or_assoc]
  keeps := fun h'' => h'.keeps (h.keeps h'')

/-- A change that opens no scope and names nothing. -/
theorem accounts_of_samePlace (hplace : ∀ i, (b'.model.scope i).SamePlace (b.model.scope i))
    (hnext : b'.next = b.next) (hids : b'.model.ids = b.model.ids) (hfile : b'.model.file = b.model.file)
    (huses : ∃ new, b'.model.uses = b.model.uses ++ new ∧
      List.Forall₂ (fun x u => ∃ s, x = Use.placed u b.model.file s) new l.recorded)
    (hskipped : b'.model.skipped = b.model.skipped + l.count)
    (hdeferred : b'.deferred = b.deferred ++ l.deferred) (hfunctions : l.functions = [])
    (hnames : l.ids = []) : Accounts b l b' := by
  have hbyId (id : String) : b'.model.byId? id = b.model.byId? id := by rw [Model.byId?, hids, Model.byId?]
  refine ⟨huses, ⟨[], ?_, hfunctions ▸ .nil⟩, hskipped, hdeferred, hfile, fun id => ?_, fun h => ?_⟩
  · rw [List.append_nil]
    exact Model.functionScopes_congr hnext fun i => (hplace i).kind
  · simp [Model.idKind?, hbyId, hnames, (hplace _).kind]
  · exact h.of_samePlace (fun i _ => hplace i) fun hid => (hbyId _).trans hid

/-- A change that records, places, counts, defers and names nothing. -/
theorem accounts_quiet (hplace : ∀ i, (b'.model.scope i).SamePlace (b.model.scope i))
    (hnext : b'.next = b.next) (hids : b'.model.ids = b.model.ids) (hfile : b'.model.file = b.model.file)
    (huses : b'.model.uses = b.model.uses) (hskipped : b'.model.skipped = b.model.skipped)
    (hdeferred : b'.deferred = b.deferred) : Accounts b {} b' :=
  accounts_of_samePlace hplace hnext hids hfile ⟨[], by simpa using huses, .nil⟩ hskipped
    (by simpa using hdeferred) rfl rfl

theorem accounts_refl : Accounts b {} b :=
  accounts_quiet (fun _ => ⟨rfl, rfl, rfl⟩) rfl rfl rfl rfl rfl rfl

theorem accounts_skip (hrecorded : l.recorded = []) (hcount : l.count = 1)
    (hdeferred : l.deferred = []) (hfunctions : l.functions = []) (hids : l.ids = []) :
    Accounts b l b.skip :=
  accounts_of_samePlace (fun _ => ⟨rfl, rfl, rfl⟩) rfl rfl rfl ⟨[], by simp [skip], hrecorded ▸ .nil⟩
    (by rw [hcount]; rfl) (by simp [hdeferred, skip]) hfunctions hids

/-- What is overlooked changes no account. -/
theorem Accounts.overlook (h : Accounts b l b') (lost : List Entry) : Accounts b (l ++ { lost }) b' :=
  h.trans (accounts_of_samePlace (fun _ => ⟨rfl, rfl, rfl⟩) rfl rfl rfl ⟨[], by simp, .nil⟩ rfl (by simp) rfl rfl)

/-- What the ids stand for once an id has been registered. -/
theorem idKind?_of_register {m : Model} {id : String} (H : b.model.Inv)
    (hids : m.ids = (b.register id s).model.ids) (hs : (m.scope s).kind = k)
    (hold : ∀ i < b.next, (m.scope i).kind = (b.model.scope i).kind) (id' : String) :
    m.idKind? id' = (b.model.idKind? id').or ((Ledger.ofId id k).ids.lookup id') := by
  rw [Ledger.lookup_ofId]
  by_cases hempty : id' = ""
  · by_cases hid : id' = id <;> simp_all [Model.idKind?, Model.byId?]
  · simp only [Model.idKind?, Model.byId?, if_neg hempty, hids, lookup_register]
    cases hfound : b.model.ids.lookup id' with
    | some c => simp [hold c (H.lookup_lt hfound)]
    | none => by_cases hid : id' = id ∧ id ≠ "" <;> simp [hid, hs]

theorem register_accounts {id : String} (H : b.model.Inv) (hs : s < b.next)
    (hk : (b.model.scope s).kind = k) : Accounts b (.ofId id k) (b.register id s) := by
  have hscopes : (b.register id s).model.functionScopes = b.model.functionScopes :=
    Model.functionScopes_congr register_next fun i => by rw [register_scope]
  refine ⟨⟨[], by simp, .nil⟩, ⟨[], by simpa using hscopes, .nil⟩, register_skipped, by simp [Ledger.ofId],
    register_file, fun id' => ?_, fun h => ?_⟩
  · exact idKind?_of_register H rfl (by rw [register_scope, hk]) (fun i _ => by rw [register_scope]) id'
  · exact h.of_samePlace (fun i hi => (Edit.register hs).samePlace hi) (Edit.register hs).byId?_eq

theorem functionScopes_openScope (hp : p < b.next) : (b.openScope p k d).model.functionScopes =
    b.model.functionScopes ++ if k = .functionScope then [b.next] else [] := by
  have hsize : (b.openScope p k d).model.scopes.size = b.next + 1 := openScope_next
  rw [Model.functionScopes, hsize, List.range_succ, List.filter_append]
  congr 1
  · refine List.filter_congr fun i hi => ?_
    rw [openScope_kind hp, if_neg (Nat.ne_of_lt (List.mem_range.mp hi))]
  · simp [List.filter_cons, openScope_kind hp]

/-- Opening a scope. The scope of a function that names an owner is opened in the class with that id. -/
theorem openScope_accounts (H : b.model.Inv) (hp : p < b.next) (k : ScopeKind) (d : DeclInfo)
    (members : List Decl) (howner : k = .functionScope → d.owner ≠ "" →
      b.model.byId? d.owner = some p ∧ (b.model.scope p).isClass = true) :
    Accounts b (.ofOpened k d members) (b.openScope p k d) := by
  have hplace {i : ScopeId} (hi : i < b.next) :
      ((b.openScope p k d).model.scope i).SamePlace (b.model.scope i) :=
    openScope_samePlace hp hi
  have hbyId {id : String} {c : ScopeId} (hid : b.model.byId? id = some c) :
      (b.openScope p k d).model.byId? id = some c :=
    openScope_byId? hid
  refine ⟨⟨[], by simp, .nil⟩, ⟨_, functionScopes_openScope hp, ?_⟩, openScope_skipped, ?_, openScope_file,
    fun id => ?_, fun h => h.of_samePlace (fun i hi => hplace hi) hbyId⟩
  · by_cases hk : k = .functionScope
    · have hself : (b.openScope p k d).model.scope b.next = _ := openScope_self hp
      simp only [Ledger.ofOpened, if_pos hk]
      refine .cons ⟨by rw [hself, hk], by rw [hself], fun hne => ?_⟩ .nil
      obtain ⟨hid, hclass⟩ := howner hk hne
      exact ⟨p, hbyId hid, by rwa [Scope.isClass, (hplace hp).kind], by rw [hself]⟩
    · simp only [Ledger.ofOpened, if_neg hk]
      exact .nil
  · simp [Ledger.ofOpened, Ledger.ofId]
  · exact idKind?_of_register H openScope_ids (by rw [openScope_kind hp, if_pos rfl])
      (fun i hi => (hplace hi).kind) id

theorem declare_accounts (hs : s < b.next) :
    Accounts b {} (b.declare s name kind loc static injected defines) :=
  accounts_quiet (fun i => (declare_frame hs i).samePlace) declare_next rfl rfl rfl rfl rfl

theorem amend_accounts (hs : s < b.next) (hf : KeepsFrame f) : Accounts b {} (b.modifyScope s f) :=
  accounts_quiet (modifyScope_samePlace hs hf) modifyScope_next rfl rfl rfl rfl rfl

/-- A fold keeps the ledger of its list if every step keeps that of its element. -/
theorem foldl_accounts {f : Draft → α → Draft} {g : List α → Ledger} (hnil : g [] = {})
    (hcons : ∀ a as, g (a :: as) = g [a] ++ g as)
    (hf : ∀ b a, b.model.Inv → s < b.next → (b.model.scope s).kind = k →
      Run b (f b a) ∧ Accounts b (g [a]) (f b a))
    (H : b.model.Inv) (hs : s < b.next) (hk : (b.model.scope s).kind = k) (as : List α) :
    Accounts b (g as) (as.foldl f b) := by
  induction as generalizing b with
  | nil => exact hnil ▸ accounts_refl
  | cons a as ih =>
    obtain ⟨hrun, haccounts⟩ := hf b a H hs hk
    rw [hcons]
    exact haccounts.trans (ih (hrun.inv H) (Nat.lt_of_lt_of_le hs hrun.next_le)
      ((hrun.samePlace hs).kind.trans hk))

/-! ### The operations -/

theorem enterNamespace_accounts (H : b.model.Inv) (hp : p < b.next) (d : DeclInfo) :
    Accounts b (.ofId d.id .namespaceScope) (b.enterNamespace p d).2 := by
  unfold enterNamespace
  split
  · next s hs =>
    obtain ⟨hlt, hkind⟩ := namespace?_spec H hs
    exact register_accounts H hlt hkind
  · have hopen : Accounts b (.ofId d.id .namespaceScope) (b.openScope p .namespaceScope d) :=
      openScope_accounts H hp .namespaceScope d [] (by simp)
    have h : Entered b .namespaceScope b.next (b.openScope p .namespaceScope d) :=
      entered_openScope hp (by decide)
    dsimp only
    split
    · exact hopen
    · simpa using hopen.trans (declare_accounts (Nat.lt_of_lt_of_le hp h.run.next_le))

theorem enterClass_accounts (H : b.model.Inv) (hp : p < b.next) (d : DeclInfo) (defines : Bool) :
    Accounts b (.ofId d.id .classScope) (b.enterClass p d defines).2 := by
  unfold enterClass
  split
  · next s hs =>
    obtain ⟨hlt, hkind⟩ := class?_spec H hs
    exact register_accounts H hlt hkind
  · have hopen : Accounts b (.ofId d.id .classScope) (b.openClass p d) := by
      have hscope : Accounts b (.ofId d.id .classScope) (b.openScope p .classScope d) :=
        openScope_accounts H hp .classScope d [] (by simp)
      exact Ledger.append_empty (.ofId d.id .classScope) ▸
        hscope.trans (accounts_quiet (fun _ => ⟨rfl, rfl, rfl⟩) rfl rfl rfl rfl rfl rfl)
    have h : Entered b .classScope b.next (b.openClass p d) := entered_openClass hp
    have hp' := Nat.lt_of_lt_of_le hp h.run.next_le
    dsimp only
    split
    · exact hopen
    · simpa using (hopen.trans (declare_accounts hp')).trans
        (declare_accounts (Nat.lt_of_lt_of_eq h.lt declare_next.symm))

theorem enterBody_accounts (H : b.model.Inv) (hp : p < b.next) (hk : k ≠ .classScope) (d : DeclInfo)
    (members : List Decl) (howner : k = .functionScope → d.owner ≠ "" →
      b.model.byId? d.owner = some p ∧ (b.model.scope p).isClass = true) :
    Accounts b (.ofOpened k d members) (b.enterBody p k d).2 := by
  have hopen := openScope_accounts H hp k d members howner
  have h : Entered b k b.next (b.openScope p k d) := entered_openScope hp hk
  simp only [enterBody]
  split
  · refine Ledger.append_empty (.ofOpened k d members) ▸ hopen.trans ?_
    exact foldl_accounts (g := fun _ => {}) rfl (fun _ _ => rfl)
      (fun _ _ _ hs _ => ⟨declare_run hs rfl, declare_accounts hs⟩) (h.inv H) h.lt h.kind _
  · exact hopen

theorem setTemplate_accounts (H : b.model.Inv) (hs : s < b.next) :
    Accounts b {} (b.setTemplate s d defines) := by
  unfold setTemplate
  split
  · have hkeeps : KeepsFrame fun sc =>
        { sc with isTemplate := true, templateParams := d.templateParams } :=
      ⟨fun _ => ⟨rfl, rfl, rfl, rfl, rfl⟩, fun _ => rfl⟩
    have hamend : Run b (b.modifyScope s _) := .single (.amend hs hkeeps)
    refine (amend_accounts hs hkeeps).trans (foldl_accounts (g := fun _ => {}) rfl (fun _ _ => rfl)
      (fun b' q H hs _ => ?_) (hamend.inv H) (Nat.lt_of_lt_of_le hs hamend.next_le) rfl _)
    split
    · exact ⟨.refl, accounts_refl⟩
    · exact ⟨declare_run hs rfl, declare_accounts hs⟩
  · exact accounts_refl

theorem addBases_accounts (H : b.model.Inv) (hs : s < b.next) (bases : List (Option Base)) :
    Accounts b (.ofBases bases) (b.addBases s bases) := by
  refine foldl_accounts (g := Ledger.ofBases) rfl Ledger.ofBases_cons
    (fun b' base H hs _ => ⟨addBase_run hs base, ?_⟩) H hs rfl bases
  unfold addBase
  cases hbase : wellFormed? base with
  | some _ =>
    have hblank : Ledger.ofBases [base] = {} := by simp [Ledger.ofBases, hbase]
    exact hblank ▸ amend_accounts hs ⟨fun _ => ⟨rfl, rfl, rfl, rfl, rfl⟩, fun _ => rfl⟩
  | none => exact accounts_skip rfl (by simp [Ledger.ofBases, Ledger.count, hbase]) rfl rfl rfl

theorem addClassInfo_accounts (H : b.model.Inv) (hs : s < b.next) (d : DeclInfo) (defines : Bool) :
    Accounts b (.ofBases d.bases) (b.addClassInfo s d defines) := by
  have htemplate : Run b (b.setTemplate s d defines) := setTemplate_run H hs
  have hs' := Nat.lt_of_lt_of_le hs htemplate.next_le
  suffices hrest : Accounts (b.setTemplate s d defines) (.ofBases d.bases)
      (b.addClassInfo s d defines) from (setTemplate_accounts H hs).trans hrest
  unfold addClassInfo
  split
  · have hkeeps : KeepsFrame fun sc => { sc with loc := d.loc, defined := true } :=
      ⟨fun _ => ⟨rfl, rfl, rfl, rfl, rfl⟩, fun _ => rfl⟩
    have hamend : Run (b.setTemplate s d defines) _ := .single (.amend hs' hkeeps)
    exact (amend_accounts hs' hkeeps).trans
      (addBases_accounts (hamend.inv (htemplate.inv H)) (Nat.lt_of_lt_of_le hs' hamend.next_le) _)
  · exact addBases_accounts (htemplate.inv H) hs' _

theorem addUse_accounts (hns : (b.model.scope s).kind = .namespaceScope ↔ inNamespace = true)
    (use : Option Use) : Accounts b (.ofUses inNamespace [use]) (addUse s b use) := by
  have hskip (h : Ledger.recordable? inNamespace use = none) :
      Accounts b (.ofUses inNamespace [use]) b.skip :=
    accounts_skip (by simp [Ledger.ofUses, h]) (by simp [Ledger.ofUses, Ledger.count, h]) rfl rfl rfl
  cases use with
  | none => exact hskip rfl
  | some u =>
    simp only [addUse, hns]
    split
    · next hu => exact hskip (by rw [Ledger.recordable?_some, if_pos hu])
    · next hu =>
      have hrecord : Ledger.ofUses inNamespace [some u] = { recorded := [u] } := by
        simp [Ledger.ofUses, Ledger.recordable?_some, if_neg hu]
      rw [hrecord]
      exact accounts_of_samePlace (fun _ => ⟨rfl, rfl, rfl⟩) rfl rfl rfl ⟨_, rfl, .cons ⟨s, rfl⟩ .nil⟩ rfl
        (List.append_nil _).symm rfl rfl

theorem addUses_accounts (H : b.model.Inv) (hs : s < b.next)
    (hns : (b.model.scope s).kind = .namespaceScope ↔ inNamespace = true)
    (uses : List (Option Use)) : Accounts b (.ofUses inNamespace uses) (b.addUses s uses) :=
  foldl_accounts (g := Ledger.ofUses inNamespace) rfl (Ledger.ofUses_cons inNamespace)
    (fun _ use _ _ hk => ⟨addUse_run use, addUse_accounts (hk ▸ hns) use⟩) H hs rfl uses

/-! ### The walk -/

/-- What is placed in a scope that has been entered, followed by the uses of the scope itself. -/
theorem Entered.accounts {members : List Decl} (h : Entered b k s b') (H : b.model.Inv)
    (hk : k ≠ .namespaceScope) (hopened : Accounts b (.ofOpened k d members) b') (hrun : Run b' b'')
    (hinside : Accounts b' l b'') : Accounts b (.ofScope k d members l) (b''.addUses s d.uses) := by
  have h := h.trans hrun
  exact (hopened.trans hinside).trans
    (addUses_accounts (h.inv H) h.lt (iff_of_false (h.kind ▸ hk) (by decide)) d.uses)

mutual

/-- Placing a node keeps its ledger. -/
theorem walk_accounts : (d : Decl) → ∀ {b : Draft} {p inNamespace}, b.model.Inv → p < b.next →
    ((b.model.scope p).kind = .namespaceScope ↔ inNamespace = true) →
    Accounts b (d.ledger inNamespace) (walk p b d)
  | .missing, _, _, _, _, _, _ => accounts_skip rfl rfl rfl rfl rfl
  | .node d members, b, p, inNamespace, H, hp, hns => by
    have hmembers {b s k} (H : b.model.Inv) (h : s < b.next) (hk : (b.model.scope s).kind = k) :
        Run b (walkAll s b members) ∧
          Accounts b (Decl.ledgerAll (k == ScopeKind.namespaceScope) members) (walkAll s b members) :=
      ⟨walkAll_run members H h, walkAll_accounts members H h (by simp [hk])⟩
    have hvariable (kind : DeclKind) (hk : kind.opens? = none) :
        Accounts b (.ofUses inNamespace d.uses ++ { lost := Decl.entriesIn members })
          ((b.declare p d.name kind d.loc d.static).addUses p d.uses) := by
      have hdecl : Run b (b.declare p d.name kind d.loc d.static) := declare_run hp hk
      have huses := addUses_accounts (hdecl.inv H) (Nat.lt_of_lt_of_le hp hdecl.next_le)
        ((hdecl.samePlace hp).kind ▸ hns) d.uses
      exact ((declare_accounts hp).trans huses).overlook _
    rw [walk, Decl.ledger]
    cases NodeKind.ofText? d.kind with
    | none => exact accounts_skip rfl rfl rfl rfl rfl
    | some kind =>
      cases kind with
      | namespaceNode =>
        have h := enterNamespace_entered H hp d
        have hinside := (hmembers (h.inv H) h.lt h.kind).2
        exact ((enterNamespace_accounts H hp d).trans hinside).overlook _
      | classNode =>
        have h := enterClass_entered H hp d (d.definesClass members)
        have hinfo := addClassInfo_run (h.inv H) h.lt d (d.definesClass members)
        have h' := h.trans hinfo
        obtain ⟨hrun, hinside⟩ := hmembers (h'.inv H) h'.lt h'.kind
        exact h.accounts H (by decide) (enterClass_accounts H hp d _) (hinfo.trans hrun)
          ((addClassInfo_accounts (h.inv H) h.lt d _).trans hinside)
      | functionNode =>
        dsimp only
        split
        · exact accounts_of_samePlace (fun _ => ⟨rfl, rfl, rfl⟩) rfl rfl rfl ⟨[], by simp, .nil⟩ rfl rfl rfl rfl
        · next howner =>
          have hdecl : Run b (b.declare p d.name .functionName d.loc d.static false (some b.next)) :=
            declare_run hp rfl
          have hp' := Nat.lt_of_lt_of_le hp hdecl.next_le
          have h := enterBody_entered (k := .functionScope) (hdecl.inv H) hp' (by decide) d
          obtain ⟨hrun, hinside⟩ := hmembers (h.inv (hdecl.inv H)) h.lt h.kind
          exact (declare_accounts hp).trans (h.accounts (hdecl.inv H) (by decide)
            (enterBody_accounts (hdecl.inv H) hp' (by decide) d members fun _ h => absurd h howner) hrun hinside)
      | blockNode =>
        have h := enterBody_entered (k := .blockScope) H hp (by decide) d
        obtain ⟨hrun, hinside⟩ := hmembers (h.inv H) h.lt h.kind
        exact h.accounts H (by decide) (enterBody_accounts H hp (by decide) d members (by simp)) hrun hinside
      | variableNode =>
        dsimp only
        split
        · exact accounts_skip rfl rfl rfl rfl rfl
        · exact hvariable .variableName rfl
      | typeNode =>
        dsimp only
        split
        · exact accounts_skip rfl rfl rfl rfl rfl
        · exact hvariable .typeName rfl

theorem walkAll_accounts : (ds : List Decl) → ∀ {b : Draft} {p inNamespace}, b.model.Inv →
    p < b.next → ((b.model.scope p).kind = .namespaceScope ↔ inNamespace = true) →
    Accounts b (Decl.ledgerAll inNamespace ds) (walkAll p b ds)
  | [], _, _, _, _, _, _ => accounts_refl
  | d :: ds, _, _, _, H, hp, hns =>
    have hrun := walk_run d H hp
    (walk_accounts d H hp hns).trans (walkAll_accounts ds (hrun.inv H)
      (Nat.lt_of_lt_of_le hp hrun.next_le) ((hrun.samePlace hp).kind ▸ hns))

end

end Draft

/-! ### Functions defined outside their classes -/

namespace Draft

variable {b : Draft} {l : Ledger} {d : DeclInfo}

/-- A function whose owner is a class is placed there, with its ledger. -/
theorem defineOutOfLine_accounts (H : b.model.Inv)
    (howner : b.model.idKind? d.owner = some .classScope) (members : List Decl) :
    Accounts b (.ofScope .functionScope d members (Decl.ledgerAll false members))
      (b.defineOutOfLine d members) := by
  obtain ⟨c, hc, hkind⟩ := Option.map_eq_some_iff.mp howner
  have hclass : (b.model.scope c).isClass = true := by simp [Scope.isClass, hkind]
  have hlt : c < b.next := Model.lt_size_of_isClass hclass
  obtain ⟨b₁, hb₁, hdecl, hquiet⟩ : ∃ b₁, b₁ = (if (b.model.declared c d.name).isEmpty then
      b.declare c d.name .functionName d.loc d.static else b) ∧ Run b b₁ ∧ Accounts b {} b₁ := by
    refine ⟨_, rfl, ?_⟩
    split
    · exact ⟨declare_run hlt rfl, declare_accounts hlt⟩
    · exact ⟨.refl, accounts_refl⟩
  have H := hdecl.inv H
  have hlt' := Nat.lt_of_lt_of_le hlt hdecl.next_le
  have hclass' : (b₁.model.scope c).isClass = true := by rwa [Scope.isClass, (hdecl.samePlace hlt).kind]
  have h := enterBody_entered (k := .functionScope) H hlt' (by decide) d
  have hopened := enterBody_accounts (k := .functionScope) H hlt' (by decide) d members
    fun _ _ => ⟨hdecl.byId?_eq hc, hclass'⟩
  have hrun := walkAll_run members (h.inv H) h.lt
  have hinside := walkAll_accounts members (h.inv H) h.lt
    (iff_of_false (by rw [h.kind]; decide) Bool.false_ne_true)
  have hwhole : b.defineOutOfLine d members =
      (walkAll (b₁.enterBody c .functionScope d).1 (b₁.enterBody c .functionScope d).2
        members).addUses (b₁.enterBody c .functionScope d).1 d.uses := by
    rw [defineOutOfLine, hc, hb₁]
    simp [hclass]
  rw [hwhole]
  exact hquiet.trans (h.accounts H (by decide) hopened hrun hinside)

/-- Any other function is counted. -/
theorem defineOutOfLine_skip (howner : b.model.idKind? d.owner ≠ some .classScope)
    (members : List Decl) : b.defineOutOfLine d members = b.skip := by
  unfold defineOutOfLine
  split
  · rfl
  · next c hc =>
    rw [if_pos]
    have hkind : (b.model.scope c).kind ≠ .classScope := by simpa [Model.idKind?, hc] using howner
    simp [Scope.isClass, hkind]

/-- The functions that have been set aside are placed or counted, with the ledger of what they hold. -/
theorem defineAll_accounts (H : b.model.Inv) (hids : ∀ id, b.model.idKind? id = l.ids.lookup id)
    (nodes : List (DeclInfo × List Decl)) :
    ∃ l', nodes.foldl Ledger.attach l = l ++ l' ∧
      Accounts b l' (nodes.foldl (fun b (d, members) => b.defineOutOfLine d members) b) := by
  induction nodes generalizing b l with
  | nil => exact ⟨{}, (Ledger.append_empty l).symm, accounts_refl⟩
  | cons node nodes ih =>
    have hrun : Run b (b.defineOutOfLine node.1 node.2) := defineOutOfLine_run H _
    obtain ⟨l₁, hl₁, haccounts₁⟩ : ∃ l₁, l.attach node = l ++ l₁ ∧
        Accounts b l₁ (b.defineOutOfLine node.1 node.2) := by
      refine ⟨_, rfl, ?_⟩
      split
      · next hclass => exact defineOutOfLine_accounts H ((hids _).trans hclass) node.2
      · next hclass =>
        rw [defineOutOfLine_skip (fun h => hclass ((hids _).symm.trans h))]
        exact accounts_skip rfl rfl rfl rfl rfl
    have hids₁ (id : String) : (b.defineOutOfLine node.1 node.2).model.idKind? id =
        (l ++ l₁).ids.lookup id := by
      rw [haccounts₁.idKind, hids, Ledger.append_ids, List.lookup_append]
    obtain ⟨l₂, hl₂, haccounts₂⟩ := ih (hrun.inv H) hids₁
    refine ⟨l₁ ++ l₂, ?_, haccounts₁.trans haccounts₂⟩
    rw [List.foldl_cons, hl₁, hl₂, Ledger.append_assoc]

end Draft

/-- The walk and the placing of the functions that it sets aside, each with its ledger. -/
theorem CompilationUnit.exists_accounts (u : CompilationUnit) :
    ∃ l b, b.model = u.model ∧
      u.ledger = { Decl.ledgerAll true u.topLevel with deferred := [] } ++ l ∧
      Draft.Accounts (Draft.start u.file) (Decl.ledgerAll true u.topLevel ++ l) b := by
  have H := Draft.start_inv u.file
  have hrun := Draft.walkAll_run u.topLevel H H.size_pos
  have hwalk := Draft.walkAll_accounts u.topLevel H H.size_pos (iff_of_true H.root_kind rfl)
  have hids (id : String) : (Draft.walkAll 0 (Draft.start u.file) u.topLevel).model.idKind? id =
      (Decl.ledgerAll true u.topLevel).ids.lookup id := by
    have hstart : (Draft.start u.file).model.idKind? id = none := by
      simp [Model.idKind?, Model.byId?, Draft.start]
    rw [hwalk.idKind, hstart, Option.none_or]
  obtain ⟨l, hl, hrest⟩ := Draft.defineAll_accounts
    (l := { Decl.ledgerAll true u.topLevel with deferred := [] }) (Draft.Run.inv hrun H) hids
    (Decl.ledgerAll true u.topLevel).deferred
  refine ⟨l, _, ?_, hl, hwalk.trans hrest⟩
  have hdeferred : (Draft.walkAll 0 (Draft.start u.file) u.topLevel).deferred =
      (Decl.ledgerAll true u.topLevel).deferred := hwalk.deferred
  rw [← hdeferred]
  rfl

/-- **The model accounts for the uses and functions of a unit as its ledger says.** The uses of the model are the
recorded ones. Its function scopes, in their order, are the bodies of the functions that the ledger says are placed,
one scope for each, and those that name an owner lie in the class with that id. The number of skipped entries counts
skipped uses, skipped nodes and skipped bases. Every use of the unit, and every function that is defined outside its
class, is accounted for in one of these ways or listed as unaccounted for; so nothing is lost exactly if that list is
empty. -/
theorem CompilationUnit.model_accounts (u : CompilationUnit) :
    List.Forall₂ (fun x use => ∃ s, x = Use.placed use u.file s) u.model.uses u.ledger.recorded ∧
    List.Forall₂ (fun i n => u.model.IsBodyOf i n.1) u.model.functionScopes u.ledger.functions ∧
    u.model.skipped = u.ledger.count ∧
    (Decl.entriesIn u.topLevel).Perm (u.ledger.accounted ++ u.ledger.unaccounted) ∧
    ((Decl.entriesIn u.topLevel).Perm u.ledger.accounted ↔ u.ledger.unaccounted = []) := by
  obtain ⟨l, b, hb, hledger, haccounts⟩ := u.exists_accounts
  have hperm := u.ledger_total
  rw [← hb]
  refine ⟨?_, ?_, ?_, hperm, fun h => ?_, fun h => ?_⟩
  · obtain ⟨new, huses, hnew⟩ := haccounts.uses
    rw [huses, hledger]
    exact hnew
  · obtain ⟨new, hscopes, hnew⟩ := haccounts.bodies
    have hstart : (Draft.start u.file).model.functionScopes = [] := rfl
    rw [hscopes, hstart, hledger]
    exact hnew
  · rw [haccounts.skipped, hledger, Ledger.count_append, Ledger.count_append]
    exact Nat.zero_add _
  · have hlength := (h.symm.trans hperm).length_eq
    rw [List.length_append] at hlength
    exact List.length_eq_zero_iff.mp (by omega)
  · simpa [h] using hperm

/-- Class `C` and a function `f` of it that is defined outside it and holds another such function. -/
def nestedFunctions (inner : DeclInfo) : CompilationUnit where
  decls := some [.node { kind := "class", id := "C" } [],
    .node { kind := "function", name := "f", owner := "C" } [.node inner []]]

-- A function outside its class inside another one is neither placed nor counted, with uses of its own or without.
example : (nestedFunctions { kind := "function", name := "g", owner := "C" }).ledger.unaccounted =
    [.function ({ kind := "function", name := "g", owner := "C" }, [])] := by rfl

example : (nestedFunctions { kind := "function", name := "g" }).ledger.unaccounted = [] := by rfl

-- The uses of a namespace leave no trace either.
example : ({ decls := some [.node { kind := "namespace", uses := [some { name := "x" }] } []] } :
    CompilationUnit).ledger.unaccounted = [.use (some { name := "x" })] := by rfl

end TwoPhase
