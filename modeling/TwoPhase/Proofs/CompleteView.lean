import TwoPhase.Proofs.Judgement
import TwoPhase.Proofs.MirrorWalk

/-!
# Findings under a complete view

A view that sees all of a model decides every question that is asked of it: chains of scopes, the innermost
class, what a base denotes and which members can be reached are the same in the other model, up to the numbers
of the scopes. More may be declared in namespaces outside all classes only, where it changes nothing but the
resolution of a name that was not found.
-/

namespace TwoPhase

namespace Model

/-- Scope `i` and all scopes around it are namespaces. -/
structure Outer (m : Model) (i : ScopeId) : Prop where
  lt : i < m.scopes.size
  kind : ∀ {j}, m.Within i j → (m.scope j).kind = .namespaceScope

/-- The classes in which a search that starts in class `c` looks for a member. -/
def Searched (m : Model) (follow : Bool) (c d : ScopeId) : Prop :=
  if follow = true then Relation.ReflTransGen m.DerivesFrom c d else c = d

theorem Searched.isClass {m : Model} (h : m.Searched follow c d) (hc : (m.scope c).isClass = true) :
    (m.scope d).isClass = true := by
  cases follow with
  | true =>
    rcases Relation.ReflTransGen.cases_tail h with rfl | ⟨_, _, hstep⟩
    · exact hc
    · exact hstep.isClass
  | false => exact (show c = d from h) ▸ hc

theorem Outer.not_isClass {m : Model} (h : m.Outer i) (hij : m.Within i j) :
    (m.scope j).isClass = false := by
  rw [Scope.isClass, h.kind hij]
  rfl

end Model

/-- The view leaves nothing out; more is declared, or declared elsewhere in the source, only where no lookup
asks for it. -/
structure View.Complete (V : View) (m : Model) : Prop where
  root : V.map Model.root = Model.root
  sees : ∀ i n, V.sees i n
  knows : ∀ id, V.knows id
  noisy : ∀ {i n}, V.noisy i n → m.Outer i
  located : ∀ {i}, ¬ V.located i → m.Outer i ∨ (m.scope i).isClass = true

namespace Draft

variable {V : View} {o o' b b' : Draft}

/-- What lies around a scope stays around it. -/
theorem Run.within_iff (h : Run b b') (H : b.model.Inv) (hi : i < b.next) :
    b'.model.Within i j ↔ b.model.Within i j := by
  induction i using H.parent_induction with
  | step i ih =>
    have hplace := h.samePlace hi
    constructor
    · intro hij
      rcases hij.eq_or_parent with rfl | ⟨p, hp, hpj⟩
      · exact .refl
      · rw [hplace.parent] at hp
        exact .head hp ((ih p hp (Nat.lt_trans (H.parent_lt hp) hi)).mp hpj)
    · intro hij
      rcases hij.eq_or_parent with rfl | ⟨p, hp, hpj⟩
      · exact .refl
      · have hpj' := (ih p hp (Nat.lt_trans (H.parent_lt hp) hi)).mpr hpj
        exact .head (hplace.parent.trans hp) hpj'

theorem Run.outer (h : Run b b') (H : b.model.Inv) (hi : b.model.Outer i) : b'.model.Outer i where
  lt := Nat.lt_of_lt_of_le hi.lt h.next_le
  kind := fun {j} hij => by
    have hij := (h.within_iff H hi.lt).mp hij
    have hj : j < b.next := Nat.lt_of_le_of_lt (H.within_le hij) hi.lt
    rw [(h.samePlace hj).kind, hi.kind hij]

theorem Run.complete (h : Run b b') (H : b.model.Inv) (C : V.Complete b.model) :
    V.Complete b'.model where
  root := C.root
  sees := C.sees
  knows := C.knows
  noisy := fun hn => h.outer H (C.noisy hn)
  located := fun {i} hi => by
    rcases C.located hi with houter | hclass
    · exact .inl (h.outer H houter)
    · right
      rwa [Scope.isClass, (h.samePlace (Model.lt_size_of_isClass hclass)).kind]

end Draft

theorem View.Complete.not_extra {V : View} {m : Model} (C : V.Complete m) (hi : m.Within i j)
    (hj : (m.scope j).isClass = true) (d : Declaration) : ¬ V.Extra i name d := by
  intro hd
  have hnot := (C.noisy hd.noisy).not_isClass hi
  rw [hj] at hnot
  contradiction

/-! ### Functions defined outside their classes -/

theorem Model.SeenIn.byId?_eq {V : View} {m m' : Model} (h : m.SeenIn V m') {id : String}
    (hid : V.knows id) : m'.byId? id = (m.byId? id).map V.map := by
  unfold Model.byId?
  split
  · rfl
  · exact h.lookup hid

namespace Draft

variable {V : View} {o o' b b' : Draft}

theorem SeenIn.defineOutOfLine (h : SeenIn V o o' b b') (H : b.model.Inv)
    (C : V.Complete b.model) (d : DeclInfo) (members : List Decl) :
    SeenIn V o o' (b.defineOutOfLine d members) (b'.defineOutOfLine d members) := by
  unfold Draft.defineOutOfLine
  rw [h.byId?_eq (C.knows _)]
  cases b.model.byId? d.owner with
  | none => exact h.skip
  | some c =>
    dsimp only [Option.map_some]
    rw [(h.scope (C.sees c "")).isClass]
    cases hclass : (b.model.scope c).isClass with
    | false => exact h.skip
    | true =>
      have hc : c < b.next := Model.lt_size_of_isClass hclass
      have hempty : (b'.model.declared (V.map c) d.name).isEmpty =
          (b.model.declared c d.name).isEmpty := by
        have hsame := (h.declared (C.sees c d.name)).forall₂ (C.not_extra .refl hclass)
        rw [Bool.eq_iff_iff, List.isEmpty_iff_length_eq_zero, List.isEmpty_iff_length_eq_zero,
          hsame.length_eq]
      obtain ⟨b₁, hb₁, hrun⟩ : ∃ b₁, b₁ = (if (b.model.declared c d.name).isEmpty then
          b.declare c d.name .functionName d.loc d.static else b) ∧ Run b b₁ := by
        refine ⟨_, rfl, ?_⟩
        split
        · exact declare_run hc rfl
        · exact .refl
      have h₁ : SeenIn V o o' b₁ (if (b.model.declared c d.name).isEmpty then
          b'.declare (V.map c) d.name .functionName d.loc d.static else b') := by
        rw [hb₁]
        split
        · exact h.declare hc (fun _ => rfl) (fun _ => rfl)
        · exact h
      have H₁ := hrun.inv H
      have hc₁ := Nat.lt_of_lt_of_le hc hrun.next_le
      have he := enterBody_entered (k := .functionScope) H₁ hc₁ (by decide) d
      have hr := h₁.enterBody hc₁ .functionScope d
      have hall := SeenIn.walkAll members hr.seen (he.inv H₁) he.lt (C.sees _)
      have hlast := hall.addUses (hr.sees "") d.uses
      rw [← hr.place] at hlast
      simp only [Bool.not_true, Bool.false_eq_true, if_false, hempty, ← hb₁]
      exact hlast

theorem SeenIn.defineAll (h : SeenIn V o o' b b') (H : b.model.Inv) (C : V.Complete b.model)
    (nodes : List (DeclInfo × List Decl)) :
    SeenIn V o o' (nodes.foldl (fun b (d, members) => b.defineOutOfLine d members) b)
      (nodes.foldl (fun b (d, members) => b.defineOutOfLine d members) b') := by
  induction nodes generalizing b b' with
  | nil => exact h
  | cons node nodes ih =>
    have hrun : Run b (b.defineOutOfLine node.1 node.2) := defineOutOfLine_run H _
    exact ih (h.defineOutOfLine H C node.1 node.2) (hrun.inv H) (hrun.complete H C)

end Draft

/-! ### Lookup -/

/-- Two models that are built, one seen in the other by a complete view. -/
structure Model.Mirrored (V : View) (m m' : Model) : Prop extends m.SeenIn V m' where
  complete : V.Complete m
  inv : m.Inv
  inv' : m'.Inv

/-- Two units whose declarations are walked with the same outcome under a complete view have models of which
one is seen in the other. -/
theorem CompilationUnit.mirrored {V : View} {o o' : Draft} {u u' : CompilationUnit}
    (h : Draft.SeenIn V o o' (Draft.walkAll Model.root (Draft.start u.file) u.topLevel)
      (Draft.walkAll Model.root (Draft.start u'.file) u'.topLevel))
    (C : V.Complete (Draft.walkAll Model.root (Draft.start u.file) u.topLevel).model)
    (hdeferred : o'.deferred = o.deferred) :
    u.model.Mirrored V u'.model ∧
      (∃ new, u.model.uses = o.model.uses ++ new ∧
        u'.model.uses = o'.model.uses ++ new.map (·.moved V.map)) ∧
      u.model.skipped + o'.model.skipped = u'.model.skipped + o.model.skipped := by
  have H₀ := Draft.start_inv u.file
  have H := (Draft.walkAll_run u.topLevel H₀ H₀.size_pos).inv H₀
  obtain ⟨nodes, hnodes, hnodes'⟩ := h.deferred
  rw [hdeferred, ← hnodes] at hnodes'
  have hseen := h.defineAll H C (Draft.walkAll Model.root (Draft.start u.file) u.topLevel).deferred
  have hmodel' : u'.model = (List.foldl (fun b (d, members) => b.defineOutOfLine d members)
      (Draft.walkAll Model.root (Draft.start u'.file) u'.topLevel)
      (Draft.walkAll Model.root (Draft.start u.file) u.topLevel).deferred).model := by
    rw [← hnodes']
    rfl
  rw [hmodel']
  exact ⟨⟨hseen.toSeenIn, (Draft.defineAll_run H _).complete H C, u.model_inv, hmodel' ▸ u'.model_inv⟩,
    hseen.uses, hseen.skipped⟩

namespace Model.Mirrored

variable {V : View} {m m' : Model}

theorem sameScope (M : m.Mirrored V m') (i : ScopeId) :
    (m.scope i).SameIn V.map (m'.scope (V.map i)) :=
  M.scope (M.complete.sees i "")

theorem sameDeclared (M : m.Mirrored V m') (i : ScopeId) (name : String) :
    Interspersed (Declaration.SameIn V i) (V.Extra i name) (m.declared i name)
      (m'.declared (V.map i) name) :=
  M.declared (M.complete.sees i name)

theorem chain_map (M : m.Mirrored V m') (i : ScopeId) :
    m'.chain (V.map i) = (m.chain i).map V.map := by
  induction i using M.inv.parent_induction with
  | step i ih =>
    rw [M.inv'.chain_eq, M.inv.chain_eq, (M.sameScope i).parent, List.map_cons]
    cases hp : (m.scope i).parent with
    | none => rfl
    | some p => exact congrArg _ (ih p hp)

theorem enclosingClass?_map (M : m.Mirrored V m') (i : ScopeId) :
    m'.enclosingClass? (V.map i) = (m.enclosingClass? i).map V.map := by
  rw [enclosingClass?, enclosingClass?, M.chain_map, List.find?_map]
  have hclass : (fun s => (m'.scope s).isClass) ∘ V.map = fun s => (m.scope s).isClass :=
    funext fun s => (M.sameScope s).isClass
  rw [hclass]

theorem scopeNamed?_map (M : m.Mirrored V m') (i : ScopeId) (name : String) :
    m'.scopeNamed? (V.map i) name = (m.scopeNamed? i name).map V.map := by
  refine (M.sameDeclared i name).findSome?_eq (fun d _ d' hd => ?_) (fun d' hd' => ?_)
  · rw [hd.kind]
    split
    · next hkind =>
      refine hd.defines ?_
      simp only [Bool.or_eq_true, beq_iff_eq] at hkind
      rcases hkind with hkind | hkind
      · rw [hkind]; exact Option.some_ne_none _
      · rw [hkind]; exact Option.some_ne_none _
    · rfl
  · have hopens := hd'.opens
    cases hkind : d'.kind with
    | className | namespaceName => rw [hkind] at hopens; contradiction
    | functionName | variableName | typeName | templateParam => rfl

theorem classById?_map (M : m.Mirrored V m') (id : String) :
    m'.classById? id = (m.classById? id).map V.map := by
  unfold classById?
  rw [M.byId?_eq (M.complete.knows id)]
  cases m.byId? id with
  | none => rfl
  | some c =>
    rw [Option.map_some, Option.filter_some, Option.filter_some, (M.sameScope c).isClass]
    split <;> rfl

theorem foldlM_scopeNamed?_map (M : m.Mirrored V m') (i : ScopeId) (names : List String) :
    names.foldlM m'.scopeNamed? (V.map i) = (names.foldlM m.scopeNamed? i).map V.map := by
  induction names generalizing i with
  | nil => rfl
  | cons name names ih =>
    rw [List.foldlM_cons, List.foldlM_cons, M.scopeNamed?_map]
    cases m.scopeNamed? i name with
    | none => rfl
    | some j => exact ih j

theorem findSome?_scopeNamed?_map (M : m.Mirrored V m') (scopes : List ScopeId) (name : String) :
    ((scopes.map V.map).findSome? fun s => m'.scopeNamed? s name) =
      (scopes.findSome? fun s => m.scopeNamed? s name).map V.map := by
  induction scopes with
  | nil => rfl
  | cons i scopes ih =>
    rw [List.map_cons, List.findSome?_cons, List.findSome?_cons, M.scopeNamed?_map]
    cases m.scopeNamed? i name with
    | none => exact ih
    | some j => rfl

theorem classNamed?_map (M : m.Mirrored V m') (name : String) (source : ScopeId) :
    m'.classNamed? name (V.map source) = (m.classNamed? name source).map V.map := by
  unfold classNamed?
  dsimp only
  split
  · rfl
  · next first rest _ =>
    rw [Scope.hasTemplateParam, Scope.hasTemplateParam, (M.sameScope source).templateParams]
    split
    · rfl
    · have hscopes : (if "::".isPrefixOf (Text.trim name) then [root]
          else (m'.chain (V.map source)).tail) =
          (if "::".isPrefixOf (Text.trim name) then [root] else (m.chain source).tail).map V.map := by
        split
        · rw [List.map_singleton, M.complete.root]
        · rw [M.chain_map, List.map_tail]
      rw [hscopes, M.findSome?_scopeNamed?_map]
      cases List.findSome? (fun s => m.scopeNamed? s first) _ with
      | none => rfl
      | some start =>
        simp only [Option.map_some, Option.bind_eq_bind, Option.bind_some, M.foldlM_scopeNamed?_map]
        cases rest.foldlM m.scopeNamed? start with
        | none => rfl
        | some target =>
          simp only [Option.map_some, Option.bind_some, (M.sameScope target).isClass]
          split <;> rfl

theorem resolveBase?_map (M : m.Mirrored V m') (t : TypeRef) (source : ScopeId) :
    m'.resolveBase? t (V.map source) = (m.resolveBase? t source).map V.map := by
  cases t with
  | missing => rfl
  | node info args =>
    simp only [resolveBase?, M.classById?_map, M.classNamed?_map, Option.orElse_eq_orElse,
      Option.orElse_eq_or, Option.map_or]

/-! ### Members of base classes -/

theorem declaresMember_map (M : m.Mirrored V m') (hc : (m.scope c).isClass = true)
    (name : String) : m'.declaresMember (V.map c) name = m.declaresMember c name := by
  refine (M.sameDeclared c name).any_eq (fun d d' hd => ?_) (fun d' hd' => ?_)
  · rw [hd.kind, hd.injected]
  · exact absurd hd' (M.complete.not_extra .refl hc d')

theorem ownsMember_map_iff (M : m.Mirrored V m') (hc : (m.scope c).isClass = true) :
    m'.OwnsMember (V.map c) name ↔ m.OwnsMember c name := by
  rw [← M.inv'.declaresMember_iff, ← M.inv.declaresMember_iff, M.declaresMember_map hc]

theorem derivesFrom_map_iff (M : m.Mirrored V m') :
    m'.DerivesFrom (V.map c) e ↔ ∃ d, e = V.map d ∧ m.DerivesFrom c d := by
  unfold DerivesFrom
  rw [(M.sameScope c).bases]
  constructor
  · rintro ⟨b, hb, he⟩
    rw [M.resolveBase?_map, Option.map_eq_some_iff] at he
    obtain ⟨d, hd, rfl⟩ := he
    exact ⟨d, rfl, b, hb, hd⟩
  · rintro ⟨d, rfl, b, hb, hd⟩
    exact ⟨b, hb, by rw [M.resolveBase?_map, hd, Option.map_some]⟩

theorem derivation_map_iff (M : m.Mirrored V m') :
    Relation.ReflTransGen m'.DerivesFrom (V.map c) e ↔
      ∃ d, e = V.map d ∧ Relation.ReflTransGen m.DerivesFrom c d := by
  constructor
  · intro h
    induction h with
    | refl => exact ⟨c, rfl, .refl⟩
    | tail _ hstep ih =>
      obtain ⟨d, rfl, hpath⟩ := ih
      obtain ⟨d', rfl, hderives⟩ := M.derivesFrom_map_iff.mp hstep
      exact ⟨d', rfl, hpath.tail hderives⟩
  · rintro ⟨d, rfl, h⟩
    induction h with
    | refl => exact .refl
    | tail _ hstep ih => exact ih.tail (M.derivesFrom_map_iff.mpr ⟨_, rfl, hstep⟩)

theorem searched_map_iff (M : m.Mirrored V m') :
    m'.Searched follow (V.map c) e ↔ ∃ d, e = V.map d ∧ m.Searched follow c d := by
  cases follow with
  | true => exact M.derivation_map_iff
  | false =>
    constructor
    · rintro rfl
      exact ⟨c, rfl, rfl⟩
    · rintro ⟨_, rfl, rfl⟩
      rfl

theorem inherits_map_iff (M : m.Mirrored V m') {t : TypeRef} :
    m'.Inherits follow name t (V.map source) ↔ m.Inherits follow name t source := by
  constructor
  · rintro ⟨_, hmap, e, he, h⟩
    rw [M.resolveBase?_map] at hmap
    obtain ⟨c, hc, rfl⟩ := Option.map_eq_some_iff.mp hmap
    obtain ⟨d, rfl, hd⟩ := M.searched_map_iff.mp h
    exact ⟨c, hc, d, (M.ownsMember_map_iff (Searched.isClass hd (isClass_of_resolveBase? hc))).mp he, hd⟩
  · rintro ⟨c, hc, d, hd, h⟩
    refine ⟨V.map c, ?_, V.map d, ?_, M.searched_map_iff.mpr ⟨d, rfl, h⟩⟩
    · rw [M.resolveBase?_map, hc, Option.map_some]
    · exact (M.ownsMember_map_iff (Searched.isClass h (isClass_of_resolveBase? hc))).mpr hd

theorem reachable_map (M : m.Mirrored V m') (follow : Bool) (name : String) (t : TypeRef)
    (source : ScopeId) :
    m'.reachable follow name t (V.map source) = m.reachable follow name t source := by
  rw [Bool.eq_iff_iff, reachable_iff M.inv'.toTreeInv, reachable_iff M.inv.toTreeInv]
  exact M.inherits_map_iff

end Model.Mirrored

end TwoPhase
