import TwoPhase.Proofs.BuildRun
import Mathlib.Data.List.Forall2
import Mathlib.Logic.Function.Basic

/-!
# Two drafts side by side

When a unit is changed a little, its model is built from other scope numbers, in another order or with
some declarations more, and yet the rest of the build goes the same way. A `View` says how the scopes of one
model are found in another one and what may differ; `Draft.SeenIn` relates two drafts under a view. Every
operation of the builder, done on both sides, keeps the relation, and so does the walk over a node.
-/

namespace TwoPhase

/-- The second list holds what the first one holds, in order and up to `R`, and between these entries some that
satisfy `P`. -/
inductive Interspersed (R : α → β → Prop) (P : β → Prop) : List α → List β → Prop
  | nil : Interspersed R P [] []
  | cons : R a b → Interspersed R P l l' → Interspersed R P (a :: l) (b :: l')
  | extra : P b → Interspersed R P l l' → Interspersed R P l (b :: l')

namespace Interspersed

variable {R : α → β → Prop} {P : β → Prop}

theorem append (h : Interspersed R P l l') (hk : Interspersed R P k k') :
    Interspersed R P (l ++ k) (l' ++ k') := by
  induction h with
  | nil => exact hk
  | cons hab _ ih => exact .cons hab ih
  | extra hb _ ih => exact .extra hb ih

theorem append_singleton (h : Interspersed R P l l') (hab : R a b) :
    Interspersed R P (l ++ [a]) (l' ++ [b]) :=
  h.append (.cons hab .nil)

theorem append_extra (h : Interspersed R P l l') (hk : ∀ b ∈ k, P b) : Interspersed R P l (l' ++ k) := by
  induction h with
  | nil =>
    induction k with
    | nil => exact .nil
    | cons b k ih => exact .extra (hk b (.head _)) (ih fun c hc => hk c (.tail _ hc))
  | cons hab _ ih => exact .cons hab ih
  | extra hb _ ih => exact .extra hb ih

theorem refl {R : α → α → Prop} {P : α → Prop} {l : List α} (h : ∀ a ∈ l, R a a) :
    Interspersed R P l l := by
  induction l with
  | nil => exact .nil
  | cons a l ih => exact .cons (h a (.head _)) (ih fun b hb => h b (.tail _ hb))

theorem imp {R' : α → β → Prop} {P' : β → Prop} (hR : ∀ {a b}, R a b → R' a b)
    (hP : ∀ {b}, P b → P' b) (h : Interspersed R P l l') : Interspersed R' P' l l' := by
  induction h with
  | nil => exact .nil
  | cons hab _ ih => exact .cons (hR hab) ih
  | extra hb _ ih => exact .extra (hP hb) ih

theorem of_forall₂ (h : List.Forall₂ R l l') : Interspersed R P l l' := by
  induction h with
  | nil => exact .nil
  | cons hab _ ih => exact .cons hab ih

theorem forall₂ (hP : ∀ b, ¬ P b) (h : Interspersed R P l l') : List.Forall₂ R l l' := by
  induction h with
  | nil => exact .nil
  | cons hab _ ih => exact .cons hab ih
  | extra hb => exact absurd hb (hP _)

theorem ne_nil (h : Interspersed R P l l') (hl : l ≠ []) : l' ≠ [] := by
  cases h with
  | nil => exact absurd rfl hl
  | cons | extra => exact List.cons_ne_nil _ _

/-- A search that passes the extra entries by finds the same in both lists. -/
theorem findSome?_eq {f : α → Option γ} {g : β → Option δ} {t : γ → δ} (h : Interspersed R P l l')
    (hfg : ∀ a ∈ l, ∀ b, R a b → g b = (f a).map t) (hg : ∀ b, P b → g b = none) :
    l'.findSome? g = (l.findSome? f).map t := by
  induction h with
  | nil => rfl
  | @cons a b l l' hab _ ih =>
    rw [List.findSome?_cons, List.findSome?_cons, hfg a (.head _) b hab]
    cases f a with
    | some c => rfl
    | none => exact ih fun a ha => hfg a (.tail _ ha)
  | extra hb _ ih =>
    rw [List.findSome?_cons, hg _ hb]
    exact ih hfg

theorem any_eq {f : α → Bool} {g : β → Bool} (h : Interspersed R P l l')
    (hfg : ∀ a b, R a b → g b = f a) (hg : ∀ b, P b → g b = false) : l'.any g = l.any f := by
  induction h with
  | nil => rfl
  | cons hab _ ih => rw [List.any_cons, List.any_cons, hfg _ _ hab, ih]
  | extra hb _ ih => rw [List.any_cons, hg _ hb, ih, Bool.false_or]

end Interspersed

/-- A use as it is written where the scopes have other numbers. -/
def NameUse.moved (u : NameUse) (f : ScopeId → ScopeId) : NameUse :=
  { u with scope := f u.scope }

/-- How one model is found in another. -/
structure View where
  /-- The scope of the second model that stands for a scope of the first. -/
  map : ScopeId → ScopeId
  injective : Function.Injective map
  /-- The names whose declarations in a scope are in view. -/
  sees : ScopeId → String → Prop := fun _ _ => True
  /-- The ids that are in view. -/
  knows : String → Prop := fun _ => True
  /-- Where the second model may declare more. -/
  noisy : ScopeId → String → Prop := fun _ _ => False
  /-- The scopes whose declarations stand at the same places of the source. -/
  located : ScopeId → Prop := fun _ => True

/-- The view with all ids in it. -/
def View.knowingAll (V : View) : View :=
  { V with knows := fun _ => True }

/-- What may be declared in addition: neither a scope nor a template parameter. -/
structure View.Extra (V : View) (i : ScopeId) (name : String) (d : Declaration) : Prop where
  noisy : V.noisy i name
  opens : d.kind.opens? = none
  notParam : d.kind ≠ .templateParam

/-- A declaration of scope `i` and what stands for it. -/
structure Declaration.SameIn (V : View) (i : ScopeId) (d d' : Declaration) : Prop where
  kind : d'.kind = d.kind
  injected : d'.injected = d.injected
  defines : d.kind.opens? ≠ none → d'.defines = d.defines.map V.map
  loc : V.located i → d'.loc = d.loc

/-- A scope and what stands for it where the scopes are numbered by `f`. The declarations are compared name
by name, apart from this. -/
structure Scope.SameIn (f : ScopeId → ScopeId) (s s' : Scope) : Prop where
  kind : s'.kind = s.kind
  name : s'.name = s.name
  parent : s'.parent = s.parent.map f
  bases : s'.bases = s.bases
  isTemplate : s'.isTemplate = s.isTemplate
  templateParams : s'.templateParams = s.templateParams
  defined : s'.defined = s.defined

theorem Scope.SameIn.isClass {s s' : Scope} (h : s.SameIn f s') :
    s'.isClass = s.isClass := by
  rw [Scope.isClass, Scope.isClass, h.kind]

/-- Scopes of one place that may differ in what they declare and hold. -/
abbrev Scope.SameText (s t : Scope) : Prop :=
  s.SameIn (fun i => i) t

theorem Scope.SameText.rfl {s : Scope} : s.SameText s :=
  ⟨Eq.refl _, Eq.refl _, Option.map_id'.symm, Eq.refl _, Eq.refl _, Eq.refl _, Eq.refl _⟩

theorem Scope.SameText.trans {s t r : Scope} (h : s.SameText t) (h' : t.SameText r) :
    s.SameText r := by
  refine ⟨h'.kind.trans h.kind, h'.name.trans h.name, ?_, h'.bases.trans h.bases,
    h'.isTemplate.trans h.isTemplate, h'.templateParams.trans h.templateParams,
    h'.defined.trans h.defined⟩
  rw [h'.parent, h.parent, Option.map_id', Option.map_id']

/-- What `V` sees of the first model is there in the second one. -/
structure Model.SeenIn (V : View) (m m' : Model) : Prop where
  scope : ∀ {i n}, V.sees i n → (m.scope i).SameIn V.map (m'.scope (V.map i))
  declared : ∀ {i n}, V.sees i n →
    Interspersed (Declaration.SameIn V i) (V.Extra i n) (m.declared i n) (m'.declared (V.map i) n)
  lookup : ∀ {id}, V.knows id → m'.ids.lookup id = (m.ids.lookup id).map V.map

namespace Draft

/-- Since `o` and `o'`, both drafts have recorded the same uses, skipped as many entries and set the same
functions aside. -/
structure SameLog (V : View) (o o' b b' : Draft) : Prop where
  file : b'.model.file = b.model.file
  uses : ∃ new, b.model.uses = o.model.uses ++ new ∧
    b'.model.uses = o'.model.uses ++ new.map (·.moved V.map)
  skipped : b.model.skipped + o'.model.skipped = b'.model.skipped + o.model.skipped
  deferred : ∃ nodes, b.deferred = o.deferred ++ nodes ∧ b'.deferred = o'.deferred ++ nodes

/-- **What `V` sees of draft `b` is there in draft `b'`**, and what is built next comes into view on both
sides at places that correspond. -/
structure SeenIn (V : View) (o o' b b' : Draft) : Prop extends
    b.model.SeenIn V b'.model, SameLog V o o' b b' where
  lt : ∀ {i}, i < b.next → V.map i < b'.next
  ahead : ∀ j, V.map (b.next + j) = b'.next + j
  fresh : ∀ {i n}, b.next ≤ i → V.sees i n
  closed : ∀ {i c n}, (b.model.scope c).parent = some i → V.sees i (b.model.scope c).name → V.sees c n

/-- The change leaves the file, the uses and what is skipped or set aside as they are. -/
structure Quiet (b b₁ : Draft) : Prop where
  file : b₁.model.file = b.model.file
  uses : b₁.model.uses = b.model.uses
  skipped : b₁.model.skipped = b.model.skipped
  deferred : b₁.deferred = b.deferred

variable {V : View} {o o' b b' b₁ b₁' : Draft} {s p i : ScopeId} {d d' : DeclInfo}

theorem Quiet.trans (h : Quiet b b₁) (h' : Quiet b₁ b₂) : Quiet b b₂ :=
  ⟨h'.file.trans h.file, h'.uses.trans h.uses, h'.skipped.trans h.skipped,
    h'.deferred.trans h.deferred⟩

theorem modifyScope_quiet : Quiet b (b.modifyScope s f) :=
  ⟨rfl, rfl, rfl, rfl⟩

theorem declare_quiet : Quiet b (b.declare s name kind loc static injected defines) :=
  ⟨rfl, rfl, rfl, rfl⟩

theorem register_quiet {id : String} : Quiet b (b.register id s) :=
  ⟨register_file, register_uses, register_skipped, register_deferred⟩

theorem openScope_quiet : Quiet b (b.openScope p kind d) := by
  obtain ⟨b₁, hopen, hquiet⟩ : ∃ b₁ : Draft, b.openScope p kind d = b₁.register d.id b.next ∧
      Quiet b b₁ := ⟨_, rfl, rfl, rfl, rfl, rfl⟩
  exact hopen ▸ hquiet.trans register_quiet

theorem openClass_quiet : Quiet b (b.openClass p d) :=
  openScope_quiet.trans ⟨rfl, rfl, rfl, rfl⟩

theorem Edit.file_eq (h : Edit b b') : b'.model.file = b.model.file := by
  cases h with
  | skip | defer | declare | amend | use => rfl
  | register => exact register_file
  | openScope => exact openScope_quiet.file
  | openClass => exact openClass_quiet.file

theorem Run.file_eq (h : Run b b') : b'.model.file = b.model.file := by
  induction h with
  | refl => rfl
  | tail _ hedit ih => exact hedit.file_eq.trans ih

theorem SameLog.quiet (h : SameLog V o o' b b') (hb : Quiet b b₁) (hb' : Quiet b' b₁') :
    SameLog V o o' b₁ b₁' := by
  obtain ⟨hfile, huses, hskipped, hdeferred⟩ := h
  refine ⟨?_, ?_, ?_, ?_⟩
  · rw [hb'.file, hb.file, hfile]
  · rwa [hb.uses, hb'.uses]
  · rwa [hb.skipped, hb'.skipped]
  · rwa [hb.deferred, hb'.deferred]

namespace SeenIn

theorem map_inj (V : View) : V.map i = V.map s ↔ i = s :=
  V.injective.eq_iff

theorem map_next (h : SeenIn V o o' b b') : V.map b.next = b'.next :=
  h.ahead 0

theorem map_ne_next (h : SeenIn V o o' b b') (hi : i ≠ b.next) : V.map i ≠ b'.next := by
  rw [← h.map_next]
  exact fun heq => hi (V.injective heq)

/-- A change that opens no scope keeps the view if it keeps what is seen. -/
theorem of_places (h : SeenIn V o o' b b') (hb : Quiet b b₁) (hb' : Quiet b' b₁')
    (hnext : b₁.next = b.next) (hnext' : b₁'.next = b'.next)
    (hplace : ∀ i, (b₁.model.scope i).SamePlace (b.model.scope i))
    (hseen : b₁.model.SeenIn V b₁'.model) : SeenIn V o o' b₁ b₁' where
  toSeenIn := hseen
  toSameLog := h.toSameLog.quiet hb hb'
  lt := fun hi => hnext' ▸ h.lt (hnext ▸ hi)
  ahead := fun j => by rw [hnext, hnext', h.ahead]
  fresh := fun hi => h.fresh (hnext ▸ hi)
  closed := fun hparent hsees => by
    rw [(hplace _).parent] at hparent
    rw [(hplace _).name] at hsees
    exact h.closed hparent hsees

/-! ### The operations on both sides -/

theorem skip (h : SeenIn V o o' b b') : SeenIn V o o' b.skip b'.skip where
  toSeenIn := ⟨h.scope, h.declared, h.lookup⟩
  file := h.file
  uses := h.uses
  skipped := by
    have := h.skipped
    simp only [Draft.skip]
    omega
  deferred := h.deferred
  lt := h.lt
  ahead := h.ahead
  fresh := h.fresh
  closed := h.closed

theorem defer (h : SeenIn V o o' b b') (node : DeclInfo × List Decl) :
    SeenIn V o o' { b with deferred := b.deferred ++ [node] }
      { b' with deferred := b'.deferred ++ [node] } where
  toSeenIn := h.toSeenIn
  file := h.file
  uses := h.uses
  skipped := h.skipped
  deferred := by
    obtain ⟨nodes, hb, hb'⟩ := h.deferred
    exact ⟨nodes ++ [node], by simp [hb], by simp [hb']⟩
  lt := h.lt
  ahead := h.ahead
  fresh := h.fresh
  closed := h.closed

theorem modify {f g : Scope → Scope} (h : SeenIn V o o' b b') (hs : s < b.next)
    (hplace : ∀ sc, (f sc).SamePlace sc)
    (hfg : (b.model.scope s).SameIn V.map (b'.model.scope (V.map s)) →
      (f (b.model.scope s)).SameIn V.map (g (b'.model.scope (V.map s)))) :
    SeenIn V o o' (b.modifyScope s f) (b'.modifyScope (V.map s) g) := by
  refine h.of_places modifyScope_quiet modifyScope_quiet modifyScope_next modifyScope_next
    (fun i => ?_) ⟨fun {i n} hi => ?_, h.declared, h.lookup⟩
  · rw [modifyScope_scope hs]
    split
    · next his => exact his ▸ hplace _
    · exact ⟨rfl, rfl, rfl⟩
  · rw [modifyScope_scope hs, modifyScope_scope (h.lt hs)]
    simp only [map_inj]
    split
    · next his => subst his; exact hfg (h.scope hi)
    · exact h.scope hi

theorem declare {defines defines' : Option ScopeId} {loc loc' : Loc} (h : SeenIn V o o' b b')
    (hs : s < b.next) (hloc : V.located s → loc' = loc)
    (hdefines : kind.opens? ≠ none → defines' = defines.map V.map) :
    SeenIn V o o' (b.declare s name kind loc static injected defines)
      (b'.declare (V.map s) name kind loc' static' injected defines') := by
  refine h.of_places declare_quiet declare_quiet declare_next declare_next
    (fun i => (declare_frame hs i).samePlace)
    ⟨fun {i n} hi => ?_, fun {i n} hi => ?_, h.lookup⟩
  · obtain ⟨hkind, hname, hparent, hbases, htemplate, hparams, hdefined⟩ := h.scope hi
    rw [declare_scope hs, declare_scope (h.lt hs)]
    simp only [map_inj]
    split
    · next his => subst his; exact ⟨hkind, hname, hparent, hbases, htemplate, hparams, hdefined⟩
    · exact h.scope hi
  · have hold := h.declared hi
    simp only [Model.declared] at hold ⊢
    rw [declare_find, declare_find]
    simp only [map_inj]
    split
    · next his =>
      obtain ⟨rfl, rfl⟩ := his
      exact hold.append_singleton ⟨rfl, rfl, hdefines, hloc⟩
    · exact hold

theorem register {id : String} (h : SeenIn V o o' b b') :
    SeenIn V o o' (b.register id s) (b'.register id (V.map s)) := by
  refine h.of_places register_quiet register_quiet register_next register_next
    (fun i => by rw [register_scope]; exact ⟨rfl, rfl, rfl⟩)
    ⟨fun hi => ?_, fun {i n} hi => ?_, fun {id'} hid' => ?_⟩
  · rw [register_scope, register_scope]
    exact h.scope hi
  · simp only [Model.declared, register_index]
    exact h.declared hi
  · rw [lookup_register, lookup_register, h.lookup hid', Option.map_or]
    split <;> rfl

/-- A view that agrees on all ids comes to know them. -/
theorem learn (h : SeenIn V o o' b b')
    (hlookup : ∀ id, b'.model.ids.lookup id = (b.model.ids.lookup id).map V.map) :
    SeenIn V.knowingAll o o' b b' where
  scope := h.scope
  declared := fun hi => (h.declared hi).imp (fun ⟨hkind, hinjected, hdefines, hloc⟩ =>
    ⟨hkind, hinjected, hdefines, hloc⟩) fun ⟨hnoisy, hopens, hparam⟩ => ⟨hnoisy, hopens, hparam⟩
  lookup := fun _ => hlookup _
  file := h.file
  uses := h.uses
  skipped := h.skipped
  deferred := h.deferred
  lt := h.lt
  ahead := h.ahead
  fresh := h.fresh
  closed := h.closed

/-- The scopes that are opened on both sides stand for each other. -/
theorem openScope_seen (h : SeenIn V o o' b b') (hp : p < b.next) (hname : d'.name = d.name)
    (hid : ∀ id, V.knows id → (id = d'.id ∧ d'.id ≠ "" ↔ id = d.id ∧ d.id ≠ "")) :
    (b.openScope p kind d).model.SeenIn V (b'.openScope (V.map p) kind d').model := by
  refine ⟨fun {i n} hi => ?_, fun {i n} hi => ?_, fun {id} hk => ?_⟩
  · rw [openScope_scope hp, openScope_scope (h.lt hp)]
    by_cases hnew : i = b.next
    · subst hnew
      rw [h.map_next, if_pos rfl, if_pos rfl]
      exact ⟨rfl, hname, rfl, rfl, rfl, rfl, rfl⟩
    · rw [if_neg hnew, if_neg (h.map_ne_next hnew)]
      simp only [map_inj]
      split
      · next hip =>
        subst hip
        obtain ⟨hkind, hname, hparent, hbases, htemplate, hparams, hdefined⟩ := h.scope hi
        exact ⟨hkind, hname, hparent, hbases, htemplate, hparams, hdefined⟩
      · exact h.scope hi
  · simp only [Model.declared, openScope_index]
    exact h.declared hi
  · rw [openScope_ids, openScope_ids, lookup_register, lookup_register, h.lookup hk, Option.map_or]
    simp only [hid id hk, ← h.map_next]
    split <;> rfl

theorem openScope (h : SeenIn V o o' b b') (hp : p < b.next) (hname : d'.name = d.name)
    (hid : ∀ id, V.knows id → (id = d'.id ∧ d'.id ≠ "" ↔ id = d.id ∧ d.id ≠ "")) :
    SeenIn V o o' (b.openScope p kind d) (b'.openScope (V.map p) kind d') where
  toSeenIn := h.openScope_seen hp hname hid
  toSameLog := h.toSameLog.quiet openScope_quiet openScope_quiet
  lt := fun {i} hi => by
    rw [openScope_next] at hi ⊢
    rcases Nat.lt_succ_iff_lt_or_eq.mp hi with hi | rfl
    · exact Nat.lt_succ_of_lt (h.lt hi)
    · exact h.map_next ▸ Nat.lt_succ_self _
  ahead := fun j => by
    rw [openScope_next, openScope_next, Nat.add_assoc, h.ahead, Nat.add_assoc]
  fresh := fun hi => by
    rw [openScope_next] at hi
    exact h.fresh (Nat.le_of_succ_le hi)
  closed := fun {i c n} hparent hsees => by
    by_cases hc : c = b.next
    · exact h.fresh (Nat.le_of_eq hc.symm)
    · rw [openScope_parent hp, if_neg hc] at hparent
      rw [(openScope_of_ne hp hc).2.2.1] at hsees
      exact h.closed hparent hsees

theorem openClass (h : SeenIn V o o' b b') (hp : p < b.next) (hname : d'.name = d.name)
    (hid : ∀ id, V.knows id → (id = d'.id ∧ d'.id ≠ "" ↔ id = d.id ∧ d.id ≠ "")) :
    SeenIn V o o' (b.openClass p d) (b'.openClass (V.map p) d') := by
  have hopen : SeenIn V o o' (b.openScope p .classScope d) (b'.openScope (V.map p) .classScope d') :=
    h.openScope hp hname hid
  exact hopen.of_places ⟨rfl, rfl, rfl, rfl⟩ ⟨rfl, rfl, rfl, rfl⟩ rfl rfl (fun _ => ⟨rfl, rfl, rfl⟩)
    ⟨hopen.scope, hopen.declared, hopen.lookup⟩

/-- A fold keeps the view if every step does. -/
theorem foldl {f g : Draft → α → Draft}
    (hfg : ∀ b b' a, s < b.next → SeenIn V o o' b b' →
      s < (f b a).next ∧ SeenIn V o o' (f b a) (g b' a))
    (h : SeenIn V o o' b b') (hs : s < b.next) (l : List α) :
    SeenIn V o o' (l.foldl f b) (l.foldl g b') := by
  induction l generalizing b b' with
  | nil => exact h
  | cons a l ih =>
    obtain ⟨hs, h⟩ := hfg b b' a hs h
    exact ih h hs

/-! ### Where a view starts -/

theorem uses_moved_of_fixed (H : b.model.Inv) {f : ScopeId → ScopeId} (hf : ∀ i < b.next, f i = i) :
    b.model.uses.map (·.moved f) = b.model.uses := by
  refine (List.map_congr_left fun u hu => ?_).trans (List.map_id' _)
  rw [NameUse.moved, hf _ (Model.lt_size_of_kind_ne (H.use_kind hu))]

theorem sameIn_of_fixed (H : b.model.Inv) (hmap : ∀ i < b.next, V.map i = i)
    {e : Declaration} (he : e ∈ b.model.declared i n) : e.SameIn V i e := by
  refine ⟨rfl, rfl, fun hopens => ?_, fun _ => rfl⟩
  obtain ⟨k, hk⟩ := Option.ne_none_iff_exists'.mp hopens
  obtain ⟨c, hc, hparent, _⟩ := H.opens_declared he hk
  rw [hc, Option.map_some, hmap c (Model.lt_size_of_parent hparent)]

/-- A draft is seen in one that keeps what is in view and has its new scopes behind the old ones. -/
theorem of_fixed (H : b.model.Inv) (H' : b'.model.Inv) (hmap : ∀ i < b.next, V.map i = i)
    (hle : b.next ≤ b'.next) (hahead : ∀ j, V.map (b.next + j) = b'.next + j)
    (hfresh : ∀ {i n}, b.next ≤ i → V.sees i n)
    (hclosed : ∀ {i c n}, (b.model.scope c).parent = some i → V.sees i (b.model.scope c).name →
      V.sees c n)
    (hfile : b'.model.file = b.model.file)
    (hscope : ∀ {i n}, i < b.next → V.sees i n → (b.model.scope i).SameText (b'.model.scope i))
    (hdeclared : ∀ {i n}, i < b.next → V.sees i n → ∃ extra,
      b'.model.declared i n = b.model.declared i n ++ extra ∧ ∀ e ∈ extra, V.Extra i n e)
    (hlookup : ∀ {id}, V.knows id → b'.model.ids.lookup id = b.model.ids.lookup id) :
    SeenIn V b b' b b' := by
  have hbeyond {i} (hi : ¬ i < b.next) :
      b.model.scope i = {} ∧ b'.model.scope (V.map i) = {} := by
    obtain ⟨j, rfl⟩ := Nat.exists_eq_add_of_le (Nat.le_of_not_lt hi)
    refine ⟨Model.scope_of_size_le (Nat.le_add_right _ _), Model.scope_of_size_le ?_⟩
    rw [hahead]
    exact Nat.le_add_right _ _
  refine
    { scope := fun {i n} hsees => ?_, declared := fun {i n} hsees => ?_, lookup := fun {id} hid => ?_
      file := hfile, uses := ⟨[], by simp, by simp⟩, skipped := Nat.add_comm _ _
      deferred := ⟨[], by simp, by simp⟩, lt := fun {i} hi => ?_, ahead := hahead
      fresh := hfresh, closed := hclosed }
  · by_cases hi : i < b.next
    · obtain ⟨hkind, hname, hparent, hbases, htemplate, hparams, hdefined⟩ := hscope hi hsees
      rw [hmap i hi]
      refine ⟨hkind, hname, ?_, hbases, htemplate, hparams, hdefined⟩
      rw [hparent, Option.map_id']
      cases hp : (b.model.scope i).parent with
      | none => rfl
      | some p => rw [Option.map_some, hmap p (Nat.lt_trans (H.parent_lt hp) hi)]
    · obtain ⟨hblank, hblank'⟩ := hbeyond hi
      rw [hblank, hblank']
      exact ⟨rfl, rfl, rfl, rfl, rfl, rfl, rfl⟩
  · by_cases hi : i < b.next
    · obtain ⟨extra, heq, hextra⟩ := hdeclared hi hsees
      rw [hmap i hi, heq]
      exact Interspersed.append_extra (.refl fun e he => sameIn_of_fixed H hmap he) hextra
    · obtain ⟨hblank, hblank'⟩ := hbeyond hi
      rw [Model.declared, H.find_eq, hblank, Model.declared, H'.find_eq, hblank']
      exact .nil
  · rw [hlookup hid]
    cases hfound : b.model.ids.lookup id with
    | none => rfl
    | some j => rw [Option.map_some, hmap j (H.lookup_lt hfound)]
  · rw [hmap i hi]
    exact Nat.lt_of_lt_of_le hi hle

end SeenIn

end Draft

end TwoPhase
