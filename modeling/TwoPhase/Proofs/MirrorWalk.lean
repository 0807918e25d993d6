import TwoPhase.Proofs.Mirror

/-!
# The walk on two drafts

Walking over one and the same node on two drafts keeps what a view sees of the first in the second: each
step reads only what is in view, comes to corresponding scopes and opens corresponding ones.
-/

namespace TwoPhase

namespace Decl

mutual

/-- The nodes of a declaration, itself and those inside it at any depth. -/
def nodes : Decl → List DeclInfo
  | .missing => []
  | .node d members => d :: nodesIn members

def nodesIn : List Decl → List DeclInfo
  | [] => []
  | d :: ds => d.nodes ++ nodesIn ds

end

/-- The name of a declaration, unless the entry is missing. -/
def name? : Decl → Option String
  | .missing => none
  | .node d _ => some d.name

end Decl

/-- A find that passes the extra entries by finds corresponding entries. -/
theorem Interspersed.find?_bind_eq {R : α → β → Prop} {P : β → Prop} {p : α → Bool} {q : β → Bool}
    {f : α → Option γ} {g : β → Option δ} {t : γ → δ} (h : Interspersed R P l l')
    (hpq : ∀ a b, R a b → q b = p a) (hfg : ∀ a b, R a b → p a = true → g b = (f a).map t)
    (hq : ∀ b, P b → q b = false) :
    (l'.find? q).bind g = ((l.find? p).bind f).map t := by
  induction h with
  | nil => rfl
  | @cons a b l l' hab _ ih =>
    rw [List.find?_cons, List.find?_cons, hpq a b hab]
    cases hp : p a with
    | true => exact hfg a b hab hp
    | false => exact ih
  | extra hb _ ih =>
    rw [List.find?_cons, hq _ hb]
    exact ih

namespace Draft

variable {V : View} {o o' b b' : Draft} {s p : ScopeId} {d d' : DeclInfo}

theorem namespace?_place (H : b.model.Inv) (h : b.namespace? p name = some s) :
    (b.model.scope s).parent = some p ∧ (b.model.scope s).name = name := by
  unfold namespace? at h
  split at h
  · contradiction
  · obtain ⟨decl, hfind, hdef⟩ := Option.bind_eq_some_iff.mp h
    have hkind : decl.kind = .namespaceName := by simpa using List.find?_some hfind
    obtain ⟨c, hc, hparent, hname, _⟩ :=
      H.opens_declared (List.mem_of_find?_eq_some hfind) (by rw [hkind]; rfl)
    cases hc.symm.trans hdef
    exact ⟨hparent, hname⟩

theorem class?_place (H : b.model.Inv) (h : b.class? p name defines = some s) :
    (b.model.scope s).parent = some p ∧ (b.model.scope s).name = name := by
  unfold class? at h
  split at h
  · contradiction
  · obtain ⟨decl, hmem, hdecl⟩ := List.exists_of_findSome?_eq_some h
    split at hdecl
    · next hkind =>
      have hkind : decl.kind = .className := by simpa using hkind
      obtain ⟨c, hc, hparent, hname, _⟩ := H.opens_declared hmem (by rw [hkind]; rfl)
      cases hc.symm.trans (Option.filter_eq_some_iff.mp hdecl).1
      exact ⟨hparent, hname⟩
    · contradiction

/-- A new class with a name, declared in its parent and in itself. -/
def newClass (b : Draft) (p : ScopeId) (d : DeclInfo) : Draft :=
  ((b.openClass p d).declare p d.name .className d.loc false false (some b.next)).declare b.next d.name
    .typeName d.loc false true

namespace SeenIn

/-! ### Finding a scope that is open already -/

theorem namespace?_eq (h : SeenIn V o o' b b') (hsees : V.sees p name) :
    b'.namespace? (V.map p) name = (b.namespace? p name).map V.map := by
  unfold Draft.namespace?
  split
  · rfl
  · refine (h.declared hsees).find?_bind_eq (fun d d' hd => ?_) (fun d d' hd hkind => ?_)
      (fun d' hd' => ?_)
    · rw [hd.kind]
    · have hkind : d.kind = .namespaceName := by simpa using hkind
      exact hd.defines (by rw [hkind]; exact Option.some_ne_none _)
    · rw [beq_eq_false_iff_ne]
      intro hkind
      have hopens := hd'.opens
      rw [hkind] at hopens
      contradiction

theorem class?_eq (h : SeenIn V o o' b b') (H : b.model.Inv) (hsees : V.sees p name) :
    b'.class? (V.map p) name defines = (b.class? p name defines).map V.map := by
  unfold Draft.class?
  split
  · rfl
  · refine (h.declared hsees).findSome?_eq (fun d hmem d' hd => ?_) (fun d' hd' => ?_)
    · rw [hd.kind]
      split
      · next hkind =>
        -- the class that is declared is in view, so both sides agree on whether it is defined
        have hkind : d.kind = .className := by simpa using hkind
        obtain ⟨c, hc, hparent, hname, _⟩ := H.opens_declared hmem (by rw [hkind]; rfl)
        have hdefined := (h.scope (h.closed (n := name) hparent (hname ▸ hsees))).defined
        rw [hd.defines (by rw [hkind]; exact Option.some_ne_none _), hc, Option.map_some,
          Option.filter_some, Option.filter_some, hdefined]
        split <;> rfl
      · rfl
    · rw [if_neg]
      intro hkind
      have hopens := hd'.opens
      rw [show d'.kind = .className by simpa using hkind] at hopens
      contradiction

theorem declaresParam_eq (h : SeenIn V o o' b b') (hsees : V.sees s name) :
    b'.declaresParam (V.map s) name = b.declaresParam s name := by
  refine (h.declared hsees).any_eq (fun d d' hd => ?_) (fun d' hd' => ?_)
  · rw [hd.kind]
  · rw [beq_eq_false_iff_ne]
    exact hd'.notParam

/-! ### Entering a scope on both sides -/

/-- Both sides have come to scopes that stand for each other and are in view with all their names. -/
structure Entered (V : View) (o o' : Draft) (r r' : ScopeId × Draft) : Prop where
  place : r'.1 = V.map r.1
  sees : ∀ n, V.sees r.1 n
  seen : SeenIn V o o' r.2 r'.2

theorem enterNamespace (h : SeenIn V o o' b b') (H : b.model.Inv) (hp : p < b.next)
    (hsees : V.sees p d.name) :
    Entered V o o' (b.enterNamespace p d) (b'.enterNamespace (V.map p) d) := by
  unfold Draft.enterNamespace
  rw [h.namespace?_eq hsees]
  cases hs : b.namespace? p d.name with
  | some s =>
    obtain ⟨hparent, hname⟩ := namespace?_place H hs
    exact ⟨rfl, fun n => h.closed hparent (hname ▸ hsees), h.register⟩
  | none =>
    have hopen : SeenIn V o o' (b.openScope p .namespaceScope d)
        (b'.openScope (V.map p) .namespaceScope d) := h.openScope hp rfl fun _ _ => Iff.rfl
    refine ⟨h.map_next.symm, fun n => h.fresh (Nat.le_refl _), ?_⟩
    dsimp only [Option.map_none]
    split
    · exact hopen
    · rw [← h.map_next]
      exact hopen.declare (openScope_next ▸ Nat.lt_succ_of_lt hp) (fun _ => rfl) (fun _ => rfl)

/-- The declarations of a new class are made at corresponding places. -/
theorem newClass (h : SeenIn V o o' b b') (hp : p < b.next) (hname : d'.name = d.name)
    (hid : ∀ id, V.knows id → (id = d'.id ∧ d'.id ≠ "" ↔ id = d.id ∧ d.id ≠ ""))
    (hloc : V.located p ∨ V.located b.next → d'.loc = d.loc) :
    SeenIn V o o' (b.newClass p d) (b'.newClass (V.map p) d') := by
  have hopen := h.openClass hp hname hid
  have hdecl : SeenIn V o o'
      ((b.openClass p d).declare p d.name .className d.loc false false (some b.next))
      ((b'.openClass (V.map p) d').declare (V.map p) d.name .className d'.loc false false
        (some b'.next)) := by
    refine hopen.declare (openClass_next ▸ Nat.lt_succ_of_lt hp) (fun hlocated => hloc (.inl hlocated))
      fun _ => ?_
    rw [Option.map_some, h.map_next]
  have hlt : b.next <
      ((b.openClass p d).declare p d.name .className d.loc false false (some b.next)).next := by
    rw [declare_next, openClass_next]
    exact Nat.lt_succ_self _
  have hself : SeenIn V o o' (b.newClass p d)
      (((b'.openClass (V.map p) d').declare (V.map p) d.name .className d'.loc false false
        (some b'.next)).declare (V.map b.next) d.name .typeName d'.loc false true) :=
    hdecl.declare hlt (fun hlocated => hloc (.inr hlocated)) (fun _ => rfl)
  rw [h.map_next, ← hname] at hself
  exact hself

theorem enterClass (h : SeenIn V o o' b b') (H : b.model.Inv) (hp : p < b.next)
    (hsees : V.sees p d.name) (defines : Bool) :
    Entered V o o' (b.enterClass p d defines) (b'.enterClass (V.map p) d defines) := by
  unfold Draft.enterClass
  rw [h.class?_eq H hsees]
  cases hs : b.class? p d.name defines with
  | some s =>
    obtain ⟨hparent, hname⟩ := class?_place H hs
    exact ⟨rfl, fun n => h.closed hparent (hname ▸ hsees), h.register⟩
  | none =>
    refine ⟨h.map_next.symm, fun n => h.fresh (Nat.le_refl _), ?_⟩
    dsimp only [Option.map_none]
    split
    · exact h.openClass hp rfl fun _ _ => Iff.rfl
    · exact h.newClass hp rfl (fun _ _ => Iff.rfl) fun _ => rfl

theorem enterBody (h : SeenIn V o o' b b') (hp : p < b.next) (k : ScopeKind) (d : DeclInfo) :
    Entered V o o' (b.enterBody p k d) (b'.enterBody (V.map p) k d) := by
  have hopen : SeenIn V o o' (b.openScope p k d) (b'.openScope (V.map p) k d) :=
    h.openScope hp rfl fun _ _ => Iff.rfl
  refine ⟨h.map_next.symm, fun n => h.fresh (Nat.le_refl _), ?_⟩
  simp only [Draft.enterBody]
  split
  · rw [← h.map_next]
    refine foldl (s := b.next) (fun b b' q hs h => ⟨?_, ?_⟩) hopen
      (openScope_next ▸ Nat.lt_succ_self _) _
    · exact Nat.lt_of_lt_of_eq hs declare_next.symm
    · exact h.declare hs (fun _ => rfl) (fun _ => rfl)
  · exact hopen

/-! ### What a node says -/

/-- Parameters that are set on both sides. The nodes may differ in their places if the scope is not located. -/
theorem setTemplate (h : SeenIn V o o' b b') (hs : s < b.next) (hsees : ∀ n, V.sees s n)
    (htemplate : d'.template = d.template) (hparams : d'.templateParams = d.templateParams)
    (hloc : V.located s → d'.loc = d.loc)
    (hdefines : (b.model.scope s).templateParams = [] ∨ defines' = defines) :
    SeenIn V o o' (b.setTemplate s d defines) (b'.setTemplate (V.map s) d' defines') := by
  have hcond : (d'.template = true ∧
      ((b'.model.scope (V.map s)).templateParams = [] ∨ defines' = true)) ↔
      (d.template = true ∧ ((b.model.scope s).templateParams = [] ∨ defines = true)) := by
    rw [htemplate, (h.scope (hsees "")).templateParams]
    rcases hdefines with hnil | rfl
    · simp [hnil]
    · rfl
  unfold Draft.setTemplate
  simp only [hcond, hparams]
  split
  · have hset := h.modify (f := fun sc =>
        { sc with isTemplate := true, templateParams := d.templateParams }) (g := fun sc =>
        { sc with isTemplate := true, templateParams := d.templateParams }) hs
      (fun _ => ⟨rfl, rfl, rfl⟩)
      (fun ⟨hkind, hname, hparent, hbases, _, _, hdefined⟩ =>
        ⟨hkind, hname, hparent, hbases, rfl, rfl, hdefined⟩)
    refine foldl (s := s) (fun b b' q hs h => ?_) hset (Nat.lt_of_lt_of_eq hs modifyScope_next.symm) _
    rw [h.declaresParam_eq (hsees q)]
    split
    · exact ⟨hs, h⟩
    · exact ⟨Nat.lt_of_lt_of_eq hs declare_next.symm, h.declare hs hloc (fun _ => rfl)⟩
  · exact h

theorem addBases (h : SeenIn V o o' b b') (hs : s < b.next) (bases : List (Option Base)) :
    SeenIn V o o' (b.addBases s bases) (b'.addBases (V.map s) bases) := by
  refine foldl (s := s) (fun b b' base hs h => ?_) h hs bases
  unfold addBase
  split
  · refine ⟨Nat.lt_of_lt_of_eq hs modifyScope_next.symm, h.modify hs (fun _ => ⟨rfl, rfl, rfl⟩) ?_⟩
    rintro ⟨hkind, hname, hparent, hbases, htemplate, hparams, hdefined⟩
    exact ⟨hkind, hname, hparent, by rw [hbases], htemplate, hparams, hdefined⟩
  · exact ⟨hs, h.skip⟩

/-- The definition of a class, after its parameters. -/
theorem addDefinition (h : SeenIn V o o' b b') (hs : s < b.next) (d : DeclInfo) (defines : Bool) :
    SeenIn V o o'
      ((if defines then b.modifyScope s fun sc => { sc with loc := d.loc, defined := true }
        else b).addBases s d.bases)
      ((if defines then b'.modifyScope (V.map s) fun sc => { sc with loc := d.loc, defined := true }
        else b').addBases (V.map s) d.bases) := by
  cases defines with
  | false => exact h.addBases hs d.bases
  | true =>
    refine addBases (h.modify (f := fun sc => { sc with loc := d.loc, defined := true })
      (g := fun sc => { sc with loc := d.loc, defined := true }) hs (fun _ => ⟨rfl, rfl, rfl⟩) ?_)
      (Nat.lt_of_lt_of_eq hs modifyScope_next.symm) d.bases
    rintro ⟨hkind, hname, hparent, hbases, htemplate, hparams, _⟩
    exact ⟨hkind, hname, hparent, hbases, htemplate, hparams, rfl⟩

theorem addClassInfo (h : SeenIn V o o' b b') (H : b.model.Inv) (hs : s < b.next)
    (hsees : ∀ n, V.sees s n) (d : DeclInfo) (defines : Bool) :
    SeenIn V o o' (b.addClassInfo s d defines) (b'.addClassInfo (V.map s) d defines) :=
  (h.setTemplate hs hsees rfl rfl (fun _ => rfl) (.inr rfl)).addDefinition
    (Nat.lt_of_lt_of_le hs (setTemplate_run H hs).next_le) d defines

theorem addUse (h : SeenIn V o o' b b') (hsees : V.sees s n) (use : Option Use) :
    SeenIn V o o' (addUse s b use) (addUse (V.map s) b' use) := by
  unfold Draft.addUse
  rw [(h.scope hsees).kind]
  split
  · exact h.skip
  · next u =>
    split
    · exact h.skip
    · have hplaced : u.placed b'.model.file (V.map s) = (u.placed b.model.file s).moved V.map := by
        rw [h.file]
        rfl
      obtain ⟨new, hnew, hnew'⟩ := h.uses
      exact { h with
        scope := h.scope
        declared := h.declared
        lookup := h.lookup
        uses := ⟨new ++ [u.placed b.model.file s], by simp [hnew], by simp [hnew', hplaced]⟩
        lt := h.lt
        ahead := h.ahead
        fresh := h.fresh
        closed := h.closed }

theorem addUses (h : SeenIn V o o' b b') (hsees : V.sees s n) (uses : List (Option Use)) :
    SeenIn V o o' (b.addUses s uses) (b'.addUses (V.map s) uses) := by
  unfold Draft.addUses
  induction uses generalizing b b' with
  | nil => exact h
  | cons use uses ih => exact ih (h.addUse hsees use)

end SeenIn

/-! ### The walk -/

mutual

/-- Walking over a node on both sides keeps the view, if the view sees its name. -/
theorem SeenIn.walk : (d : Decl) → ∀ {b b' : Draft} {p}, SeenIn V o o' b b' → b.model.Inv →
    p < b.next → (∀ n ∈ d.name?, V.sees p n) →
    SeenIn V o o' (Draft.walk p b d) (Draft.walk (V.map p) b' d)
  | .missing, _, _, _, h, _, _, _ => h.skip
  | .node d members, b, b', p, h, H, hp, hname => by
    have hsees : V.sees p d.name := hname d.name rfl
    have hmembers {s s' : ScopeId} {b b' : Draft} (hplace : s' = V.map s) (hsees : ∀ n, V.sees s n)
        (h : SeenIn V o o' b b') (H : b.model.Inv) (hlt : s < b.next) :
        SeenIn V o o' ((Draft.walkAll s b members).addUses s d.uses)
          ((Draft.walkAll s' b' members).addUses s' d.uses) := by
      subst hplace
      exact (SeenIn.walkAll members h H hlt hsees).addUses (hsees "") d.uses
    unfold Draft.walk
    cases NodeKind.ofText? d.kind with
    | none => exact h.skip
    | some kind =>
      cases kind with
      | namespaceNode =>
        have hr := h.enterNamespace H hp hsees
        have he := enterNamespace_entered H hp d
        dsimp only
        rw [hr.place]
        exact SeenIn.walkAll members hr.seen (he.inv H) he.lt hr.sees
      | classNode =>
        have hr := h.enterClass H hp hsees (d.definesClass members)
        have he := enterClass_entered H hp d (d.definesClass members)
        have hinfo := hr.seen.addClassInfo (he.inv H) he.lt hr.sees d (d.definesClass members)
        have he' := he.trans (addClassInfo_run (he.inv H) he.lt d (d.definesClass members))
        rw [← hr.place] at hinfo
        exact hmembers hr.place hr.sees hinfo (he'.inv H) he'.lt
      | functionNode =>
        dsimp only
        split
        · exact h.defer (d, members)
        · have hdecl : SeenIn V o o'
              (b.declare p d.name .functionName d.loc d.static false (some b.next))
              (b'.declare (V.map p) d.name .functionName d.loc d.static false (some b'.next)) :=
            h.declare hp (fun _ => rfl) fun hopens => absurd rfl hopens
          have hrun : Run b (b.declare p d.name .functionName d.loc d.static false (some b.next)) :=
            declare_run hp rfl
          have hp' := Nat.lt_of_lt_of_le hp hrun.next_le
          have he := enterBody_entered (k := .functionScope) (hrun.inv H) hp' (by decide) d
          have hr := hdecl.enterBody hp' .functionScope d
          exact hmembers hr.place hr.sees hr.seen (he.inv (hrun.inv H)) he.lt
      | blockNode =>
        have he := enterBody_entered (k := .blockScope) H hp (by decide) d
        have hr := h.enterBody hp .blockScope d
        exact hmembers hr.place hr.sees hr.seen (he.inv H) he.lt
      | variableNode | typeNode =>
        dsimp only
        split
        · exact h.skip
        · exact (h.declare hp (fun _ => rfl) (fun _ => rfl)).addUses hsees d.uses

theorem SeenIn.walkAll : (ds : List Decl) → ∀ {b b' : Draft} {p}, SeenIn V o o' b b' → b.model.Inv →
    p < b.next → (∀ n, V.sees p n) →
    SeenIn V o o' (Draft.walkAll p b ds) (Draft.walkAll (V.map p) b' ds)
  | [], _, _, _, h, _, _, _ => h
  | d :: ds, b, b', p, h, H, hp, hsees => by
    have hrun := walk_run d H hp
    have hwalk := SeenIn.walk d h H hp fun n _ => hsees n
    exact SeenIn.walkAll ds hwalk (hrun.inv H) (Nat.lt_of_lt_of_le hp hrun.next_le) hsees

end

end Draft

end TwoPhase
