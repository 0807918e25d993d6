import TwoPhase.Proofs.BuildRun

/-!
# The steps of a walk

Placing a node is one of three things: a scope is entered, in which the members and then the uses of the node
are placed (`Draft.enter?`); the node is set aside; or it leaves a name or a count behind (`Draft.note`).
Proofs about the walk that follow this division need not look at the kinds of nodes.

`CompilationUnit.visits` lists the nodes that are met while a model is built, each with the draft at that time,
so that it can be said of every point of the building, and not only of the model at its end, what holds there.
An invariant that every step keeps holds at every visit and of the model (`CompilationUnit.visits_keep`).
-/

namespace TwoPhase

/-- A function that is defined outside its class. -/
def DeclInfo.isOutOfLine (d : DeclInfo) : Bool :=
  NodeKind.ofText? d.kind == some .functionNode && d.owner != ""

/-- The uses that are placed in the scope of a node. The uses of a namespace are passed by. -/
def DeclInfo.innerUses (d : DeclInfo) : List (Option Use) :=
  if NodeKind.ofText? d.kind = some .namespaceNode then [] else d.uses

namespace Draft

/-- The scope of a class node, with all that the node says beside its members and uses. -/
def takeClass (b : Draft) (p : ScopeId) (d : DeclInfo) (defines : Bool) : ScopeId × Draft :=
  ((b.enterClass p d defines).1,
    (b.enterClass p d defines).2.addClassInfo (b.enterClass p d defines).1 d defines)

/-- Enters the scope in which the members of a node are placed. Not every node has one. -/
def enter? (b : Draft) (p : ScopeId) (d : DeclInfo) (defines : Bool) : Option (ScopeId × Draft) :=
  match NodeKind.ofText? d.kind with
  | some .namespaceNode => some (b.enterNamespace p d)
  | some .classNode => some (b.takeClass p d defines)
  | some .functionNode =>
    if d.owner ≠ "" then none
    else some ((b.declare p d.name .functionName d.loc d.static false (some b.next)).enterBody p
      .functionScope d)
  | some .blockNode => some (b.enterBody p .blockScope d)
  | _ => none

/-- What a node that has no scope leaves behind. -/
def note (b : Draft) (p : ScopeId) (d : DeclInfo) : Draft :=
  match NodeKind.ofText? d.kind with
  | some .variableNode =>
    if d.name = "" then b.skip
    else (b.declare p d.name .variableName d.loc d.static).addUses p d.uses
  | some .typeNode =>
    if d.name = "" then b.skip
    else (b.declare p d.name .typeName d.loc d.static).addUses p d.uses
  | _ => b.skip

def setAside (b : Draft) (d : DeclInfo) (members : List Decl) : Draft :=
  { b with deferred := b.deferred ++ [(d, members)] }

variable {b b' : Draft} {s p : ScopeId} {d : DeclInfo} {members : List Decl}

theorem walk_node : walk p b (.node d members) =
    match b.enter? p d (d.definesClass members) with
    | some (s, b') => (walkAll s b' members).addUses s d.innerUses
    | none => if d.isOutOfLine then b.setAside d members else b.note p d := by
  unfold walk enter? note DeclInfo.innerUses DeclInfo.isOutOfLine
  cases NodeKind.ofText? d.kind with
  | none => rfl
  | some kind =>
    cases kind with
    | namespaceNode | classNode | blockNode | variableNode | typeNode => rfl
    | functionNode => by_cases howner : d.owner = "" <;> simp [howner, setAside]

theorem walk_of_enter? (h : b.enter? p d (d.definesClass members) = some (s, b')) :
    walk p b (.node d members) = (walkAll s b' members).addUses s d.innerUses := by
  rw [walk_node, h]

theorem walk_of_enter?_none (h : b.enter? p d (d.definesClass members) = none) :
    walk p b (.node d members) =
      if d.isOutOfLine then b.setAside d members else b.note p d := by
  rw [walk_node, h]

/-- Entering a node enters a scope of some kind. -/
theorem enter?_entered (H : b.model.Inv) (hp : p < b.next) (h : b.enter? p d defines = some r) :
    ∃ k, Entered b k r.1 r.2 := by
  unfold enter? at h
  split at h
  · cases h
    exact ⟨_, enterNamespace_entered H hp d⟩
  · cases h
    have he := enterClass_entered H hp d defines
    exact ⟨_, he.trans (addClassInfo_run (he.inv H) he.lt d defines)⟩
  · split at h
    · cases h
    · cases h
      have hdecl : Run b (b.declare p d.name .functionName d.loc d.static false (some b.next)) :=
        declare_run hp rfl
      have he := enterBody_entered (k := .functionScope) (hdecl.inv H)
        (Nat.lt_of_lt_of_le hp hdecl.next_le) (by decide) d
      exact ⟨_, hdecl.trans he.run, he.lt, he.kind⟩
  · cases h
    exact ⟨_, enterBody_entered H hp (by decide) d⟩
  · cases h

theorem note_run (H : b.model.Inv) (hp : p < b.next) : Run b (b.note p d) := by
  have hname (kind : DeclKind) (hk : kind.opens? = none) :
      Run b ((b.declare p d.name kind d.loc d.static).addUses p d.uses) := by
    have hdecl : Run b (b.declare p d.name kind d.loc d.static) := declare_run hp hk
    exact hdecl.trans (addUses_run (hdecl.inv H) (Nat.lt_of_lt_of_le hp hdecl.next_le) _)
  unfold note
  split
  · split
    · exact .single .skip
    · exact hname _ rfl
  · split
    · exact .single .skip
    · exact hname _ rfl
  · exact .single .skip

/-- Enters the body of a function inside the class that owns it. -/
def enterOutOfLine? (b : Draft) (d : DeclInfo) : Option (ScopeId × Draft) :=
  match b.model.byId? d.owner with
  | none => none
  | some owner =>
    if !(b.model.scope owner).isClass then none
    else some ((if (b.model.declared owner d.name).isEmpty then
        b.declare owner d.name .functionName d.loc d.static
      else b).enterBody owner .functionScope d)

theorem defineOutOfLine_eq : b.defineOutOfLine d members =
    match b.enterOutOfLine? d with
    | some (s, b') => (walkAll s b' members).addUses s d.uses
    | none => b.skip := by
  unfold defineOutOfLine enterOutOfLine?
  cases b.model.byId? d.owner with
  | none => rfl
  | some owner => cases h : (b.model.scope owner).isClass <;> simp [h]

theorem enterOutOfLine?_entered (H : b.model.Inv) (h : b.enterOutOfLine? d = some r) :
    Entered b .functionScope r.1 r.2 := by
  unfold enterOutOfLine? at h
  split at h
  · cases h
  · next owner _ =>
    split at h
    · cases h
    · next hclass =>
      have howner : owner < b.next := Model.lt_size_of_isClass (by simpa using hclass)
      have hdecl : Run b (if (b.model.declared owner d.name).isEmpty then
          b.declare owner d.name .functionName d.loc d.static else b) := by
        split
        · exact declare_run howner rfl
        · exact .refl
      cases h
      have he := enterBody_entered (k := .functionScope) (hdecl.inv H)
        (Nat.lt_of_lt_of_le howner hdecl.next_le) (by decide) d
      exact ⟨hdecl.trans he.run, he.lt, he.kind⟩

end Draft

/-! ### Visits -/

/-- A node that is met: where it is placed, and the draft that it is added to. -/
structure Visit where
  parent : ScopeId
  before : Draft
  info : DeclInfo
  members : List Decl

/-- The draft is in order, and holds the scope that the node is placed in. -/
structure Visit.InOrder (v : Visit) : Prop where
  inv : v.before.model.Inv
  lt : v.parent < v.before.next

namespace Draft

mutual

/-- The nodes that are met when a node is placed inside `p`, in order. -/
def visits (p : ScopeId) (b : Draft) : Decl → List Visit
  | .missing => []
  | .node d members =>
    ⟨p, b, d, members⟩ ::
      match b.enter? p d (d.definesClass members) with
      | some (s, b') => visitsAll s b' members
      | none => []

def visitsAll (p : ScopeId) (b : Draft) : List Decl → List Visit
  | [] => []
  | d :: ds => visits p b d ++ visitsAll p (walk p b d) ds

end

/-- The nodes that are met in the body of a function that is defined outside its class. -/
def visitsOutOfLine (b : Draft) (d : DeclInfo) (members : List Decl) : List Visit :=
  match b.enterOutOfLine? d with
  | some (s, b') => visitsAll s b' members
  | none => []

/-- The nodes that are met in the bodies of functions that have been set aside. -/
def visitsAside (b : Draft) : List (DeclInfo × List Decl) → List Visit
  | [] => []
  | (d, members) :: nodes =>
    visitsOutOfLine b d members ++ visitsAside (b.defineOutOfLine d members) nodes

end Draft

/-- The nodes that are met while the model of a unit is built, in order. -/
def CompilationUnit.visits (u : CompilationUnit) : List Visit :=
  let b := Draft.walkAll Model.root (Draft.start u.file) u.topLevel
  Draft.visitsAll Model.root (Draft.start u.file) u.topLevel ++ b.visitsAside b.deferred

namespace Draft

/-- **A property of drafts and what has been met so far that every step keeps.** -/
structure KeptBySteps (P : List Visit → Draft → Prop) : Prop where
  enter : ∀ {past b p d members s b'}, b.model.Inv → p < b.next → P past b →
    b.enter? p d (d.definesClass members) = some (s, b') → P (past ++ [⟨p, b, d, members⟩]) b'
  note : ∀ {past b p d members}, b.model.Inv → p < b.next → P past b →
    b.enter? p d (d.definesClass members) = none → P (past ++ [⟨p, b, d, members⟩]) (b.note p d)
  setAside : ∀ {past b p d members}, P past b → d.isOutOfLine = true →
    P (past ++ [⟨p, b, d, members⟩]) (b.setAside d members)
  enterOutOfLine : ∀ {past b d s b'}, b.model.Inv → P past b → b.enterOutOfLine? d = some (s, b') →
    P past b'
  addUses : ∀ {past b s} (uses), b.model.Inv → s < b.next → P past b → P past (b.addUses s uses)
  skip : ∀ {past b}, P past b → P past b.skip

namespace KeptBySteps

variable {P : List Visit → Draft → Prop} {past : List Visit} {b : Draft} {p : ScopeId}

mutual

/-- Such a property holds behind a node if it holds before, and it holds at every visit in between. -/
theorem walk (K : KeptBySteps P) : (d : Decl) → ∀ {past b p}, b.model.Inv → p < b.next → P past b →
    P (past ++ visits p b d) (Draft.walk p b d) ∧ ∀ v ∈ visits p b d, v.InOrder ∧ ∃ past', P past' v.before
  | .missing, past, b, p, _, _, h => by
    rw [Draft.walk, visits, List.append_nil]
    exact ⟨K.skip h, List.forall_mem_nil _⟩
  | .node d members, past, b, p, H, hp, h => by
    cases henter : b.enter? p d (d.definesClass members) with
    | none =>
      simp only [visits, henter, walk_of_enter?_none henter, List.forall_mem_singleton]
      refine ⟨?_, ⟨H, hp⟩, past, h⟩
      split
      · next haside => exact K.setAside h haside
      · exact K.note H hp h henter
    | some r =>
      obtain ⟨s, b'⟩ := r
      obtain ⟨k, he⟩ := enter?_entered H hp henter
      obtain ⟨hinside, hvisits⟩ := walkAll K members (he.inv H) he.lt (K.enter H hp h henter)
      have he' := he.trans (walkAll_run members (he.inv H) he.lt)
      simp only [visits, henter, walk_of_enter? henter, List.forall_mem_cons]
      rw [List.append_assoc, List.singleton_append] at hinside
      exact ⟨K.addUses d.innerUses (he'.inv H) he'.lt hinside, ⟨⟨H, hp⟩, past, h⟩, hvisits⟩

theorem walkAll (K : KeptBySteps P) : (ds : List Decl) → ∀ {past b p}, b.model.Inv → p < b.next →
    P past b → P (past ++ visitsAll p b ds) (Draft.walkAll p b ds) ∧
      ∀ v ∈ visitsAll p b ds, v.InOrder ∧ ∃ past', P past' v.before
  | [], past, b, p, _, _, h => by
    rw [Draft.walkAll, visitsAll, List.append_nil]
    exact ⟨h, List.forall_mem_nil _⟩
  | d :: ds, past, b, p, H, hp, h => by
    have hrun := walk_run d H hp
    obtain ⟨hfirst, hvisits⟩ := walk K d H hp h
    obtain ⟨hrest, hvisits'⟩ := walkAll K ds (hrun.inv H) (Nat.lt_of_lt_of_le hp hrun.next_le) hfirst
    rw [List.append_assoc] at hrest
    exact ⟨hrest, List.forall_mem_append.mpr ⟨hvisits, hvisits'⟩⟩

end

theorem defineOutOfLine (K : KeptBySteps P) (H : b.model.Inv) (h : P past b) (d : DeclInfo)
    (members : List Decl) :
    P (past ++ visitsOutOfLine b d members) (b.defineOutOfLine d members) ∧
      ∀ v ∈ visitsOutOfLine b d members, v.InOrder ∧ ∃ past', P past' v.before := by
  rw [defineOutOfLine_eq, visitsOutOfLine]
  cases henter : b.enterOutOfLine? d with
  | none =>
    rw [List.append_nil]
    exact ⟨K.skip h, List.forall_mem_nil _⟩
  | some r =>
    obtain ⟨s, b'⟩ := r
    have he := enterOutOfLine?_entered H henter
    obtain ⟨hinside, hvisits⟩ := K.walkAll members (he.inv H) he.lt (K.enterOutOfLine H h henter)
    have he' := he.trans (walkAll_run members (he.inv H) he.lt)
    exact ⟨K.addUses d.uses (he'.inv H) he'.lt hinside, hvisits⟩

theorem defineAll (K : KeptBySteps P) (H : b.model.Inv) (h : P past b)
    (nodes : List (DeclInfo × List Decl)) :
    P (past ++ visitsAside b nodes)
      (nodes.foldl (fun b (d, members) => b.defineOutOfLine d members) b) ∧
    ∀ v ∈ visitsAside b nodes, v.InOrder ∧ ∃ past', P past' v.before := by
  induction nodes generalizing past b with
  | nil =>
    rw [visitsAside, List.append_nil]
    exact ⟨h, List.forall_mem_nil _⟩
  | cons node nodes ih =>
    obtain ⟨d, members⟩ := node
    have hrun : Run b (b.defineOutOfLine d members) := defineOutOfLine_run H members
    obtain ⟨hfirst, hvisits⟩ := K.defineOutOfLine H h d members
    obtain ⟨hrest, hvisits'⟩ := ih (hrun.inv H) hfirst
    rw [List.append_assoc] at hrest
    exact ⟨hrest, List.forall_mem_append.mpr ⟨hvisits, hvisits'⟩⟩

end KeptBySteps

end Draft

/-- A property that every step keeps holds whenever a node is met, and in the end. -/
theorem CompilationUnit.visits_keep {P : List Visit → Draft → Prop} (K : Draft.KeptBySteps P)
    (u : CompilationUnit) (h : P [] (Draft.start u.file)) :
    (∃ b, b.model = u.model ∧ P u.visits b) ∧
      ∀ v ∈ u.visits, v.InOrder ∧ ∃ past, P past v.before := by
  have H := Draft.start_inv u.file
  have hrun := Draft.walkAll_run u.topLevel H H.size_pos
  obtain ⟨hwalk, hvisits⟩ := K.walkAll u.topLevel H H.size_pos h
  obtain ⟨hrest, hvisits'⟩ := K.defineAll (Draft.Run.inv hrun H) hwalk
    (Draft.walkAll Model.root (Draft.start u.file) u.topLevel).deferred
  rw [List.nil_append] at hrest
  exact ⟨⟨_, rfl, hrest⟩, List.forall_mem_append.mpr ⟨hvisits, hvisits'⟩⟩

end TwoPhase
