import TwoPhase.Proofs.WalkSteps
import Mathlib.Algebra.Order.Group.Multiset
import Mathlib.Tactic.Abel

/-!
# A ledger of uses and functions

The uses of a unit are listed at its nodes, at any depth, and at any depth a function may be defined outside its
class. A ledger says what becomes of these entries when the model is built, without building it: which uses are
recorded, which functions have a body in the model, which uses are skipped one by one, which entries lie inside
nodes that are skipped as a whole, and which are never looked at. Each entry has exactly one place in it
(`CompilationUnit.ledger_total`).
-/

namespace TwoPhase

/-- What the building of a model has to account for: a use, or a function that is defined outside its class. -/
inductive Entry where
  | use (use : Option Use)
  | function (node : DeclInfo × List Decl)

/-- The entries of a node apart from those of its members. -/
def DeclInfo.entries (d : DeclInfo) (members : List Decl) : List Entry :=
  (if d.isOutOfLine then [.function (d, members)] else []) ++ d.uses.map .use

namespace Decl

mutual

/-- The entries of a node, at any depth. -/
def entries : Decl → List Entry
  | .missing => []
  | .node d members => d.entries members ++ entriesIn members

def entriesIn : List Decl → List Entry
  | [] => []
  | d :: ds => d.entries ++ entriesIn ds

end

end Decl

/-- What becomes of the entries of a unit. -/
structure Ledger where
  recorded : List Use := []
  /-- The functions whose bodies are placed, inside their class or outside it, in the order of their scopes. -/
  functions : List (DeclInfo × List Decl) := []
  /-- The uses that are skipped one by one. -/
  skipped : List (Option Use) := []
  /-- The nodes that are skipped with all they hold. -/
  nodes : List Decl := []
  /-- The entries of base clauses that are skipped. -/
  bases : List (Option Base) := []
  /-- What is never looked at, although the node around it is placed. -/
  lost : List Entry := []
  /-- The functions with an owner that are set aside. -/
  deferred : List (DeclInfo × List Decl) := []
  /-- The ids that are met, with the kinds of their scopes. -/
  ids : List (String × ScopeKind) := []

namespace Ledger

def append (l l' : Ledger) : Ledger where
  recorded := l.recorded ++ l'.recorded
  functions := l.functions ++ l'.functions
  skipped := l.skipped ++ l'.skipped
  nodes := l.nodes ++ l'.nodes
  bases := l.bases ++ l'.bases
  lost := l.lost ++ l'.lost
  deferred := l.deferred ++ l'.deferred
  ids := l.ids ++ l'.ids

instance : Append Ledger := ⟨append⟩

@[simp] theorem append_recorded (l l' : Ledger) :
    (l ++ l').recorded = l.recorded ++ l'.recorded := rfl

@[simp] theorem append_functions (l l' : Ledger) :
    (l ++ l').functions = l.functions ++ l'.functions := rfl

@[simp] theorem append_deferred (l l' : Ledger) :
    (l ++ l').deferred = l.deferred ++ l'.deferred := rfl

@[simp] theorem append_nodes (l l' : Ledger) : (l ++ l').nodes = l.nodes ++ l'.nodes := rfl

@[simp] theorem append_ids (l l' : Ledger) : (l ++ l').ids = l.ids ++ l'.ids := rfl

@[simp] theorem append_empty (l : Ledger) : l ++ {} = l := by
  change append l {} = l
  simp [append]

theorem append_assoc (l l' l'' : Ledger) : l ++ l' ++ l'' = l ++ (l' ++ l'') := by
  change append (append l l') l'' = append l (append l' l'')
  simp [append]

/-- How much is added to the number of skipped entries. -/
def count (l : Ledger) : Nat :=
  l.skipped.length + l.nodes.length + l.bases.length

theorem count_append (l l' : Ledger) : (l ++ l').count = l.count + l'.count := by
  change (append l l').count = _
  simp only [count, append, List.length_append]
  omega

/-- The functions outside their classes whose bodies are placed. -/
def attached (l : Ledger) : List (DeclInfo × List Decl) :=
  l.functions.filter (·.1.isOutOfLine)

/-- What lies inside nodes that are skipped. -/
def buried (l : Ledger) : List Entry :=
  l.nodes.flatMap Decl.entries

/-- The entries that have a place in the model or are counted, alone or with a node around them. -/
def accounted (l : Ledger) : List Entry :=
  l.recorded.map (.use ∘ some) ++ l.skipped.map .use ++ l.attached.map .function ++ l.buried

/-- The entries that leave no trace. -/
def unaccounted (l : Ledger) : List Entry :=
  l.lost ++ l.deferred.flatMap fun (d, members) => (Decl.node d members).entries

def ofId (id : String) (kind : ScopeKind) : Ledger where
  ids := if id = "" then [] else [(id, kind)]

theorem lookup_ofId (id id' : String) (kind : ScopeKind) :
    (ofId id kind).ids.lookup id' = if id' = id ∧ id ≠ "" then some kind else none := by
  by_cases hid : id = ""
  · simp [ofId, hid]
  · by_cases heq : id' = id
    · simp [ofId, hid, heq]
    · have hbeq : (id' == id) = false := by simpa using heq
      simp [ofId, hid, heq, hbeq, List.lookup_cons]

/-- A use is recorded if it has a name and is not listed directly in a namespace. -/
def recordable? (inNamespace : Bool) (use : Option Use) : Option Use :=
  use.filter fun u => u.name ≠ "" && !inNamespace

theorem recordable?_some (inNamespace : Bool) (u : Use) :
    recordable? inNamespace (some u) = if u.name = "" ∨ inNamespace = true then none else some u := by
  by_cases hname : u.name = "" <;> cases inNamespace <;> simp [recordable?, Option.filter, hname]

def ofUses (inNamespace : Bool) (uses : List (Option Use)) : Ledger where
  recorded := uses.filterMap (recordable? inNamespace)
  skipped := uses.filter fun u => (recordable? inNamespace u).isNone

theorem ofUses_cons (inNamespace : Bool) (use : Option Use) (uses : List (Option Use)) :
    ofUses inNamespace (use :: uses) = ofUses inNamespace [use] ++ ofUses inNamespace uses := by
  change _ = append _ _
  cases h : recordable? inNamespace use <;> simp [ofUses, append, h]

/-- The entries of a base clause that do not name a type. -/
def ofBases (bases : List (Option Base)) : Ledger where
  bases := bases.filter fun b => (Draft.wellFormed? b).isNone

theorem ofBases_cons (base : Option Base) (bases : List (Option Base)) :
    ofBases (base :: bases) = ofBases [base] ++ ofBases bases := by
  change _ = append _ _
  cases h : Draft.wellFormed? base <;> simp [ofBases, append, h]

/-- A scope that is opened for a node, with its id. -/
def ofOpened (kind : ScopeKind) (d : DeclInfo) (members : List Decl) : Ledger :=
  { ofId d.id kind with functions := if kind = .functionScope then [(d, members)] else [] }

/-- A scope with all that is placed in it, the uses of the node at the end. -/
def ofScope (kind : ScopeKind) (d : DeclInfo) (members : List Decl) (inside : Ledger) : Ledger :=
  ofOpened kind d members ++ inside ++ ofUses false d.uses

end Ledger

namespace Decl

mutual

/-- What becomes of a node. -/
def ledger (inNamespace : Bool) : Decl → Ledger
  | .missing => { nodes := [.missing] }
  | .node d members =>
    match NodeKind.ofText? d.kind with
    | some .namespaceNode =>
      -- the uses of the namespace itself are passed by
      Ledger.ofId d.id .namespaceScope ++ ledgerAll true members ++ { lost := d.uses.map .use }
    | some .classNode =>
      Ledger.ofScope .classScope d members (Ledger.ofBases d.bases ++ ledgerAll false members)
    | some .functionNode =>
      if d.owner ≠ "" then { deferred := [(d, members)] }
      else Ledger.ofScope .functionScope d members (ledgerAll false members)
    | some .blockNode => Ledger.ofScope .blockScope d members (ledgerAll false members)
    | some .variableNode | some .typeNode =>
      if d.name = "" then { nodes := [.node d members] }
      else Ledger.ofUses inNamespace d.uses ++ { lost := entriesIn members }
    | none => { nodes := [.node d members] }

def ledgerAll (inNamespace : Bool) : List Decl → Ledger
  | [] => {}
  | d :: ds => d.ledger inNamespace ++ ledgerAll inNamespace ds

end

end Decl

/-- What becomes of a function that has been set aside. It is placed if its owner is the id of a class that
has been met by then. -/
def Ledger.attach (l : Ledger) (node : DeclInfo × List Decl) : Ledger :=
  l ++ if l.ids.lookup node.1.owner = some .classScope then
    Ledger.ofScope .functionScope node.1 node.2 (Decl.ledgerAll false node.2)
  else { nodes := [.node node.1 node.2] }

/-- What becomes of a unit. Functions that are set aside in the bodies of these functions stay deferred. -/
def CompilationUnit.ledger (u : CompilationUnit) : Ledger :=
  let l := Decl.ledgerAll true u.topLevel
  l.deferred.foldl Ledger.attach { l with deferred := [] }

/-! ### Every entry has its place -/

namespace Ledger

/-- All entries of the ledger, each as often as it is listed. -/
def total (l : Ledger) : Multiset Entry :=
  ↑l.accounted + ↑l.unaccounted

theorem total_append (l l' : Ledger) : (l ++ l').total = l.total + l'.total := by
  change (append l l').total = _
  simp only [total, accounted, attached, append, buried, unaccounted, List.map_append, List.filter_append,
    List.flatMap_append, ← Multiset.coe_add]
  abel

theorem total_nodes (d : Decl) : ({ nodes := [d] } : Ledger).total = ↑d.entries := by
  simp [total, accounted, attached, buried, unaccounted]

theorem total_lost (l : List Entry) : ({ lost := l } : Ledger).total = ↑l := by
  simp [total, accounted, attached, buried, unaccounted]

theorem total_ofId (id : String) (kind : ScopeKind) : (ofId id kind).total = 0 := rfl

theorem total_ofUses (inNamespace : Bool) (uses : List (Option Use)) :
    (ofUses inNamespace uses).total = ↑(uses.map Entry.use) := by
  have hperm : ((uses.filterMap (recordable? inNamespace)).map some ++
      uses.filter fun u => (recordable? inNamespace u).isNone).Perm uses := by
    induction uses with
    | nil => exact .nil
    | cons u uses ih =>
      cases hu : recordable? inNamespace u with
      | none => simpa [hu] using List.perm_middle.trans (ih.cons u)
      | some v =>
        obtain rfl : u = some v := (Option.filter_eq_some_iff.mp hu).1
        simpa [hu] using ih.cons (some v)
  simpa [total, accounted, attached, buried, unaccounted, ofUses] using hperm.map Entry.use

/-- A function outside its class has a body of its own; other nodes of that kind are no entries. -/
theorem total_ofScope {kind : ScopeKind} {d : DeclInfo} (h : d.isOutOfLine = true → kind = .functionScope)
    (members : List Decl) (inside : Ledger) :
    (ofScope kind d members inside).total = ↑(d.entries members) + inside.total := by
  have hopened : (ofOpened kind d members).total =
      ↑(if d.isOutOfLine then [Entry.function (d, members)] else []) := by
    by_cases hd : d.isOutOfLine = true
    · simp [ofOpened, ofId, total, accounted, attached, buried, unaccounted, hd, h hd]
    · by_cases hk : kind = .functionScope <;>
        simp [ofOpened, ofId, total, accounted, attached, buried, unaccounted, hd, hk]
  rw [ofScope, total_append, total_append, total_ofUses, hopened, DeclInfo.entries, ← Multiset.coe_add]
  abel

end Ledger

namespace Decl

mutual

theorem total_ledger : (d : Decl) → ∀ inNamespace, (d.ledger inNamespace).total = ↑d.entries
  | .missing, _ => rfl
  | .node d members, inNamespace => by
    have hmembers := total_ledgerAll members
    have hinside {kind : NodeKind} (hk : NodeKind.ofText? d.kind = some kind) (hne : kind ≠ .functionNode) :
        d.isOutOfLine = false := by simp [DeclInfo.isOutOfLine, hk, hne]
    unfold ledger entries
    split
    · -- a namespace
      next hk =>
      rw [Ledger.total_append, Ledger.total_append, Ledger.total_ofId, hmembers, Ledger.total_lost,
        DeclInfo.entries, hinside hk (by decide), ← Multiset.coe_add, zero_add, add_comm]
      rfl
    · -- a class
      next hk =>
      have hbases : (Ledger.ofBases d.bases).total = 0 := rfl
      rw [Ledger.total_ofScope (by simp [hinside hk (by decide)]), Ledger.total_append, hbases, hmembers,
        ← Multiset.coe_add, zero_add]
    · -- a function
      next hk =>
      split
      · simp [Ledger.total, Ledger.accounted, Ledger.attached, Ledger.buried, Ledger.unaccounted, entries]
      · rw [Ledger.total_ofScope fun _ => rfl, hmembers, ← Multiset.coe_add]
    · -- a block
      next hk =>
      rw [Ledger.total_ofScope (by simp [hinside hk (by decide)]), hmembers, ← Multiset.coe_add]
    · -- a variable
      next hk =>
      split
      · exact Ledger.total_nodes _
      · rw [Ledger.total_append, Ledger.total_ofUses, Ledger.total_lost, DeclInfo.entries,
          hinside hk (by decide), Multiset.coe_add]
        rfl
    · -- a type
      next hk =>
      split
      · exact Ledger.total_nodes _
      · rw [Ledger.total_append, Ledger.total_ofUses, Ledger.total_lost, DeclInfo.entries,
          hinside hk (by decide), Multiset.coe_add]
        rfl
    · exact Ledger.total_nodes _

theorem total_ledgerAll : (ds : List Decl) → ∀ inNamespace,
    (ledgerAll inNamespace ds).total = ↑(entriesIn ds)
  | [], _ => rfl
  | d :: ds, inNamespace => by
    rw [ledgerAll, Ledger.total_append, total_ledger d, total_ledgerAll ds, entriesIn, Multiset.coe_add]

end

end Decl

theorem Ledger.total_attach (l : Ledger) (node : DeclInfo × List Decl) :
    (l.attach node).total = l.total + ↑(Decl.node node.1 node.2).entries := by
  rw [attach, total_append]
  split
  · rw [total_ofScope fun _ => rfl, Decl.total_ledgerAll, Decl.entries, ← Multiset.coe_add]
  · rw [total_nodes]

theorem Ledger.total_foldl_attach (l : Ledger) (nodes : List (DeclInfo × List Decl)) :
    (nodes.foldl attach l).total =
      l.total + ↑(nodes.flatMap fun (d, members) => (Decl.node d members).entries) := by
  induction nodes generalizing l with
  | nil => simp
  | cons node nodes ih =>
    rw [List.foldl_cons, ih, total_attach, List.flatMap_cons, ← Multiset.coe_add, add_assoc]

/-- Every entry of a unit is accounted for or not, as often as it is listed. -/
theorem CompilationUnit.ledger_total (u : CompilationUnit) :
    (Decl.entriesIn u.topLevel).Perm (u.ledger.accounted ++ u.ledger.unaccounted) := by
  have htotal : u.ledger.total = ↑(Decl.entriesIn u.topLevel) := by
    rw [ledger, Ledger.total_foldl_attach, ← Decl.total_ledgerAll u.topLevel true]
    simp only [Ledger.total, Ledger.accounted, Ledger.attached, Ledger.buried, Ledger.unaccounted,
      ← Multiset.coe_add, List.flatMap_nil, List.append_nil]
    abel
  rw [← Multiset.coe_eq_coe, ← htotal]
  simp only [Ledger.total, Multiset.coe_add]

end TwoPhase
