import TwoPhase.Scope.Build
import Mathlib.Data.List.Basic

/-!
# The table of scopes under the operations of a draft

What each operation of `Draft` does to the scopes, the index and the other parts of the model. Later
proofs read these equations and do not open the operations again.
-/

namespace TwoPhase

namespace DeclIndex

theorem find_add (x : DeclIndex) (d : Declaration) (s : ScopeId) (name : String) :
    (x.add d).find s name =
      if s = d.owner ∧ name = d.name then x.find s name ++ [d] else x.find s name := by
  induction x with
  | nil =>
    by_cases h : s = d.owner ∧ name = d.name
    · simp [add, find, h]
    · have hk : ((s, name) == (d.owner, d.name)) = false := by
        simpa [Prod.ext_iff] using h
      simp [add, find, List.lookup_cons, hk, h]
  | cons e rest ih =>
    obtain ⟨k, ds⟩ := e
    simp only [find] at ih
    by_cases hk : k = (d.owner, d.name)
    · subst hk
      by_cases h : s = d.owner ∧ name = d.name
      · simp [add, find, h]
      · have hk : ((s, name) == (d.owner, d.name)) = false := by
          simpa [Prod.ext_iff] using h
        simp [add, find, List.lookup_cons, hk, h]
    · by_cases hs : (s, name) = k
      · subst hs
        have h : ¬ (s = d.owner ∧ name = d.name) := by simpa [Prod.ext_iff] using hk
        simp [add, find, hk, h]
      · have hs' : ((s, name) == k) = false := by simpa using hs
        simp [add, find, List.lookup_cons, hk, hs', ih]

end DeclIndex

namespace Model

/-- Beyond the table there are only blank scopes. -/
theorem scope_of_size_le {m : Model} (h : m.scopes.size ≤ i) : m.scope i = {} := by
  simp [scope, Array.getElem?_eq_none h]

theorem lt_size_of_parent {m : Model} (h : (m.scope i).parent = some p) : i < m.scopes.size := by
  by_contra hi
  rw [scope_of_size_le (Nat.le_of_not_lt hi)] at h
  contradiction

theorem lt_size_of_isClass {m : Model} (h : (m.scope i).isClass = true) : i < m.scopes.size := by
  by_contra hi
  rw [scope_of_size_le (Nat.le_of_not_lt hi)] at h
  contradiction

theorem lt_size_of_mem_decls {m : Model} (h : d ∈ (m.scope i).decls) : i < m.scopes.size := by
  by_contra hi
  rw [scope_of_size_le (Nat.le_of_not_lt hi)] at h
  contradiction

end Model

namespace Draft

variable {b : Draft} {s p i : ScopeId} {id : String} {d : DeclInfo} {f : Scope → Scope}

/-! ### Operations on one scope -/

theorem modifyScope_scope (h : s < b.next) (i : ScopeId) :
    (b.modifyScope s f).model.scope i =
      if i = s then f (b.model.scope s) else b.model.scope i := by
  have hs : b.model.scopes[s]? = some b.model.scopes[s] := Array.getElem?_eq_getElem h
  by_cases hi : i = s
  · subst hi
    simp [modifyScope, Model.scope, Array.getElem?_modify, hs]
  · simp [modifyScope, Model.scope, Array.getElem?_modify, hi, Ne.symm hi]

@[simp] theorem modifyScope_next : (b.modifyScope s f).next = b.next := by
  simp [modifyScope, next]

/-- The declaration that `declare` adds. -/
def newDecl (b : Draft) (s : ScopeId) (name : String) (kind : DeclKind) (loc : Loc)
    (static injected : Bool) (defines : Option ScopeId) : Declaration where
  owner := s
  index := (b.model.scope s).decls.length
  name := name
  kind := kind
  member := (b.model.scope s).isClass
  static := static
  injected := injected
  loc := loc
  defines := defines

theorem declare_scope (h : s < b.next) (i : ScopeId) :
    (b.declare s name kind loc static injected defines).model.scope i =
      if i = s then
        { b.model.scope s with
          decls := (b.model.scope s).decls ++ [b.newDecl s name kind loc static injected defines] }
      else b.model.scope i :=
  modifyScope_scope h i

@[simp] theorem declare_next :
    (b.declare s name kind loc static injected defines).next = b.next :=
  modifyScope_next

theorem declare_find (i : ScopeId) (n : String) :
    (b.declare s name kind loc static injected defines).model.index.find i n =
      if i = s ∧ n = name then
        b.model.index.find i n ++ [b.newDecl s name kind loc static injected defines]
      else b.model.index.find i n :=
  DeclIndex.find_add ..

/-! ### Ids -/

@[simp] theorem register_scopes : (b.register id s).model.scopes = b.model.scopes := by
  unfold register; split <;> rfl

@[simp] theorem register_scope : (b.register id s).model.scope i = b.model.scope i := by
  simp [Model.scope]

@[simp] theorem register_next : (b.register id s).next = b.next := by
  simp [next]

@[simp] theorem register_index : (b.register id s).model.index = b.model.index := by
  unfold register; split <;> rfl

@[simp] theorem register_uses : (b.register id s).model.uses = b.model.uses := by
  unfold register; split <;> rfl

@[simp] theorem register_classes : (b.register id s).model.classes = b.model.classes := by
  unfold register; split <;> rfl

@[simp] theorem register_skipped : (b.register id s).model.skipped = b.model.skipped := by
  unfold register; split <;> rfl

@[simp] theorem register_file : (b.register id s).model.file = b.model.file := by
  unfold register; split <;> rfl

@[simp] theorem register_deferred : (b.register id s).deferred = b.deferred := by
  unfold register; split <;> rfl

theorem register_ids : (b.register id s).model.ids =
    if id = "" ∨ (b.model.ids.lookup id).isSome then b.model.ids
    else b.model.ids ++ [(id, s)] := by
  unfold register; split <;> rfl

theorem lookup_register (id' : String) : (b.register id s).model.ids.lookup id' =
    (b.model.ids.lookup id').or (if id' = id ∧ id ≠ "" then some s else none) := by
  rw [register_ids]
  by_cases hid : id' = id
  · subst hid
    by_cases hempty : id' = ""
    · simp [hempty]
    · cases hold : b.model.ids.lookup id' with
      | none => simp [hold, hempty, List.lookup_append]
      | some j => simp [hold]
  · have hbeq : (id' == id) = false := by simpa using hid
    split
    · simp [hid]
    · simp [hid, List.lookup_append, List.lookup_cons, hbeq]

theorem mem_register_ids (h : e ∈ (b.register id s).model.ids) :
    e ∈ b.model.ids ∨ e = (id, s) := by
  rw [register_ids] at h
  split at h
  · exact .inl h
  · simpa using h

theorem lookup_register_of_isSome {id' : String} (h : (b.model.ids.lookup id').isSome) :
    (b.register id s).model.ids.lookup id' = b.model.ids.lookup id' := by
  rw [register_ids]
  split
  · rfl
  · rw [List.lookup_append]
    obtain ⟨j, hj⟩ := Option.isSome_iff_exists.mp h
    simp [hj]

theorem lookup_register_self (h : id ≠ "") :
    ((b.register id s).model.ids.lookup id).isSome := by
  rw [register_ids]
  split
  · next hid => exact hid.resolve_left h
  · rw [List.lookup_append]
    simp

/-! ### New scopes -/

theorem openScope_scope (h : p < b.next) (i : ScopeId) :
    (b.openScope p kind d).model.scope i =
      if i = b.next then { id := d.id, kind, name := d.name, loc := d.loc, parent := some p }
      else if i = p then
        { b.model.scope p with children := (b.model.scope p).children ++ [b.next] }
      else b.model.scope i := by
  have hp : b.model.scopes[p]? = some b.model.scopes[p] := Array.getElem?_eq_getElem h
  simp only [openScope, register_scopes, Model.scope, modifyScope, Array.getElem?_push,
    Array.size_modify, next]
  by_cases hi : i = b.model.scopes.size
  · simp [hi]
  · by_cases hip : i = p
    · subst hip
      simp [hi, Array.getElem?_modify, hp]
    · simp [hi, hip, Ne.symm hip, Array.getElem?_modify]

@[simp] theorem openScope_next : (b.openScope p kind d).next = b.next + 1 := by
  simp [openScope, next, modifyScope]

theorem openScope_ids :
    (b.openScope p kind d).model.ids = (b.register d.id b.next).model.ids := by
  rw [openScope, register_ids, register_ids]
  rfl

@[simp] theorem openScope_index : (b.openScope p kind d).model.index = b.model.index := by
  simp [openScope, modifyScope]

@[simp] theorem openScope_uses : (b.openScope p kind d).model.uses = b.model.uses := by
  simp [openScope, modifyScope]

@[simp] theorem openScope_classes : (b.openScope p kind d).model.classes = b.model.classes := by
  simp [openScope, modifyScope]

@[simp] theorem openScope_skipped : (b.openScope p kind d).model.skipped = b.model.skipped := by
  simp [openScope, modifyScope]

@[simp] theorem openScope_file : (b.openScope p kind d).model.file = b.model.file := by
  simp [openScope, modifyScope]

@[simp] theorem openScope_deferred : (b.openScope p kind d).deferred = b.deferred := by
  simp [openScope, modifyScope]

@[simp] theorem openClass_scope :
    (b.openClass p d).model.scope i = (b.openScope p .classScope d).model.scope i := rfl

@[simp] theorem openClass_next : (b.openClass p d).next = b.next + 1 :=
  openScope_next

@[simp] theorem openClass_classes :
    (b.openClass p d).model.classes = b.model.classes ++ [b.next] := by
  simp [openClass]

end Draft

end TwoPhase
