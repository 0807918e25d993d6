import TwoPhase.Proofs.BaseSearch
import TwoPhase.Proofs.BuildRun
import Mathlib.Data.List.Chain
import Mathlib.Data.List.Perm.Subperm

/-!
# Members that are inherited along chains of bases

A class inherits a member if a chain of base clauses leads to a class that owns it. The base clauses of a unit
may form cycles, meet again or lead nowhere; the search still answers whether there is such a chain, because
a chain that comes back to a class can be cut short, so that chains without repetitions are enough and these
are no longer than the list of classes.
-/

namespace TwoPhase

/-- If `b` can be reached from `a`, then also along a chain that passes no element twice. -/
theorem exists_nodup_chain {r : α → α → Prop} (h : Relation.ReflTransGen r a b) :
    ∃ l, (a :: l).IsChain r ∧ (a :: l).getLast? = some b ∧ (a :: l).Nodup := by
  induction h using Relation.ReflTransGen.head_induction_on with
  | refl => exact ⟨[], .singleton b, rfl, List.nodup_singleton b⟩
  | @head a c hac _ ih =>
    obtain ⟨l, hchain, hlast, hnodup⟩ := ih
    by_cases ha : a ∈ c :: l
    · -- the chain from `c` comes back to `a`: what follows there is enough
      obtain ⟨before, after, hsplit⟩ := List.append_of_mem ha
      rw [hsplit] at hchain hlast hnodup
      refine ⟨after, hchain.right_of_append, ?_, (List.nodup_append.mp hnodup).2.1⟩
      simpa using hlast
    · exact ⟨c :: l, hchain.cons_cons hac, by simpa using hlast, List.nodup_cons.mpr ⟨ha, hnodup⟩⟩

namespace Model

/-- The classes of `chain` lead from the class that `t` denotes in the base clause of `source` to one that
owns a member: each is denoted by an entry in the base clause of the class before it. -/
structure BaseChain (m : Model) (name : String) (t : TypeRef) (source : ScopeId)
    (chain : List ScopeId) : Prop where
  head : chain.head? = m.resolveBase? t source
  derives : chain.IsChain m.DerivesFrom
  owns : ∃ c, chain.getLast? = some c ∧ m.OwnsMember c name

variable {m : Model} {t : TypeRef} {source : ScopeId} {name : String} {chain : List ScopeId}

theorem BaseChain.inherits (h : m.BaseChain name t source chain) :
    m.Inherits true name t source := by
  obtain ⟨hhead, hderives, d, hlast, howns⟩ := h
  cases chain with
  | nil => cases hlast
  | cons c l =>
    refine ⟨c, hhead.symm, d, howns, ?_⟩
    rw [List.getLast?_eq_some_getLast (List.cons_ne_nil c l)] at hlast
    exact List.relationReflTransGen_of_exists_isChain_cons l hderives (Option.some.inj hlast)

/-- The classes of a chain are classes. -/
theorem BaseChain.isClass (h : m.BaseChain name t source chain) (hc : c ∈ chain) :
    (m.scope c).isClass = true := by
  refine h.derives.induction (fun c => (m.scope c).isClass = true) chain
    (fun _ _ hstep _ => hstep.isClass) (fun hne => ?_) c hc
  have hhead := h.head
  rw [List.head?_eq_some_head hne] at hhead
  exact isClass_of_resolveBase? hhead.symm

/-- A member that is inherited is inherited along a chain that passes no class twice. -/
theorem Inherits.exists_chain (h : m.Inherits true name t source) :
    ∃ chain, m.BaseChain name t source chain ∧ chain.Nodup := by
  obtain ⟨c, hc, d, hmember, hpath⟩ := h
  obtain ⟨l, hchain, hlast, hnodup⟩ := exists_nodup_chain (if_pos rfl ▸ hpath)
  exact ⟨c :: l, ⟨hc.symm, hchain, d, hlast, hmember⟩, hnodup⟩

/-- A chain that passes no class twice is no longer than the list of classes. -/
theorem BaseChain.length_le (H : m.Inv) (h : m.BaseChain name t source chain) (hnodup : chain.Nodup) :
    chain.length ≤ m.classes.length := by
  refine (List.subperm_of_subset hnodup fun c hc => ?_).length_le
  rw [H.mem_classes]
  simpa [Scope.isClass] using h.isClass hc

end Model

/-- **A member is reachable exactly if a chain of base clauses leads to it**, whatever graph the base clauses
form. It is enough to look at chains that pass no class twice, and these are no longer than the list of
classes. If bases are not followed, the class that the base denotes has to own the member itself. -/
theorem CompilationUnit.reachable_iff_baseChain (u : CompilationUnit) (name : String) (b : Base)
    (source : ScopeId) :
    (u.model.reachable true name b.type source = true ↔
      ∃ chain, u.model.BaseChain name b.type source chain) ∧
    (u.model.reachable true name b.type source = true ↔
      ∃ chain, u.model.BaseChain name b.type source chain ∧ chain.Nodup ∧
        chain.length ≤ u.model.classes.length) ∧
    (u.model.reachable false name b.type source = true ↔
      ∃ c, u.model.resolveBase? b.type source = some c ∧ u.model.OwnsMember c name) := by
  have H := u.model_inv
  have hsearch : u.model.Inherits true name b.type source →
      ∃ chain, u.model.BaseChain name b.type source chain ∧ chain.Nodup ∧
        chain.length ≤ u.model.classes.length := by
    intro h
    obtain ⟨chain, hchain, hnodup⟩ := h.exists_chain
    exact ⟨chain, hchain, hnodup, hchain.length_le H hnodup⟩
  simp only [Model.reachable_iff H.toTreeInv]
  refine ⟨⟨fun h => ?_, fun h => ?_⟩, ⟨hsearch, fun h => ?_⟩, ?_⟩
  · obtain ⟨chain, hchain, _⟩ := hsearch h
    exact ⟨chain, hchain⟩
  · obtain ⟨chain, hchain⟩ := h
    exact hchain.inherits
  · obtain ⟨chain, hchain, _⟩ := h
    exact hchain.inherits
  · simp [Model.Inherits]

end TwoPhase
