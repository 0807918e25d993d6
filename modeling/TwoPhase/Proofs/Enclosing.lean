import TwoPhase.Proofs.BuildRun

/-!
# Scopes within scopes

`Model.Within` is the order of the scope tree, said by the parents alone. The chain of a scope lists what
the scope lies within, from the inside out; where a class stands in that chain, the part before it is what
lies strictly inside the class, and the part from it on is the chain of the class itself.
-/

namespace TwoPhase

namespace Model

/-- Scope `p` is the parent of scope `i`. -/
def Inside (m : Model) (i p : ScopeId) : Prop :=
  (m.scope i).parent = some p

/-- Scope `i` is scope `j` or lies in it, at any depth. -/
abbrev Within (m : Model) : ScopeId → ScopeId → Prop :=
  Relation.ReflTransGen m.Inside

/-- Scope `i` lies in scope `j` and is not `j`. -/
def StrictlyWithin (m : Model) (i j : ScopeId) : Prop :=
  m.Within i j ∧ i ≠ j

/-- `c` is a class that holds scope `i`, and every other such class holds `c`. -/
structure InnermostClass (m : Model) (i c : ScopeId) : Prop where
  within : m.Within i c
  isClass : (m.scope c).isClass = true
  innermost : ∀ {c'}, m.Within i c' → (m.scope c').isClass = true → m.Within c c'

variable {m : Model}

theorem Within.eq_or_parent (h : m.Within i j) :
    i = j ∨ ∃ p, (m.scope i).parent = some p ∧ m.Within p j := by
  rcases h.cases_head with h | ⟨p, hp, h⟩
  · exact .inl h
  · exact .inr ⟨p, hp, h⟩

/-- The scopes that hold a scope hold each other. -/
theorem Within.total (hj : m.Within i j) (hk : m.Within i k) : m.Within j k ∨ m.Within k j :=
  hj.total_of_right_unique (fun _ _ _ h h' => Option.some.inj (h.symm.trans h')) hk

namespace TreeInv

/-- Induction from the outside in: what holds of a scope if it holds of its parent holds of all. -/
theorem parent_induction (H : m.TreeInv) {motive : ScopeId → Prop}
    (step : ∀ i, (∀ p, (m.scope i).parent = some p → motive p) → motive i) (i : ScopeId) :
    motive i := by
  induction i using Nat.strongRecOn with
  | _ i ih => exact step i fun p hp => ih p (H.parent_lt hp)

theorem within_le (H : m.TreeInv) (h : m.Within i j) : j ≤ i := by
  induction h with
  | refl => exact Nat.le_refl _
  | tail _ hstep ih => exact Nat.le_trans (Nat.le_of_lt (H.parent_lt hstep)) ih

theorem within_antisymm (H : m.TreeInv) (hij : m.Within i j) (hji : m.Within j i) : i = j :=
  Nat.le_antisymm (H.within_le hji) (H.within_le hij)

theorem ne_of_parent_within (H : m.TreeInv) (hp : (m.scope i).parent = some p)
    (h : m.Within p c) : i ≠ c := by
  rintro rfl
  exact Nat.not_lt.mpr (H.within_le h) (H.parent_lt hp)

theorem within_root (H : m.TreeInv) (hi : i < m.scopes.size) : m.Within i root := by
  induction i using H.parent_induction with
  | step i ih =>
    rcases Nat.eq_zero_or_pos i with rfl | hpos
    · exact .refl
    · obtain ⟨p, hp⟩ := H.has_parent hpos hi
      exact .head hp (ih p hp (Nat.lt_trans (H.parent_lt hp) hi))

theorem mem_children_iff (H : m.TreeInv) :
    c ∈ (m.scope p).children ↔ (m.scope c).parent = some p := by
  rw [← List.count_pos_iff, H.count_children]
  split <;> simp [*]

/-! ### The chain of a scope -/

theorem chain_eq (H : m.TreeInv) (i : ScopeId) :
    m.chain i = i :: ((m.scope i).parent.elim [] m.chain) := by
  rw [chain]
  split
  · next h => rw [h]; rfl
  · next p h => rw [h, if_pos (H.parent_lt h)]; rfl

theorem mem_chain (H : m.TreeInv) : j ∈ m.chain i ↔ m.Within i j := by
  induction i using H.parent_induction with
  | step i ih =>
    rw [H.chain_eq, List.mem_cons]
    constructor
    · rintro (rfl | h)
      · exact .refl
      · cases hp : (m.scope i).parent with
        | none => rw [hp] at h; exact absurd h List.not_mem_nil
        | some p =>
          rw [hp] at h
          exact .head hp ((ih p hp).mp h)
    · intro h
      rcases h.eq_or_parent with rfl | ⟨p, hp, h⟩
      · exact .inl rfl
      · rw [hp]
        exact .inr ((ih p hp).mpr h)

theorem chain_pairwise (H : m.TreeInv) (i : ScopeId) : (m.chain i).Pairwise m.Within := by
  induction i using H.parent_induction with
  | step i ih =>
    rw [H.chain_eq]
    refine List.pairwise_cons.mpr ⟨fun j hj => ?_, ?_⟩
    · rw [← H.mem_chain, H.chain_eq]
      exact .tail _ hj
    · cases hp : (m.scope i).parent with
      | none => exact .nil
      | some p => exact ih p hp

/-- From `c` on, the chain is the chain of `c`. -/
theorem dropWhile_chain (H : m.TreeInv) (h : m.Within i c) :
    (m.chain i).dropWhile (· != c) = m.chain c := by
  induction i using H.parent_induction with
  | step i ih =>
    rcases h.eq_or_parent with rfl | ⟨p, hp, hpc⟩
    · rw [H.chain_eq i]
      simp
    · have hne : (i != c) = true := by simpa using H.ne_of_parent_within hp hpc
      rw [H.chain_eq i, hp, List.dropWhile_cons, if_pos hne]
      exact ih p hp hpc

/-- Before `c`, the chain lists what lies strictly within `c`. -/
theorem mem_takeWhile_chain (H : m.TreeInv) (h : m.Within i c) :
    j ∈ (m.chain i).takeWhile (· != c) ↔ m.Within i j ∧ m.StrictlyWithin j c := by
  induction i using H.parent_induction with
  | step i ih =>
    rcases h.eq_or_parent with rfl | ⟨p, hp, hpc⟩
    · have hself : ¬ (i != i) = true := by simp
      rw [H.chain_eq i, List.takeWhile_cons, if_neg hself]
      refine iff_of_false List.not_mem_nil ?_
      rintro ⟨hij, hji, hne⟩
      exact hne (H.within_antisymm hji hij)
    · have hne : (i != c) = true := by simpa using H.ne_of_parent_within hp hpc
      rw [H.chain_eq i, hp, List.takeWhile_cons, if_pos hne, List.mem_cons, Option.elim_some,
        ih p hp hpc]
      constructor
      · rintro (rfl | ⟨hpj, hjc⟩)
        · exact ⟨.refl, h, H.ne_of_parent_within hp hpc⟩
        · exact ⟨.head hp hpj, hjc⟩
      · rintro ⟨hij, hjc⟩
        rcases hij.eq_or_parent with rfl | ⟨p', hp', hpj⟩
        · exact .inl rfl
        · cases hp.symm.trans hp'
          exact .inr ⟨hpj, hjc⟩

/-! ### The innermost class -/

theorem innermostClass_unique (H : m.TreeInv) (hc : m.InnermostClass i c)
    (hc' : m.InnermostClass i c') : c = c' :=
  H.within_antisymm (hc.innermost hc'.within hc'.isClass) (hc'.innermost hc.within hc.isClass)

theorem innermostClass_of_enclosingClass? (H : m.TreeInv) (h : m.enclosingClass? i = some c) :
    m.InnermostClass i c := by
  obtain ⟨hclass, before, after, hchain, hbefore⟩ := List.find?_eq_some_iff_append.mp h
  have hpair := H.chain_pairwise i
  rw [hchain] at hpair
  refine ⟨H.mem_chain.mp (by rw [hchain]; simp), hclass, fun {c'} hc' hclass' => ?_⟩
  have hmem := H.mem_chain.mpr hc'
  rw [hchain] at hmem
  rcases List.mem_append.mp hmem with hmem | hmem
  · exact absurd hclass' (by simpa using hbefore c' hmem)
  · rcases List.mem_cons.mp hmem with rfl | hmem
    · exact .refl
    · exact (List.pairwise_cons.mp (List.pairwise_append.mp hpair).2.1).1 c' hmem

theorem enclosingClass?_eq_none_iff (H : m.TreeInv) :
    m.enclosingClass? i = none ↔ ¬ ∃ c, m.InnermostClass i c := by
  constructor
  · rintro h ⟨c, hc⟩
    exact List.find?_eq_none.mp h c (H.mem_chain.mpr hc.within) hc.isClass
  · intro h
    cases hc : m.enclosingClass? i with
    | none => rfl
    | some c => exact absurd ⟨c, H.innermostClass_of_enclosingClass? hc⟩ h

theorem enclosingClass?_eq_some_iff (H : m.TreeInv) :
    m.enclosingClass? i = some c ↔ m.InnermostClass i c := by
  refine ⟨H.innermostClass_of_enclosingClass?, fun hc => ?_⟩
  cases hc' : m.enclosingClass? i with
  | none => exact absurd ⟨c, hc⟩ (H.enclosingClass?_eq_none_iff.mp hc')
  | some c' =>
    rw [H.innermostClass_unique hc (H.innermostClass_of_enclosingClass? hc')]

end TreeInv

end Model

end TwoPhase
