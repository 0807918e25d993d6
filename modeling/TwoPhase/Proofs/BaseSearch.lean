import TwoPhase.Proofs.BuildRun
import TwoPhase.Lookup
import Mathlib.Logic.Relation

/-!
# The search through base classes

The base clauses form a graph of any shape. `Model.search` keeps a list of the classes not yet visited;
dropping a visited class from it loses no member, because a path that comes back to the class may as well
start there. So the search finds a member exactly if some derivation path leads to a class that owns it.
-/

namespace TwoPhase

namespace Model

/-- The base clause of `c` has an entry that denotes `d`. -/
def DerivesFrom (m : Model) (c d : ScopeId) : Prop :=
  ∃ b ∈ (m.scope c).bases, m.resolveBase? b.type c = some d

/-- A path of base clauses from `c` to `d` all of whose classes are in `fresh`. -/
inductive PathIn (m : Model) (fresh : List ScopeId) : ScopeId → ScopeId → Prop
  | refl : c ∈ fresh → PathIn m fresh c c
  | head : c ∈ fresh → m.DerivesFrom c c' → PathIn m fresh c' d → PathIn m fresh c d

variable {m : Model} {fresh fresh' work : List ScopeId}

theorem mem_baseClasses : d ∈ m.baseClasses c ↔ m.DerivesFrom c d := by
  simp [baseClasses, DerivesFrom]

theorem PathIn.source_mem (h : m.PathIn fresh c d) : c ∈ fresh := by
  cases h <;> assumption

theorem PathIn.mono (hsub : ∀ i ∈ fresh, i ∈ fresh') (h : m.PathIn fresh c d) :
    m.PathIn fresh' c d := by
  induction h with
  | refl hc => exact .refl (hsub _ hc)
  | head hc hstep _ ih => exact .head (hsub _ hc) hstep ih

/-- A path avoids a class, ends in it, or goes on from it without coming back. -/
theorem PathIn.erase (hnodup : fresh.Nodup) (x : ScopeId) (h : m.PathIn fresh c d) :
    m.PathIn (fresh.erase x) c d ∨ d = x ∨
      ∃ y, m.DerivesFrom x y ∧ m.PathIn (fresh.erase x) y d := by
  induction h with
  | @refl c hc =>
    by_cases hx : c = x
    · exact .inr (.inl hx)
    · exact .inl (.refl ((hnodup.mem_erase_iff).mpr ⟨hx, hc⟩))
  | @head c c' d hc hstep _ ih =>
    rcases ih with ih | ih | ih
    · by_cases hx : c = x
      · exact .inr (.inr ⟨c', hx ▸ hstep, ih⟩)
      · exact .inl (.head ((hnodup.mem_erase_iff).mpr ⟨hx, hc⟩) hstep ih)
    · exact .inr (.inl ih)
    · exact .inr (.inr ih)

/-- The search finds a member exactly if a path through fresh classes leads to its class. -/
theorem search_iff (hnodup : fresh.Nodup) :
    m.search name fresh work = true ↔
      ∃ c ∈ work, ∃ d, m.PathIn fresh c d ∧ m.declaresMember d name = true := by
  fun_induction search m name fresh work with
  | case1 fresh => simp
  | case2 fresh c work hc ih =>
    rw [Bool.or_eq_true, ih (hnodup.erase c)]
    constructor
    · rintro (hmem | ⟨x, hx, d, hpath, hmem⟩)
      · exact ⟨c, .head _, c, .refl hc, hmem⟩
      · have hpath' := hpath.mono fun i hi => List.mem_of_mem_erase hi
        rcases List.mem_append.mp hx with hx | hx
        · exact ⟨c, .head _, d, .head hc (mem_baseClasses.mp hx) hpath', hmem⟩
        · exact ⟨x, .tail _ hx, d, hpath', hmem⟩
    · rintro ⟨x, hx, d, hpath, hmem⟩
      -- what a path from the work list reaches, it reaches before or after `c`
      rcases hpath.erase hnodup c with havoid | rfl | ⟨y, hy, hpath⟩
      · rcases List.mem_cons.mp hx with rfl | hx
        · exact absurd havoid.source_mem hnodup.not_mem_erase
        · exact .inr ⟨x, List.mem_append_right _ hx, d, havoid, hmem⟩
      · exact .inl hmem
      · exact .inr ⟨y, List.mem_append_left _ (mem_baseClasses.mpr hy), d, hpath, hmem⟩
  | case3 fresh c work hc ih =>
    rw [ih hnodup]
    constructor
    · rintro ⟨x, hx, h⟩
      exact ⟨x, .tail _ hx, h⟩
    · rintro ⟨x, hx, d, hpath, hmem⟩
      rcases List.mem_cons.mp hx with rfl | hx
      · exact absurd hpath.source_mem hc
      · exact ⟨x, hx, d, hpath, hmem⟩

/-! ### Base types denote classes -/

theorem isClass_of_classById? {id : String} (h : m.classById? id = some c) : (m.scope c).isClass = true :=
  (Option.filter_eq_some_iff.mp h).2

theorem isClass_of_classNamed? (h : m.classNamed? name source = some c) :
    (m.scope c).isClass = true := by
  unfold classNamed? at h
  dsimp only at h
  split at h
  · cases h
  · split at h
    · cases h
    · obtain ⟨_, _, h⟩ := Option.bind_eq_some_iff.mp h
      obtain ⟨target, _, h⟩ := Option.bind_eq_some_iff.mp h
      split at h
      · next hclass => cases h; exact hclass
      · cases h

theorem isClass_of_resolveBase? (h : m.resolveBase? t source = some c) :
    (m.scope c).isClass = true := by
  unfold resolveBase? at h
  split at h
  · cases h
  · rw [Option.orElse_eq_orElse, Option.orElse_eq_or, Option.or_eq_some_iff] at h
    rcases h with h | ⟨_, h⟩
    · exact isClass_of_classById? h
    · exact isClass_of_classNamed? h

theorem DerivesFrom.isClass (h : m.DerivesFrom c d) : (m.scope d).isClass = true := by
  obtain ⟨_, _, h⟩ := h
  exact isClass_of_resolveBase? h

/-- Among all scopes of the table, paths of base clauses are not restricted. -/
theorem pathIn_range_iff (hc : (m.scope c).isClass = true) :
    m.PathIn (List.range m.scopes.size) c d ↔ Relation.ReflTransGen m.DerivesFrom c d := by
  constructor
  · intro h
    induction h with
    | refl => exact .refl
    | head _ hstep _ ih => exact .head hstep (ih hstep.isClass)
  · intro h
    induction h using Relation.ReflTransGen.head_induction_on with
    | refl => exact .refl (List.mem_range.mpr (lt_size_of_isClass hc))
    | head hstep _ ih =>
      exact .head (List.mem_range.mpr (lt_size_of_isClass hc)) hstep (ih hstep.isClass)

/-- Class `c` itself declares `name`, neither as its injected name nor as a template parameter. -/
def OwnsMember (m : Model) (c : ScopeId) (name : String) : Prop :=
  ∃ d ∈ (m.scope c).decls, d.name = name ∧ d.injected = false ∧ d.kind ≠ .templateParam

theorem TreeInv.declaresMember_iff (H : m.TreeInv) :
    m.declaresMember c name = true ↔ m.OwnsMember c name := by
  simp only [declaresMember, OwnsMember, List.any_eq_true, H.mem_declared, Bool.and_eq_true,
    Bool.not_eq_true', bne_iff_ne, and_assoc]

/-- The class that `t` denotes, or one that it is derived from if bases are followed, owns the member. -/
def Inherits (m : Model) (follow : Bool) (name : String) (t : TypeRef) (source : ScopeId) : Prop :=
  ∃ c, m.resolveBase? t source = some c ∧ ∃ d, m.OwnsMember d name ∧
    if follow = true then Relation.ReflTransGen m.DerivesFrom c d else c = d

theorem reachable_iff (H : m.TreeInv) {t : TypeRef} :
    m.reachable follow name t source = true ↔ m.Inherits follow name t source := by
  unfold reachable Inherits
  cases h : m.resolveBase? t source with
  | none => simp
  | some c =>
    have hclass := isClass_of_resolveBase? h
    cases follow with
    | false => simp [H.declaresMember_iff]
    | true =>
      simp only [if_true, search_iff List.nodup_range, List.mem_singleton, exists_eq_left,
        pathIn_range_iff hclass, H.declaresMember_iff, Option.some.injEq, exists_eq_left']
      exact exists_congr fun d => and_comm

end Model

end TwoPhase
