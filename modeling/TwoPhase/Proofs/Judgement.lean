import TwoPhase.Proofs.BaseSearch
import TwoPhase.Proofs.DependentBase
import TwoPhase.Proofs.OrdinaryLookup
import TwoPhase.Verdict

/-!
# The rule about names from dependent bases

`Model.Exempt` and `Model.Violates` state the rule about one use: which uses it says nothing about, and which
break it. `Model.Judged` adds what a finding reports beside its verdict. The evaluator follows the rule on
every use of every model that is built.
-/

namespace TwoPhase

/-- The use is written through `this`, with `typename` or with a qualifier. -/
def NameUse.IsExplicit (u : NameUse) : Prop :=
  u.viaThis = true ∨ u.typename = true ∨ u.qualifier ≠ ""

theorem NameUse.qualification_eq_unqualified_iff {u : NameUse} :
    u.qualification = .unqualified ↔ ¬ u.IsExplicit := by
  unfold qualification IsExplicit isQualified
  split
  · next h =>
    simp only [reduceCtorEq, false_iff, not_not]
    exact h.imp_right .inl
  · next h =>
    rw [not_or] at h
    split
    · next hq =>
      have hq : u.qualifier ≠ "" := by simpa using hq
      split <;> simp [hq]
    · next hq =>
      have hq : u.qualifier = "" := by simpa using hq
      simp [h, hq]

namespace Model

/-- Class `c` has a base that depends on its parameters. -/
def HasDependentBase (m : Model) (policy : Policy) (c : ScopeId) : Prop :=
  ∃ b ∈ (m.scope c).bases, (m.scope c).DependsOn policy b

/-- The rule does not concern the use: it stands in no class, its innermost class is no template or has no
dependent base, or it is explicit. -/
def Exempt (m : Model) (policy : Policy) (u : NameUse) : Prop :=
  (¬ ∃ c, m.InnermostClass u.scope c) ∨
    (∃ c, m.InnermostClass u.scope c ∧
      ((m.scope c).isTemplate = false ∨ ¬ m.HasDependentBase policy c)) ∨
    u.IsExplicit

/-- A member of the used name is declared in base `b` of class `c` or above it, where lookup does not see
it because the base is dependent. -/
def HiddenIn (m : Model) (policy : Policy) (follow : Bool) (u : NameUse) (c : ScopeId) (b : Base) :
    Prop :=
  (m.scope c).DependsOn policy b ∧ m.Inherits follow u.name b.type c

/-- The use breaks the rule: the rule concerns it, the name is found neither inside the innermost class nor
among what that class declares, and a dependent base hides a member of that name. -/
def Violates (m : Model) (policy : Policy) (follow : Bool) (u : NameUse) : Prop :=
  ¬ m.Exempt policy u ∧
    ∃ c, m.InnermostClass u.scope c ∧ ¬ m.FoundLocally u c ∧ ¬ m.FoundInClass u c ∧
      ∃ b ∈ (m.scope c).bases, m.HiddenIn policy follow u c b

/-- The rule concerns the use, whose innermost class is `c`. -/
structure Concerns (m : Model) (policy : Policy) (u : NameUse) (c : ScopeId) : Prop where
  innermost : m.InnermostClass u.scope c
  isTemplate : (m.scope c).isTemplate = true
  hasDependentBase : m.HasDependentBase policy c
  notExplicit : ¬ u.IsExplicit

/-- **What a finding reports**, reason by reason. A violation names the first base that hides the name. -/
inductive Judged (m : Model) (policy : Policy) (follow : Bool) (u : NameUse) : Finding → Prop
  | notInClassTemplate :
    (∀ c, m.InnermostClass u.scope c → (m.scope c).isTemplate = false) →
    Judged m policy follow u
      { use := u, verdict := .notApplicable, reason := .notInClassTemplate }
  | noDependentBase :
    m.InnermostClass u.scope c → (m.scope c).isTemplate = true → ¬ m.HasDependentBase policy c →
    Judged m policy follow u
      { use := u, verdict := .notApplicable, reason := .noDependentBase, enclosing := some c }
  | qualified :
    m.InnermostClass u.scope c → (m.scope c).isTemplate = true → m.HasDependentBase policy c →
    u.IsExplicit →
    Judged m policy follow u
      { use := u, verdict := .notApplicable, reason := .qualified, enclosing := some c
        qualification := u.qualification }
  | localName :
    m.Concerns policy u c → m.FoundLocally u c → m.Resolves u c (.localName d) →
    Judged m policy follow u
      { use := u, verdict := .compliant, reason := .localName, enclosing := some c
        resolution := .localName d }
  | ownMember :
    m.Concerns policy u c → ¬ m.FoundLocally u c → m.FoundInClass u c →
    m.Resolves u c (.member d) →
    Judged m policy follow u
      { use := u, verdict := .compliant, reason := .ownMember, enclosing := some c
        resolution := .member d }
  | notInDependentBase :
    m.Concerns policy u c → ¬ m.FoundLocally u c → ¬ m.FoundInClass u c → m.Resolves u c r →
    (∀ b ∈ (m.scope c).bases, ¬ m.HiddenIn policy follow u c b) →
    Judged m policy follow u
      { use := u, verdict := .compliant, reason := .notInDependentBase, enclosing := some c
        resolution := r }
  | dependentBaseMember :
    m.Concerns policy u c → ¬ m.FoundLocally u c → ¬ m.FoundInClass u c → m.Resolves u c r →
    (m.scope c).bases = before ++ b :: after → m.HiddenIn policy follow u c b →
    (∀ b' ∈ before, ¬ m.HiddenIn policy follow u c b') →
    Judged m policy follow u
      { use := u, verdict := .nonCompliant, reason := .dependentBaseMember, enclosing := some c
        resolution := r, base := some b }

variable {m : Model} {policy : Policy} {follow : Bool} {u : NameUse}

theorem Concerns.not_exempt (H : m.TreeInv) (h : m.Concerns policy u c) : ¬ m.Exempt policy u := by
  rintro (hnone | ⟨c', hc', hexempt⟩ | hexplicit)
  · exact hnone ⟨c, h.innermost⟩
  · obtain rfl := H.innermostClass_unique h.innermost hc'
    rcases hexempt with htemplate | hbase
    · exact absurd h.isTemplate (by simp [htemplate])
    · exact hbase h.hasDependentBase
  · exact h.notExplicit hexplicit

/-- The reported verdict is not applicable exactly on exempt uses. -/
theorem Judged.notApplicable_iff (H : m.TreeInv) (h : m.Judged policy follow u f) :
    f.verdict = .notApplicable ↔ m.Exempt policy u := by
  cases h with
  | notInClassTemplate htemplate =>
    refine iff_of_true rfl ?_
    by_cases hclass : ∃ c, m.InnermostClass u.scope c
    · obtain ⟨c, hc⟩ := hclass
      exact .inr (.inl ⟨c, hc, .inl (htemplate c hc)⟩)
    · exact .inl hclass
  | noDependentBase hc _ hbase => exact iff_of_true rfl (.inr (.inl ⟨_, hc, .inr hbase⟩))
  | qualified _ _ _ hexplicit => exact iff_of_true rfl (.inr (.inr hexplicit))
  | localName hc | ownMember hc | notInDependentBase hc | dependentBaseMember hc =>
    exact iff_of_false (by simp) (hc.not_exempt H)

/-- The reported verdict is non-compliant exactly on violations. -/
theorem Judged.nonCompliant_iff (H : m.TreeInv) (h : m.Judged policy follow u f) :
    f.verdict = .nonCompliant ↔ m.Violates policy follow u := by
  have hexempt := h.notApplicable_iff H
  cases h with
  | notInClassTemplate | noDependentBase | qualified =>
    exact iff_of_false (by simp) fun hv => hv.1 (hexempt.mp rfl)
  | localName hc hfound =>
    refine iff_of_false (by simp) fun ⟨_, c', hc', hnot, _⟩ => ?_
    exact hnot (H.innermostClass_unique hc.innermost hc' ▸ hfound)
  | ownMember hc _ hfound =>
    refine iff_of_false (by simp) fun ⟨_, c', hc', _, hnot, _⟩ => ?_
    exact hnot (H.innermostClass_unique hc.innermost hc' ▸ hfound)
  | notInDependentBase hc _ _ _ hnone =>
    refine iff_of_false (by simp) fun ⟨_, c', hc', _, _, b, hb, hhidden⟩ => ?_
    obtain rfl := H.innermostClass_unique hc.innermost hc'
    exact hnone b hb hhidden
  | dependentBaseMember hc hlocal hown _ hbases hhidden =>
    refine iff_of_true rfl ⟨hc.not_exempt H, _, hc.innermost, hlocal, hown, _, ?_, hhidden⟩
    simp [hbases]

/-! ### The evaluator -/

theorem lookup_map_pair [BEq α] [LawfulBEq α] {l : List α} {a : α} (f : α → β) (h : a ∈ l) :
    (l.map fun a => (a, f a)).lookup a = some (f a) := by
  induction l with
  | nil => contradiction
  | cons x l ih =>
    by_cases hx : a = x
    · subst hx
      simp
    · have hbeq : (a == x) = false := by simpa using hx
      rw [List.map_cons, List.lookup_cons, hbeq]
      exact ih (List.mem_of_ne_of_mem hx h)

/-- The class around a scope has been classified. -/
theorem Inv.lookup_enclosingClass? (H : m.Inv) (policy : Policy) (follow : Bool)
    (h : m.enclosingClass? i = some c) :
    (m.evaluator policy follow).classes.lookup c = some ((m.scope c).classification policy) := by
  have hclass : (m.scope c).kind = .classScope := by
    simpa [Scope.isClass] using (H.innermostClass_of_enclosingClass? h).isClass
  exact lookup_map_pair _ (H.mem_classes.mpr hclass)

theorem dependentBases_eq_nil_iff :
    (m.scope c).dependentBases policy = [] ↔ ¬ m.HasDependentBase policy c := by
  simp only [List.eq_nil_iff_forall_not_mem, Scope.mem_dependentBases, HasDependentBase]
  simp

/-- Passing the dependent bases in order finds the first that hides the name. -/
theorem find?_dependentBases_eq_some (H : m.TreeInv)
    (h : ((m.scope c).dependentBases policy).find?
      (fun b => m.reachable follow u.name b.type c) = some b) :
    ∃ before after, (m.scope c).bases = before ++ b :: after ∧ m.HiddenIn policy follow u c b ∧
      ∀ b' ∈ before, ¬ m.HiddenIn policy follow u c b' := by
  rw [Scope.dependentBases_eq, List.find?_filter] at h
  obtain ⟨hb, before, after, hbases, hbefore⟩ := List.find?_eq_some_iff_append.mp h
  simp only [Bool.decide_and, Bool.decide_eq_true, Bool.and_eq_true,
    Scope.classify_dependent_iff, reachable_iff H, Bool.not_eq_true', Bool.and_eq_false_imp] at hb hbefore
  refine ⟨before, after, hbases, hb, fun b' hb' hhidden => ?_⟩
  exact absurd (hbefore b' hb' hhidden.1) (by simpa using (reachable_iff H).mpr hhidden.2)

theorem find?_dependentBases_eq_none (H : m.TreeInv)
    (h : ((m.scope c).dependentBases policy).find?
      (fun b => m.reachable follow u.name b.type c) = none) :
    ∀ b ∈ (m.scope c).bases, ¬ m.HiddenIn policy follow u c b := by
  rintro b hb ⟨hdep, hinherits⟩
  have hnot := List.find?_eq_none.mp h b (Scope.mem_dependentBases.mpr ⟨hb, hdep⟩)
  exact hnot ((reachable_iff H).mpr hinherits)

theorem evaluateBases_judged (H : m.TreeInv) (hc : m.Concerns policy u c)
    (hlocal : ¬ m.FoundLocally u c) (hown : ¬ m.FoundInClass u c) (hr : m.Resolves u c r) :
    m.Judged policy follow u
      ((m.evaluator policy follow).evaluateBases u c ((m.scope c).dependentBases policy) r) := by
  unfold Evaluator.evaluateBases
  split
  · next b hb =>
    obtain ⟨before, after, hsplit, hhidden, hbefore⟩ := find?_dependentBases_eq_some H hb
    exact .dependentBaseMember hc hlocal hown hr hsplit hhidden hbefore
  · next hnone =>
    exact .notInDependentBase hc hlocal hown hr (find?_dependentBases_eq_none H hnone)

theorem evaluateIn_judged (H : m.TreeInv) (hc : m.Concerns policy u c) :
    m.Judged policy follow u
      ((m.evaluator policy follow).evaluateIn u c ((m.scope c).dependentBases policy)) := by
  have hwithin := hc.innermost.within
  have hresolves := H.ordinary_resolves hwithin
  have hordinary : (m.evaluator policy follow).model.ordinary u c = m.ordinary u c := rfl
  rw [Evaluator.evaluateIn, hordinary]
  generalize m.ordinary u c = r at hresolves
  cases r with
  | localName d => exact .localName hc hresolves.foundLocally hresolves
  | member d =>
    exact .ownMember hc (not_foundLocally hresolves.nearest) hresolves.foundInClass hresolves
  | enclosing d =>
    obtain ⟨hlocal, hown⟩ := hresolves.not_found_of_enclosing H hwithin
    exact evaluateBases_judged H hc hlocal hown hresolves
  | notFound =>
    obtain ⟨hlocal, hown⟩ := hresolves.not_found_of_notFound H hwithin
    exact evaluateBases_judged H hc hlocal hown hresolves

/-- The evaluator judges every use, and reports what the rule says. -/
theorem Inv.evaluate?_judged (H : m.Inv) (policy : Policy) (follow : Bool) (u : NameUse) :
    ∃ f, (m.evaluator policy follow).evaluate? u = some f ∧ m.Judged policy follow u f := by
  unfold Evaluator.evaluate?
  split
  · next hnone =>
    refine ⟨_, rfl, .notInClassTemplate fun c hc => ?_⟩
    have henclosing := H.enclosingClass?_eq_some_iff.mpr hc
    have hclass := hc.isClass
    simpa [evaluator, henclosing, Scope.isClassTemplate, hclass] using hnone
  · next c hc =>
    obtain ⟨henclosing, htemplate⟩ := Option.filter_eq_some_iff.mp hc
    have hinnermost := H.innermostClass_of_enclosingClass? henclosing
    have htemplate : (m.scope c).isTemplate = true := (Bool.and_eq_true_iff.mp htemplate).2
    rw [H.lookup_enclosingClass? policy follow henclosing]
    have hbases : ((m.scope c).classification policy).dependentBases =
        (m.scope c).dependentBases policy := rfl
    simp only [Option.bind_eq_bind, Option.bind_some, hbases]
    split
    · next hnil =>
      exact ⟨_, rfl, .noDependentBase hinnermost htemplate (dependentBases_eq_nil_iff.mp hnil)⟩
    · next hcons =>
      have hbase : m.HasDependentBase policy c := not_not.mp (mt dependentBases_eq_nil_iff.mpr hcons)
      split
      · next hunqualified =>
        have hnot := NameUse.qualification_eq_unqualified_iff.mp hunqualified
        exact ⟨_, rfl, evaluateIn_judged H.toTreeInv ⟨hinnermost, htemplate, hbase, hnot⟩⟩
      · next hqualified =>
        have hexplicit := not_not.mp (mt NameUse.qualification_eq_unqualified_iff.mpr hqualified)
        exact ⟨_, rfl, .qualified hinnermost htemplate hbase hexplicit⟩

end Model

/-- **The evaluator follows the rule on every use**: its finding says what the rule says, and its verdict is
not applicable exactly where the rule exempts the use and non-compliant exactly where the use violates it. -/
theorem CompilationUnit.evaluate?_follows_rule (unit : CompilationUnit) (policy : Policy)
    (follow : Bool) (u : NameUse) :
    ∃ f, (unit.model.evaluator policy follow).evaluate? u = some f ∧
      unit.model.Judged policy follow u f ∧
      (f.verdict = .notApplicable ↔ unit.model.Exempt policy u) ∧
      (f.verdict = .nonCompliant ↔ unit.model.Violates policy follow u) := by
  have H := unit.model_inv
  obtain ⟨f, hf, hjudged⟩ := H.evaluate?_judged policy follow u
  exact ⟨f, hf, hjudged, hjudged.notApplicable_iff H.toTreeInv, hjudged.nonCompliant_iff H.toTreeInv⟩

/-- Class template `D` is derived from `B<T>`, which declares `g`, and its member `f` uses that name twice, the
second time through `this`. -/
def hiddenNameUnit : CompilationUnit where
  file := "a.cpp"
  decls := some
    [.node { kind := "class", name := "B", template := true, templateParams := ["T"] }
        [.node { kind := "function", name := "g" } []],
      .node { kind := "class", name := "D", template := true, templateParams := ["T"]
              bases := [some { type := .node { name := "B" } [.node { name := "T" } []] }] }
        [.node { kind := "function", name := "f"
                 uses := [some { name := "g" }, some { name := "g", viaThis := true }] } []]]

/-- A use of `g` in the member `f`. -/
def hiddenName (viaThis : Bool) : NameUse where
  name := "g"
  loc := { file := "a.cpp" }
  scope := 4
  form := ""
  qualifier := ""
  viaThis := viaThis
  typename := false

/-- The bare use violates the rule, and the one through `this` is exempt. -/
theorem CompilationUnit.evaluate?_follows_rule_sample :
    hiddenNameUnit.model.uses = [hiddenName false, hiddenName true] ∧
    hiddenNameUnit.model.Violates .lenient false (hiddenName false) ∧
    hiddenNameUnit.model.Exempt .lenient (hiddenName true) := by
  refine ⟨by decide +kernel, ?_, ?_⟩
  · obtain ⟨f, hf, -, -, hviolates⟩ := hiddenNameUnit.evaluate?_follows_rule .lenient false (hiddenName false)
    have hverdict : ((hiddenNameUnit.model.evaluator .lenient false).evaluate? (hiddenName false)).map
        (·.verdict) = some .nonCompliant := by decide +kernel
    rw [hf] at hverdict
    exact hviolates.mp (Option.some.inj hverdict)
  · obtain ⟨f, hf, -, hexempt, -⟩ := hiddenNameUnit.evaluate?_follows_rule .lenient false (hiddenName true)
    have hverdict : ((hiddenNameUnit.model.evaluator .lenient false).evaluate? (hiddenName true)).map
        (·.verdict) = some .notApplicable := by decide +kernel
    rw [hf] at hverdict
    exact hexempt.mp (Option.some.inj hverdict)

end TwoPhase
