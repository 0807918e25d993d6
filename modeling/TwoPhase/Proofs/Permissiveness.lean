import TwoPhase.Proofs.Judgement

/-!
# Options that report more

Two options widen what the rule reports: the conservative policy counts more bases as dependent than the
lenient one, and following inherited bases reaches more members than looking at the base alone. A use that is
reported under the narrower options is reported under the wider ones, for a base that stands at the same
place of the base clause or before it.
-/

namespace TwoPhase

/-- How uses are judged: which bases count as dependent, and whether their own bases are searched. -/
structure JudgingOptions where
  policy : Policy
  follow : Bool

/-- A step from narrower to wider options. -/
inductive JudgingOptions.Widens : JudgingOptions → JudgingOptions → Prop
  | conservative (follow : Bool) : Widens ⟨.lenient, follow⟩ ⟨.conservative, follow⟩
  | following (policy : Policy) : Widens ⟨policy, false⟩ ⟨policy, true⟩

theorem Scope.DependsOn.conservative {c : Scope} {policy : Policy} {b : Base}
    (h : c.DependsOn policy b) : c.DependsOn .conservative b := by
  obtain ⟨htemplate, hmentions | ⟨hnone, hunresolved, -⟩⟩ := h
  · exact ⟨htemplate, .inl hmentions⟩
  · exact ⟨htemplate, .inr ⟨hnone, hunresolved, rfl⟩⟩

namespace Model

variable {m : Model} {u : NameUse} {o o' : JudgingOptions}

/-- A member that the base itself declares is found as well if its bases are followed. -/
theorem Inherits.following {t : TypeRef} {follow : Bool}
    (h : m.Inherits follow name t source) : m.Inherits true name t source := by
  obtain ⟨c, hc, d, hd, hpath⟩ := h
  refine ⟨c, hc, d, hd, ?_⟩
  cases follow with
  | false =>
    obtain rfl : c = d := hpath
    exact .refl
  | true => exact hpath

/-- The base at place `n` is the first of class `c` that hides the name of the use. -/
structure FirstHidden (m : Model) (o : JudgingOptions) (u : NameUse) (c : ScopeId) (n : Nat)
    (b : Base) : Prop where
  place : (m.scope c).bases[n]? = some b
  hidden : m.HiddenIn o.policy o.follow u c b
  first : ∀ k < n, ∀ b', (m.scope c).bases[k]? = some b' → ¬ m.HiddenIn o.policy o.follow u c b'

theorem HiddenIn.widen (ho : o.Widens o') (h : m.HiddenIn o.policy o.follow u c b) :
    m.HiddenIn o'.policy o'.follow u c b := by
  cases ho with
  | conservative => exact ⟨h.1.conservative, h.2⟩
  | following => exact ⟨h.1, h.2.following⟩

/-- Under wider options the first base that hides the name comes no later. -/
theorem FirstHidden.le_of_widens (ho : o.Widens o') (h : m.FirstHidden o u c n b)
    (h' : m.FirstHidden o' u c n' b') : n' ≤ n := by
  by_contra hlt
  exact h'.first n (Nat.lt_of_not_le hlt) b h.place (h.hidden.widen ho)

theorem Exempt.of_widens (ho : o.Widens o') (h : m.Exempt o'.policy u) : m.Exempt o.policy u := by
  rcases h with hnone | ⟨c, hc, htemplate | hbase⟩ | hexplicit
  · exact .inl hnone
  · exact .inr (.inl ⟨c, hc, .inl htemplate⟩)
  · refine .inr (.inl ⟨c, hc, .inr ?_⟩)
    rintro ⟨b, hb, hdep⟩
    cases ho with
    | conservative => exact hbase ⟨b, hb, hdep.conservative⟩
    | following => exact hbase ⟨b, hb, hdep⟩
  · exact .inr (.inr hexplicit)

theorem Violates.widen (ho : o.Widens o') (h : m.Violates o.policy o.follow u) :
    m.Violates o'.policy o'.follow u := by
  obtain ⟨hconcerned, c, hc, hlocal, hown, b, hb, hhidden⟩ := h
  refine ⟨fun hexempt => hconcerned (hexempt.of_widens ho), c, hc, hlocal, hown, b, hb, ?_⟩
  exact hhidden.widen ho

/-- A reported finding names the innermost class and the first base that hides the name. -/
theorem Judged.firstHidden (h : m.Judged o.policy o.follow u f) (hf : f.verdict = .nonCompliant) :
    ∃ c n b, m.InnermostClass u.scope c ∧ f.enclosing = some c ∧ f.base = some b ∧
      m.FirstHidden o u c n b := by
  cases h with
  | notInClassTemplate | noDependentBase | qualified | localName | ownMember | notInDependentBase =>
    contradiction
  | @dependentBaseMember c r before b after hc hlocal hown hr hbases hhidden hbefore =>
    refine ⟨c, before.length, b, hc.innermost, rfl, rfl, ?_, hhidden, fun k hk b' hb' => ?_⟩
    · simp [hbases]
    · rw [hbases, List.getElem?_append_left hk] at hb'
      exact hbefore b' (List.mem_of_getElem? hb')

/-- If the use is reported under `o`, then under `o'` too, in the same class and for a base that stands at the
same place of the base clause or before it. -/
def StaysReported (m : Model) (o o' : JudgingOptions) (u : NameUse) : Prop :=
  ∃ f f', (m.evaluator o.policy o.follow).evaluate? u = some f ∧
    (m.evaluator o'.policy o'.follow).evaluate? u = some f' ∧
    (f.verdict = .nonCompliant → f'.verdict = .nonCompliant ∧
      ∃ c n b n' b', f.enclosing = some c ∧ f.base = some b ∧ m.FirstHidden o u c n b ∧
        f'.enclosing = some c ∧ f'.base = some b' ∧ m.FirstHidden o' u c n' b' ∧ n' ≤ n)

theorem Inv.staysReported (H : m.Inv) (ho : o.Widens o') (u : NameUse) : m.StaysReported o o' u := by
  obtain ⟨f, hf, hjudged⟩ := H.evaluate?_judged o.policy o.follow u
  obtain ⟨f', hf', hjudged'⟩ := H.evaluate?_judged o'.policy o'.follow u
  refine ⟨f, f', hf, hf', fun hreported => ?_⟩
  have hviolates := (hjudged.nonCompliant_iff H.toTreeInv).mp hreported
  have hreported' := (hjudged'.nonCompliant_iff H.toTreeInv).mpr (hviolates.widen ho)
  obtain ⟨c, n, b, hc, henclosing, hbase, hfirst⟩ := hjudged.firstHidden hreported
  obtain ⟨c', n', b', hc', henclosing', hbase', hfirst'⟩ := hjudged'.firstHidden hreported'
  obtain rfl := H.innermostClass_unique hc hc'
  exact ⟨hreported', c, n, b, n', b', henclosing, hbase, hfirst, henclosing', hbase', hfirst',
    hfirst.le_of_widens ho hfirst'⟩

end Model

/-- **Wider options keep every report.** For every unit and every use, what is non-compliant under the lenient
policy is so under the conservative one, and what is non-compliant with inherited bases left out is so with
them followed; the base that is named stands at the same place of the base clause or earlier. -/
theorem CompilationUnit.nonCompliant_of_widening (unit : CompilationUnit) (u : NameUse) :
    (∀ follow, unit.model.StaysReported ⟨.lenient, follow⟩ ⟨.conservative, follow⟩ u) ∧
      ∀ policy, unit.model.StaysReported ⟨policy, false⟩ ⟨policy, true⟩ u :=
  ⟨fun follow => unit.model_inv.staysReported (.conservative follow) u,
    fun policy => unit.model_inv.staysReported (.following policy) u⟩

end TwoPhase
