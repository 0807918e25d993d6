import TwoPhase.Proofs.Tokens

/-!
# What makes a base dependent

`Scope.DependsOn` says when a base of a class depends on the parameters of the class, in terms of the types
that its type is made of; `Scope.classify` decides it.
-/

namespace TwoPhase

open Text

/-- One of `params` is a component of the name, without the white space around it, or an identifier of the
spelling. -/
def TypeInfo.Mentions (params : List String) (info : TypeInfo) : Prop :=
  (∃ parts, Components info.name.toList parts ∧ ∃ part ∈ parts, ∃ t, Trimmed part t ∧
    String.ofList t ∈ params) ∨
  ∃ param ∈ params, IsRun isIdentifierChar info.spelling.toList param.toList

theorem TypeInfo.mentions_iff {info : TypeInfo} :
    info.mentions params = true ↔ info.Mentions params := by
  unfold mentions Mentions
  rw [Bool.or_eq_true]
  refine or_congr ?_ ?_
  · simp only [components, List.any_map, List.any_eq_true, Function.comp_apply,
      List.contains_eq_mem, decide_eq_true_eq, trim, String.toList_ofList]
    constructor
    · rintro ⟨part, hpart, hmem⟩
      exact ⟨_, componentsChars_spec _, part, hpart, _, trimChars_spec part, hmem⟩
    · rintro ⟨parts, hparts, part, hpart, t, ht, hmem⟩
      refine ⟨part, hparts.componentsChars_eq ▸ hpart, ?_⟩
      rwa [ht.trimChars_eq]
  · simp only [identifiers, List.any_eq_true, List.contains_eq_mem, decide_eq_true_eq]
    constructor
    · rintro ⟨w, hw, hmem⟩
      exact ⟨w, hmem, mem_runs.mp hw⟩
    · rintro ⟨w, hmem, hw⟩
      exact ⟨w, mem_runs.mpr hw, hmem⟩

namespace TypeRef

/-- `Nested info t` says that `info` is the head of `t` or of an argument of it, at any depth. -/
inductive Nested (info : TypeInfo) : TypeRef → Prop
  | head : Nested info (node info args)
  | arg : a ∈ args → Nested info a → Nested info (node info' args)

theorem nested_node {info : TypeInfo} :
    Nested info (node info' args) ↔ info = info' ∨ ∃ a ∈ args, Nested info a := by
  constructor
  · intro h
    cases h with
    | head => exact .inl rfl
    | arg ha h => exact .inr ⟨_, ha, h⟩
  · rintro (rfl | ⟨a, ha, h⟩)
    · exact .head
    · exact .arg ha h

theorem exists_nested_node {P : TypeInfo → Prop} :
    (∃ info, Nested info (node info' args) ∧ P info) ↔
      P info' ∨ ∃ a ∈ args, ∃ info, Nested info a ∧ P info := by
  simp only [nested_node]
  constructor
  · rintro ⟨info, rfl | ⟨a, ha, h⟩, hP⟩
    · exact .inl hP
    · exact .inr ⟨a, ha, info, h, hP⟩
  · rintro (hP | ⟨a, ha, info, h, hP⟩)
    · exact ⟨_, .inl rfl, hP⟩
    · exact ⟨info, .inr ⟨a, ha, h⟩, hP⟩

mutual

theorem mentions_iff : (t : TypeRef) →
    (t.mentions params = true ↔ ∃ info, Nested info t ∧ info.Mentions params)
  | .missing => iff_of_false (by simp [mentions]) fun ⟨_, h, _⟩ => nomatch h
  | .node info args => by
    rw [mentions, Bool.or_eq_true, TypeInfo.mentions_iff, anyMentions_iff args, exists_nested_node]

theorem anyMentions_iff : (ts : List TypeRef) →
    (anyMentions params ts = true ↔ ∃ t ∈ ts, ∃ info, Nested info t ∧ info.Mentions params)
  | [] => by simp [anyMentions]
  | t :: ts => by
    rw [anyMentions, Bool.or_eq_true, mentions_iff t, anyMentions_iff ts, List.exists_mem_cons_iff]

end

mutual

theorem isUndecidable_iff : (t : TypeRef) →
    (t.isUndecidable = true ↔ ∃ info, Nested info t ∧ info.unresolved = true)
  | .missing => iff_of_false (by simp [isUndecidable]) fun ⟨_, h, _⟩ => nomatch h
  | .node info args => by
    rw [isUndecidable, Bool.or_eq_true, anyUndecidable_iff args, exists_nested_node]

theorem anyUndecidable_iff : (ts : List TypeRef) →
    (anyUndecidable ts = true ↔ ∃ t ∈ ts, ∃ info, Nested info t ∧ info.unresolved = true)
  | [] => by simp [anyUndecidable]
  | t :: ts => by
    rw [anyUndecidable, Bool.or_eq_true, isUndecidable_iff t, anyUndecidable_iff ts,
      List.exists_mem_cons_iff]

end

end TypeRef

namespace Scope

/-- A base depends on the parameters of a class template if some type in it mentions one of them, or if
none does, some type could not be seen through, and the policy is conservative. -/
def DependsOn (c : Scope) (policy : Policy) (b : Base) : Prop :=
  c.isClassTemplate = true ∧
    ((∃ info, TypeRef.Nested info b.type ∧ info.Mentions c.templateParams) ∨
      (¬ ∃ info, TypeRef.Nested info b.type ∧ info.Mentions c.templateParams) ∧
        (∃ info, TypeRef.Nested info b.type ∧ info.unresolved = true) ∧ policy = .conservative)

theorem classify_base (c : Scope) (policy : Policy) (b : Base) : (c.classify policy b).base = b := by
  unfold classify
  split
  · split
    · rfl
    · split <;> rfl
  · rfl

theorem classify_dependent_iff {c : Scope} {policy : Policy} {b : Base} :
    (c.classify policy b).dependent = true ↔ c.DependsOn policy b := by
  unfold classify DependsOn
  rw [← TypeRef.mentions_iff, ← TypeRef.isUndecidable_iff]
  split
  · next hc =>
    split
    · next hm => simp [hc, hm]
    · next hm =>
      split
      · next hu => simp [hc, hm, hu]
      · next hu => simp [hc, hm, hu]
  · next hc => simp [hc]

/-- The dependent bases stand in the order of the base clause. -/
theorem dependentBases_eq (c : Scope) (policy : Policy) :
    c.dependentBases policy = c.bases.filter fun b => (c.classify policy b).dependent := by
  unfold dependentBases classification Classification.dependentBases
  rw [List.filter_map, List.map_map]
  exact List.map_congr_left (fun b _ => classify_base c policy b) |>.trans (List.map_id _)

theorem mem_dependentBases {c : Scope} {policy : Policy} {b : Base} :
    b ∈ c.dependentBases policy ↔ b ∈ c.bases ∧ c.DependsOn policy b := by
  rw [dependentBases_eq, List.mem_filter, classify_dependent_iff]

end Scope

end TwoPhase
