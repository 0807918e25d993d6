import TwoPhase.Lookup
import TwoPhase.Scope.Build
import TwoPhase.Proofs.Tokens

/-!
# Bases that name a class and nothing more

A base may denote a class that is no template, by a name without arguments. The base clause then mentions a template
parameter only where a component of the name is spelled like one. Looking the name up, a parameter is known in the
first component alone; classifying the base, in any of them. So `N::T` denotes the class `T` of the namespace `N`,
and is still taken to depend on a parameter that is called `T`.
-/

namespace TwoPhase

namespace Text

/-- The components of a name behind the first that is not empty. -/
def innerComponents (name : String) : List String :=
  ((components name).dropWhile (· == "")).tail

/-- A double colon in front of a name makes an empty component. -/
theorem components_global {name : String} (h : "::".isPrefixOf name = true) :
    components name = "" :: components (String.ofList (name.toList.drop 2)) := by
  obtain ⟨rest, hrest⟩ := String.startsWith_string_iff.mp h
  have hname : name.toList = ':' :: ':' :: rest := hrest.symm
  rw [components, components, String.toList_ofList, hname]
  rfl

theorem components_undivided {name : String} (h : ¬ HasDoubleColon name.toList) : components name = [name] := by
  rw [components, (Components.last h).componentsChars_eq, List.map_singleton, String.ofList_toList]

theorem not_hasDoubleColon_trim {name : String} (h : ¬ HasDoubleColon name.toList) :
    ¬ HasDoubleColon (trim name).toList := by
  obtain ⟨before, after, hname, _⟩ := trimChars_spec name.toList
  rw [trim, String.toList_ofList]
  intro hcolons
  apply h
  rw [hname]
  exact hcolons.trans (List.infix_append' before (trimChars name.toList) after)

end Text

/-- A component of the name, without the white space around it, is one of `params`. -/
def TypeInfo.NamesOneOf (params : List String) (info : TypeInfo) : Prop :=
  ∃ part ∈ Text.components info.name, Text.trim part ∈ params

/-- The name and each of its components are without white space around them. -/
def TypeInfo.IsTight (info : TypeInfo) : Prop :=
  Text.trim info.name = info.name ∧ ∀ part ∈ Text.components info.name, Text.trim part = part

theorem TypeInfo.mentions_iff_namesOneOf {info : TypeInfo} (h : info.spelling = "") :
    info.mentions params = true ↔ info.NamesOneOf params := by
  have hnone : identifiers info.spelling = [] := by
    rw [h]
    rfl
  simp [mentions, NamesOneOf, hnone]

/-- A base of class `c` with a type of this name, which has no arguments, is not spelled out otherwise and could be
seen through, and which denotes a class that is no template. -/
structure Model.PlainBase (m : Model) (c : ScopeId) (b : Base) (info : TypeInfo) : Prop where
  mem : b ∈ (m.scope c).bases
  type_eq : b.type = .node info []
  spelling_eq : info.spelling = ""
  resolved : info.unresolved = false
  denotes : ∃ s, m.resolveBase? b.type c = some s ∧ (m.scope s).isTemplate = false

/-- For a type without arguments and spelling that could be seen through, the name alone decides. -/
theorem Scope.classify_eq {c : Scope} {b : Base} {info : TypeInfo} (hc : c.isClassTemplate = true)
    (htype : b.type = .node info []) (hresolved : info.unresolved = false) (policy : Policy) :
    c.classify policy b = { base := b, dependent := info.mentions c.templateParams } := by
  have hmentions : b.type.mentions c.templateParams = info.mentions c.templateParams := by
    rw [htype, TypeRef.mentions, TypeRef.anyMentions, Bool.or_false]
  have hundecidable : b.type.isUndecidable = false := by
    rw [htype, TypeRef.isUndecidable, TypeRef.anyUndecidable, hresolved]
    rfl
  unfold classify
  rw [if_pos hc, hmentions, hundecidable]
  cases info.mentions c.templateParams <;> rfl

namespace Model

variable {m : Model} {source s : ScopeId} {info : TypeInfo} {name first : String} {rest : List String}

theorem classNamed?_of_resolveBase? (h : m.resolveBase? (.node info args) source = some s)
    (href : m.classById? info.ref = none) : m.classNamed? info.name source = some s := by
  rw [resolveBase?, Option.orElse_eq_orElse, Option.orElse_eq_or, href, Option.none_or] at h
  exact h

/-- The name of a class starts with a component that is no template parameter, or has it behind a double colon. -/
theorem first_of_classNamed? (h : m.classNamed? name source = some s) :
    ∃ first rest, first ≠ "" ∧ first ∉ (m.scope source).templateParams ∧
      (Text.components (Text.trim name) = first :: rest ∨ Text.components (Text.trim name) = "" :: first :: rest) := by
  simp only [classNamed?] at h
  split at h
  · cases h
  · next first rest hparts =>
    split at h
    · cases h
    · next hfirst =>
      obtain ⟨hne, hparam⟩ := not_or.mp hfirst
      refine ⟨first, rest, hne, by simpa [Scope.hasTemplateParam] using hparam, ?_⟩
      split at hparts
      · next hglobal => exact .inr (by rw [Text.components_global hglobal, hparts])
      · exact .inl hparts

/-- A name that denotes a class is spelled like a parameter only behind its first component, unless a double colon in
front of it is taken for a parameter without a name. -/
theorem namesOneOf_iff_inner (h : m.classNamed? info.name source = some s) (htight : info.IsTight) :
    info.NamesOneOf (m.scope source).templateParams ↔
      (∃ part ∈ Text.innerComponents info.name, part ∈ (m.scope source).templateParams) ∨
        ((Text.components info.name).head? = some "" ∧ "" ∈ (m.scope source).templateParams) := by
  obtain ⟨first, rest, hne, hparam, hparts⟩ := first_of_classNamed? h
  have hnames : info.NamesOneOf (m.scope source).templateParams ↔
      ∃ part ∈ Text.components info.name, part ∈ (m.scope source).templateParams := by
    apply exists_congr
    intro part
    apply and_congr_right
    intro hpart
    rw [htight.2 part hpart]
  rw [htight.1] at hparts
  rw [hnames, Text.innerComponents]
  rcases hparts with hparts | hparts
  · simp [hparts, hne, hparam]
  · simp [hparts, hne, hparam, or_comm]

theorem not_namesOneOf_of_undivided (h : m.classNamed? info.name source = some s)
    (hundivided : ¬ Text.HasDoubleColon info.name.toList) : ¬ info.NamesOneOf (m.scope source).templateParams := by
  obtain ⟨first, rest, _, hparam, hparts⟩ := first_of_classNamed? h
  rw [Text.components_undivided (Text.not_hasDoubleColon_trim hundivided)] at hparts
  obtain ⟨rfl, _⟩ : Text.trim info.name = first ∧ [] = rest := by simpa using hparts
  rintro ⟨part, hpart, hmem⟩
  rw [Text.components_undivided hundivided, List.mem_singleton] at hpart
  exact hparam (hpart ▸ hmem)

/-- **When a base that names a class and nothing more is dependent**, whatever the policy: if a component of its name
is spelled like a template parameter. A base that is found by its name has such a component only behind the one that is
looked up first, or in front of a leading double colon, where the empty text is taken for a parameter without a name.
With an undivided name it is not dependent. -/
theorem plainBase_dependent_iff {c : ScopeId} {b : Base} (hc : (m.scope c).isClassTemplate = true)
    (h : m.PlainBase c b info) (policy : Policy) :
    let params := (m.scope c).templateParams
    let k := (m.scope c).classify policy b
    k.undecidable = false ∧ (k.dependent = true ↔ info.NamesOneOf params) ∧
      (m.classById? info.ref = none →
        (info.IsTight → (k.dependent = true ↔ (∃ part ∈ Text.innerComponents info.name, part ∈ params) ∨
          ((Text.components info.name).head? = some "" ∧ "" ∈ params))) ∧
        (¬ Text.HasDoubleColon info.name.toList → k.dependent = false)) := by
  intro params k
  have hk : k = { base := b, dependent := info.mentions params } := Scope.classify_eq hc h.type_eq h.resolved policy
  have hdependent : k.dependent = true ↔ info.NamesOneOf params := by
    rw [hk]
    exact TypeInfo.mentions_iff_namesOneOf h.spelling_eq
  refine ⟨by rw [hk], hdependent, ?_⟩
  intro href
  obtain ⟨s, hs, _⟩ := h.denotes
  rw [h.type_eq] at hs
  have hnamed := classNamed?_of_resolveBase? hs href
  constructor
  · intro htight
    exact hdependent.trans (namesOneOf_iff_inner hnamed htight)
  · intro hundivided
    rw [← Bool.not_eq_true, hdependent]
    exact not_namesOneOf_of_undivided hnamed hundivided

end Model

/-- The base `N::T`. -/
def namesakeBase : Base where
  type := .node { name := "N::T" } []
  access := "public"

/-- A class template with a parameter `T` that is derived from the class `T` of a namespace. -/
def namesakeUnit : CompilationUnit where
  file := "a.cpp"
  decls := some
    [.node { kind := "namespace", name := "N" }
        [.node { kind := "class", name := "T" } [.node { kind := "variable", name := "x" } []]],
      .node { kind := "class", name := "C", template := true, templateParams := ["T"], bases := [namesakeBase] } []]

/-- The class `N::T` is no template, and is a dependent base for the sake of its name. -/
theorem plainBase_dependent_namesake :
    let m := namesakeUnit.model
    (m.scope 3).isClassTemplate = true ∧ m.PlainBase 3 namesakeBase { name := "N::T" } ∧
      m.resolveBase? namesakeBase.type 3 = some 2 ∧ m.classById? "" = none ∧
      TypeInfo.IsTight { name := "N::T" } ∧ Text.innerComponents "N::T" = ["T"] ∧
      ∀ policy, ((m.scope 3).classify policy namesakeBase).dependent = true := by
  intro m
  have hc : (m.scope 3).isClassTemplate = true := by decide +kernel
  have hdenotes : m.resolveBase? namesakeBase.type 3 = some 2 := by decide +kernel
  have hplain : m.PlainBase 3 namesakeBase { name := "N::T" } := by
    refine ⟨?_, rfl, rfl, rfl, 2, hdenotes, by decide +kernel⟩
    have hbases : (m.scope 3).bases = [namesakeBase] := rfl
    rw [hbases]
    exact List.mem_singleton_self namesakeBase
  have hnamed : m.classById? "" = none := by decide +kernel
  have htight : TypeInfo.IsTight { name := "N::T" } := ⟨by decide +kernel, by decide +kernel⟩
  have hinner : Text.innerComponents "N::T" = ["T"] := by decide +kernel
  refine ⟨hc, hplain, hdenotes, hnamed, htight, hinner, fun policy => ?_⟩
  obtain ⟨_, _, hfound⟩ := Model.plainBase_dependent_iff hc hplain policy
  rw [(hfound hnamed).1 htight, hinner]
  exact .inl ⟨"T", List.mem_singleton_self "T", by decide +kernel⟩

end TwoPhase
