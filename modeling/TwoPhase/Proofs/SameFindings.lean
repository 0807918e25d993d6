import TwoPhase.Proofs.CompleteView

/-!
# The same findings in two models

Under a complete view the uses of one model are judged as the corresponding uses of the other one: with the same
verdict and reason, in the corresponding class and for the same base. How a name is resolved has the same kind as
well, except that a name that was not found may be found in a namespace that declares more.
-/

namespace TwoPhase

/-- Judgements of corresponding uses that agree in all but the resolution of the name. -/
structure Finding.SameUnder (f : ScopeId → ScopeId) (g g' : Finding) : Prop where
  use : g'.use = g.use.moved f
  verdict : g'.verdict = g.verdict
  reason : g'.reason = g.reason
  enclosing : g'.enclosing = g.enclosing.map f
  qualification : g'.qualification = g.qualification
  base : g'.base = g.base

/-- Judgements of corresponding uses that agree. -/
structure Finding.SameAs (f : ScopeId → ScopeId) (g g' : Finding) : Prop extends g.SameUnder f g' where
  resolution : g'.resolution.text = g.resolution.text

/-- Judgements that agree under a view: a name that was not found may be found where more is declared. -/
structure Finding.SameIn (V : View) (g g' : Finding) : Prop extends g.SameUnder V.map g' where
  resolution : g'.resolution.text = g.resolution.text ∨
    (∃ i, V.noisy i g.use.name) ∧ g.resolution = .notFound ∧ ∃ d, g'.resolution = .enclosing d

/-- Where nothing is declared in addition, they agree in all they say. -/
theorem Finding.SameIn.sameAs {V : View} {g g' : Finding} (h : g.SameIn V g')
    (hquiet : ∀ i n, ¬ V.noisy i n) : g.SameAs V.map g' := by
  refine ⟨h.toSameUnder, ?_⟩
  rcases h.resolution with htext | ⟨⟨i, hnoisy⟩, _⟩
  · exact htext
  · exact absurd hnoisy (hquiet i _)

/-- Findings that correspond one by one have the same verdicts in the same order. -/
theorem Finding.map_verdict_eq {R : Finding → Finding → Prop} {l l' : List Finding}
    (h : List.Forall₂ R l l') (hR : ∀ {g g'}, R g g' → g'.verdict = g.verdict) :
    l'.map (·.verdict) = l.map (·.verdict) := by
  rw [← List.forall₂_eq_eq_eq, List.forall₂_map_left_iff, List.forall₂_map_right_iff]
  exact h.flip.imp fun _ _ hg => hR hg

theorem Scope.SameIn.dependentBases {s s' : Scope} (h : s.SameIn f s') (policy : Policy) :
    s'.dependentBases policy = s.dependentBases policy := by
  have hclassify : s'.classify policy = s.classify policy := by
    funext b
    rw [classify, classify, isClassTemplate, isClassTemplate, h.isClass, h.isTemplate, h.templateParams]
  rw [Scope.dependentBases, Scope.dependentBases, classification, classification, h.bases, hclassify]

/-- The resolution of a name, from what is found inside the class, in the class and around it. -/
def Resolution.ofHits (inside own around : Option Declaration) : Resolution :=
  match inside with
  | some d => .localName d
  | none =>
    match own with
    | some d => .member d
    | none =>
      match around with
      | some d => .enclosing d
      | none => .notFound

theorem Resolution.ofHits_same {r r' q q' t t' : Option Declaration} {noise : Prop}
    (hr : r'.isSome = r.isSome) (hq : q'.isSome = q.isSome) (ht : t.isSome → t'.isSome)
    (ht' : ¬ noise → t'.isSome = t.isSome) :
    (ofHits r' q' t').text = (ofHits r q t).text ∨
      noise ∧ ofHits r q t = .notFound ∧ ∃ d, ofHits r' q' t' = .enclosing d := by
  cases r with
  | some _ =>
    obtain ⟨_, rfl⟩ := Option.isSome_iff_exists.mp hr
    exact .inl rfl
  | none =>
    obtain rfl : r' = none := by simpa using hr
    cases q with
    | some _ =>
      obtain ⟨_, rfl⟩ := Option.isSome_iff_exists.mp hq
      exact .inl rfl
    | none =>
      obtain rfl : q' = none := by simpa using hq
      cases t with
      | some _ =>
        obtain ⟨_, rfl⟩ := Option.isSome_iff_exists.mp (ht rfl)
        exact .inl rfl
      | none =>
        cases t' with
        | none => exact .inl rfl
        | some d =>
          refine .inr ⟨?_, rfl, d, rfl⟩
          by_contra hquiet
          exact absurd (ht' hquiet) (by simp)

theorem isSome_findSome?_congr {l : List α} {f : α → Option β} {g : α → Option γ}
    (h : ∀ a ∈ l, (g a).isSome = (f a).isSome) :
    (l.findSome? g).isSome = (l.findSome? f).isSome := by
  rw [Bool.eq_iff_iff, List.findSome?_isSome_iff, List.findSome?_isSome_iff]
  constructor
  · rintro ⟨a, ha, hsome⟩
    exact ⟨a, ha, h a ha ▸ hsome⟩
  · rintro ⟨a, ha, hsome⟩
    exact ⟨a, ha, (h a ha).symm ▸ hsome⟩

theorem isSome_head?_of_forall₂ {R : α → β → Prop} (h : List.Forall₂ R l l') :
    l'.head?.isSome = l.head?.isSome := by
  cases h <;> rfl

namespace Model.Mirrored

variable {V : View} {m m' : Model} {u : NameUse}

/-- A scope strictly inside the innermost class keeps its declarations and their places. -/
theorem located_of_strictlyWithin (M : m.Mirrored V m') (hc : m.InnermostClass u.scope c)
    (hs : m.Within u.scope s) (hsc : m.StrictlyWithin s c) : V.located s := by
  by_contra hnot
  rcases M.complete.located hnot with houter | hclass
  · have := houter.not_isClass hsc.1
    rw [hc.isClass] at this
    contradiction
  · exact hsc.2 (M.inv.within_antisymm hsc.1 (hc.innermost hs hclass))

theorem isSome_local (M : m.Mirrored V m') (hc : m.InnermostClass u.scope c) :
    (((m'.chain (V.map u.scope)).takeWhile (· != V.map c)).findSome? fun s =>
        (m'.declared s u.name).find? (·.isBefore (u.moved V.map))).isSome =
      (((m.chain u.scope).takeWhile (· != c)).findSome? fun s =>
        (m.declared s u.name).find? (·.isBefore u)).isSome := by
  have hne : (· != V.map c) ∘ V.map = (· != c) := by
    funext s
    rw [Bool.eq_iff_iff]
    simp [V.injective.eq_iff]
  rw [M.chain_map, List.takeWhile_map, hne, List.findSome?_map]
  refine isSome_findSome?_congr fun s hs => ?_
  obtain ⟨hus, hsc⟩ := (M.inv.mem_takeWhile_chain hc.within).mp hs
  have hlocated := M.located_of_strictlyWithin hc hus hsc
  have hsame := M.sameDeclared s u.name
  have hany : ((m'.declared (V.map s) u.name).any (·.isBefore (u.moved V.map))) =
      (m.declared s u.name).any (·.isBefore u) := by
    refine hsame.any_eq (fun d d' hd => ?_) (fun d' hd' => ?_)
    · unfold Declaration.isBefore
      rw [hd.loc hlocated]
      rfl
    · exact absurd hd' (M.complete.not_extra hsc.1 hc.isClass d')
  rw [Bool.eq_iff_iff] at hany ⊢
  simpa only [Function.comp_apply, List.find?_isSome, List.any_eq_true] using hany

theorem isSome_member (M : m.Mirrored V m') (hc : (m.scope c).isClass = true) (name : String) :
    (m'.declared (V.map c) name).head?.isSome = (m.declared c name).head?.isSome :=
  isSome_head?_of_forall₂ ((M.sameDeclared c name).forall₂ (M.complete.not_extra .refl hc))

theorem isSome_outer (M : m.Mirrored V m') (h : ¬ ∃ i, V.noisy i name) (scopes : List ScopeId) :
    ((scopes.map V.map).findSome? fun s => (m'.declared s name).head?).isSome =
      (scopes.findSome? fun s => (m.declared s name).head?).isSome := by
  rw [List.findSome?_map]
  exact isSome_findSome?_congr fun s _ => isSome_head?_of_forall₂
    ((M.sameDeclared s name).forall₂ fun d hd => h ⟨s, hd.noisy⟩)

/-- What was found around the class is found there still. -/
theorem isSome_outer_of_isSome (M : m.Mirrored V m') (name : String) (scopes : List ScopeId)
    (h : (scopes.findSome? fun s => (m.declared s name).head?).isSome) :
    ((scopes.map V.map).findSome? fun s => (m'.declared s name).head?).isSome := by
  rw [List.findSome?_map, List.findSome?_isSome_iff]
  obtain ⟨s, hs, hsome⟩ := List.findSome?_isSome_iff.mp h
  refine ⟨s, hs, ?_⟩
  rw [Function.comp_apply, List.isSome_head?]
  exact (M.sameDeclared s name).ne_nil (List.isSome_head?.mp hsome)

/-- How a name is resolved on both sides. -/
theorem ordinary_same (M : m.Mirrored V m') (hc : m.InnermostClass u.scope c) :
    (m'.ordinary (u.moved V.map) (V.map c)).text = (m.ordinary u c).text ∨
      (∃ i, V.noisy i u.name) ∧ m.ordinary u c = .notFound ∧
        ∃ d, m'.ordinary (u.moved V.map) (V.map c) = .enclosing d := by
  have hwithin : m'.Within (u.moved V.map).scope (V.map c) := by
    rw [← M.inv'.mem_chain, NameUse.moved, M.chain_map]
    exact List.mem_map_of_mem (M.inv.mem_chain.mpr hc.within)
  have hlocal := M.isSome_local hc
  have hmember := M.isSome_member hc.isClass u.name
  have houter := M.isSome_outer_of_isSome u.name (m.chain c).tail
  have houter' (h : ¬ ∃ i, V.noisy i u.name) := M.isSome_outer h (m.chain c).tail
  rw [M.inv.ordinary_eq hc.within, M.inv'.ordinary_eq hwithin, M.chain_map c, ← List.map_tail]
  exact Resolution.ofHits_same hlocal hmember houter houter'

/-! ### Judging a use -/

theorem evaluateBases_same (M : m.Mirrored V m') (policy : Policy) (follow : Bool) (bases : List Base)
    (hr : r'.text = r.text ∨
      (∃ i, V.noisy i u.name) ∧ r = .notFound ∧ ∃ d, r' = .enclosing d) :
    ((m.evaluator policy follow).evaluateBases u c bases r).SameIn V
      ((m'.evaluator policy follow).evaluateBases (u.moved V.map) (V.map c) bases r') := by
  have hreachable : (fun b : Base => (m'.evaluator policy follow).model.reachable
      (m'.evaluator policy follow).follow (u.moved V.map).name b.type (V.map c)) =
      fun b => (m.evaluator policy follow).model.reachable (m.evaluator policy follow).follow u.name
        b.type c :=
    funext fun b => M.reachable_map follow u.name b.type c
  unfold Evaluator.evaluateBases
  rw [hreachable]
  split
  · exact ⟨⟨rfl, rfl, rfl, rfl, rfl, rfl⟩, hr⟩
  · exact ⟨⟨rfl, rfl, rfl, rfl, rfl, rfl⟩, hr⟩

theorem evaluateIn_same (M : m.Mirrored V m') (hc : m.InnermostClass u.scope c) (policy : Policy)
    (follow : Bool) (bases : List Base) :
    ((m.evaluator policy follow).evaluateIn u c bases).SameIn V
      ((m'.evaluator policy follow).evaluateIn (u.moved V.map) (V.map c) bases) := by
  have hr := M.ordinary_same hc
  have hordinary : (m.evaluator policy follow).model.ordinary u c = m.ordinary u c := rfl
  have hordinary' : (m'.evaluator policy follow).model.ordinary (u.moved V.map) (V.map c) =
      m'.ordinary (u.moved V.map) (V.map c) := rfl
  rw [Evaluator.evaluateIn, Evaluator.evaluateIn, hordinary, hordinary']
  generalize m.ordinary u c = r at hr
  generalize m'.ordinary (u.moved V.map) (V.map c) = r' at hr
  have hbases := M.evaluateBases_same policy follow (c := c) bases hr
  cases r with
  | localName d =>
    obtain ⟨d', rfl⟩ : ∃ d', r' = .localName d' := by
      cases r' <;> simp [Resolution.text] at hr ⊢
    exact ⟨⟨rfl, rfl, rfl, rfl, rfl, rfl⟩, hr⟩
  | member d =>
    obtain ⟨d', rfl⟩ : ∃ d', r' = .member d' := by
      cases r' <;> simp [Resolution.text] at hr ⊢
    exact ⟨⟨rfl, rfl, rfl, rfl, rfl, rfl⟩, hr⟩
  | enclosing d =>
    obtain ⟨d', rfl⟩ : ∃ d', r' = .enclosing d' := by
      cases r' <;> simp [Resolution.text] at hr ⊢
    exact hbases
  | notFound =>
    obtain rfl | ⟨d', rfl⟩ : r' = .notFound ∨ ∃ d', r' = .enclosing d' := by
      cases r' <;> simp [Resolution.text] at hr ⊢
    · exact hbases
    · exact hbases

/-- Corresponding uses are judged, and judged alike. -/
theorem evaluate?_same (M : m.Mirrored V m') (policy : Policy) (follow : Bool) (u : NameUse) :
    ∃ f f', (m.evaluator policy follow).evaluate? u = some f ∧
      (m'.evaluator policy follow).evaluate? (u.moved V.map) = some f' ∧ f.SameIn V f' := by
  have hnone : ({ use := u, reason := .notInClassTemplate } : Finding).SameIn V
      { use := u.moved V.map, reason := .notInClassTemplate } :=
    ⟨⟨rfl, rfl, rfl, rfl, rfl, rfl⟩, .inl rfl⟩
  have henclosing : m'.enclosingClass? (u.moved V.map).scope = (m.enclosingClass? u.scope).map V.map :=
    M.enclosingClass?_map u.scope
  have hmodel : (m.evaluator policy follow).model = m := rfl
  have hmodel' : (m'.evaluator policy follow).model = m' := rfl
  unfold Evaluator.evaluate?
  rw [hmodel, hmodel', henclosing]
  cases hc : m.enclosingClass? u.scope with
  | none => exact ⟨_, _, rfl, rfl, hnone⟩
  | some c =>
    have hsame := M.sameScope c
    have htemplate : (m'.scope (V.map c)).isClassTemplate = (m.scope c).isClassTemplate := by
      rw [Scope.isClassTemplate, Scope.isClassTemplate, hsame.isClass, hsame.isTemplate]
    have hlookup := M.inv.lookup_enclosingClass? policy follow hc
    have hlookup' := M.inv'.lookup_enclosingClass? (i := V.map u.scope) (c := V.map c) policy follow
      (by rw [M.enclosingClass?_map, hc, Option.map_some])
    have hbases : ((m'.scope (V.map c)).classification policy).dependentBases =
        ((m.scope c).classification policy).dependentBases := hsame.dependentBases policy
    rw [Option.map_some, Option.filter_some, Option.filter_some, htemplate]
    cases (m.scope c).isClassTemplate with
    | false => exact ⟨_, _, rfl, rfl, hnone⟩
    | true =>
      have hqualification : (u.moved V.map).qualification = u.qualification := rfl
      have hinnermost := M.inv.innermostClass_of_enclosingClass? hc
      simp only [if_true, hlookup, hlookup', Option.bind_eq_bind, Option.bind_some, hbases,
        hqualification]
      split
      · exact ⟨_, _, rfl, rfl, ⟨rfl, rfl, rfl, rfl, rfl, rfl⟩, .inl rfl⟩
      · split
        · exact ⟨_, _, rfl, rfl, M.evaluateIn_same hinnermost policy follow _⟩
        · exact ⟨_, _, rfl, rfl, ⟨rfl, rfl, rfl, rfl, rfl, rfl⟩, .inl rfl⟩

/-- The judgements of a list of uses and of the corresponding one. -/
theorem judgements_same (M : m.Mirrored V m') (policy : Policy) (follow : Bool)
    (uses : List NameUse) :
    List.Forall₂ (Finding.SameIn V) (uses.filterMap (m.evaluator policy follow).evaluate?)
      ((uses.map (·.moved V.map)).filterMap (m'.evaluator policy follow).evaluate?) := by
  induction uses with
  | nil => exact .nil
  | cons u uses ih =>
    obtain ⟨f, f', hf, hf', hsame⟩ := M.evaluate?_same policy follow u
    rw [List.map_cons, List.filterMap_cons_some hf, List.filterMap_cons_some hf']
    exact .cons hsame ih

theorem findings_same (M : m.Mirrored V m') (huses : m'.uses = m.uses.map (·.moved V.map))
    (policy : Policy) (follow : Bool) :
    List.Forall₂ (Finding.SameIn V) (m.findings policy follow) (m'.findings policy follow) := by
  have hfindings : m'.findings policy follow =
      (m.uses.map (·.moved V.map)).filterMap (m'.evaluator policy follow).evaluate? := by
    rw [← huses]
    rfl
  rw [hfindings]
  exact M.judgements_same policy follow m.uses

end Model.Mirrored

end TwoPhase
