import TwoPhase.Lookup
import TwoPhase.Proofs.Enclosing
import TwoPhase.Proofs.Tokens

/-!
# Classes by their qualified names

The qualified name of a scope lists the names on the way down to it from the global namespace. Taken apart again, it
leads down the same way, if every scope on the way is the first of its name in its parent
(`Model.TreeInv.foldlM_pathNames`) and the names can be told apart in it (`Text.components_intercalate`). A double
colon in a name would be taken for a separator, and so would one that a single colon at the end of a name forms with
the separator behind it.
-/

namespace TwoPhase

namespace Text

instance (cs : List Char) : Decidable (HasDoubleColon cs) :=
  inferInstanceAs (Decidable ([':', ':'] <:+: cs))

/-- A name without double colons and without white space around it. -/
@[mk_iff]
structure IsPlain (name : String) : Prop where
  undivided : ¬ HasDoubleColon name.toList
  trim_eq : trim name = name

instance (name : String) : Decidable (IsPlain name) :=
  decidable_of_iff' _ (isPlain_iff name)

/-- The last character of a name is a colon. -/
def EndsInColon (name : String) : Prop :=
  name.toList.getLast? = some ':'

instance (name : String) : Decidable (EndsInColon name) :=
  inferInstanceAs (Decidable (_ = _))

theorem not_hasDoubleColon_concat {w : List Char} (h : ¬ HasDoubleColon w) (hlast : w.getLast? ≠ some ':') :
    ¬ HasDoubleColon (w ++ [':']) := by
  unfold HasDoubleColon
  rw [List.infix_concat_iff]
  rintro (hsuffix | hinfix)
  · obtain ⟨before, hbefore⟩ := hsuffix
    have hw : before ++ [':'] = w := List.append_left_injective [':'] (by simpa using hbefore)
    exact hlast (by simp [← hw])
  · exact h hinfix

/-- Names that are put together with double colons are the components of what comes out. -/
theorem components_intercalate {first : String} {rest : List String}
    (hplain : ∀ name ∈ first :: rest, ¬ HasDoubleColon name.toList)
    (hends : ∀ name ∈ (first :: rest).dropLast, ¬ EndsInColon name) :
    components ("::".intercalate (first :: rest)) = first :: rest := by
  have hparts : Components ("::".toList.intercalate ((first :: rest).map String.toList))
      ((first :: rest).map String.toList) := by
    induction rest generalizing first with
    | nil =>
      rw [List.map_singleton, List.intercalate_singleton]
      exact .last (hplain first List.mem_cons_self)
    | cons second rest ih =>
      rw [List.map_cons, List.map_cons, List.intercalate_cons_cons, List.append_assoc]
      apply Components.cons
      · apply not_hasDoubleColon_concat (hplain first List.mem_cons_self)
        exact hends first List.mem_cons_self
      · apply ih
        · intro name hname
          exact hplain name (List.mem_cons_of_mem _ hname)
        · intro name hname
          exact hends name (List.mem_cons_of_mem _ hname)
  rw [components, String.toList_intercalate, hparts.componentsChars_eq, List.map_map]
  simp

theorem suffix_intercalate (sep w : List Char) (ws : List (List Char)) :
    w <:+ sep.intercalate (ws ++ [w]) := by
  induction ws with
  | nil => exact ⟨[], by rw [List.nil_append, List.nil_append, List.intercalate_singleton]⟩
  | cons v ws ih =>
    obtain ⟨u, us, hus⟩ := List.exists_cons_of_ne_nil (List.append_ne_nil_of_right_ne_nil ws (List.cons_ne_nil w []))
    rw [List.cons_append, hus, List.intercalate_cons_cons, ← hus]
    exact ih.trans (List.suffix_append _ _)

/-- A name behind a double colon has no white space around it if the last of its components has none. -/
theorem trim_global {names : List String} {last : String} (hlast : trim last = last) (hne : last ≠ "") :
    trim ("::" ++ "::".intercalate (names ++ [last])) = "::" ++ "::".intercalate (names ++ [last]) := by
  obtain ⟨before, hbefore⟩ := suffix_intercalate "::".toList last.toList (names.map String.toList)
  have hchars : ("::" ++ "::".intercalate (names ++ [last])).toList =
      ':' :: ':' :: (before ++ last.toList) := by
    rw [hbefore, String.toList_append, String.toList_intercalate, List.map_append]
    rfl
  have hback : ∀ c ∈ last.toList.getLast?, isBlank c = false := by
    obtain ⟨_, _, _, _, _, _, hback⟩ := trimChars_spec last.toList
    rwa [← String.toList_ofList (l := trimChars last.toList), ← trim, hlast] at hback
  have htrimmed : Trimmed (':' :: ':' :: (before ++ last.toList)) (':' :: ':' :: (before ++ last.toList)) := by
    refine ⟨[], [], by simp, List.forall_mem_nil _, List.forall_mem_nil _, ?_, ?_⟩
    · intro c hc
      cases hc
      rfl
    · intro c hc
      have hnil : last.toList ≠ [] := by simpa using hne
      apply hback c
      rw [← List.getLast?_append_of_ne_nil (':' :: ':' :: before) hnil]
      exact hc
  rw [trim, hchars, htrimmed.trimChars_eq, ← hchars, String.ofList_toList]

end Text

namespace Model

/-- The names of the scopes from the outside in, without the global namespace and blocks. -/
def pathNames (m : Model) (i : ScopeId) : List String :=
  ((m.chain i).filter fun s => (m.scope s).parent.isSome && (m.scope s).kind != .blockScope).reverse.map
    fun s => (m.scope s).name

theorem qualifiedName_eq (m : Model) (i : ScopeId) :
    m.qualifiedName i = "::".intercalate (m.pathNames i) := rfl

/-- The first class or namespace that is declared under `name` in scope `p`. -/
def firstDeclared? (m : Model) (p : ScopeId) (name : String) : Option ScopeId :=
  ((m.scope p).decls.find? fun d =>
    d.name = name ∧ (d.kind = .className ∨ d.kind = .namespaceName)).bind (·.defines)

/-- Scope `i` is a class or namespace with a name, and the first that is declared under this name in its parent. -/
@[mk_iff]
structure FirstOfName (m : Model) (i : ScopeId) : Prop where
  name_ne : (m.scope i).name ≠ ""
  kind_eq : (m.scope i).kind = .classScope ∨ (m.scope i).kind = .namespaceScope
  first : ((m.scope i).parent.bind fun p => m.firstDeclared? p (m.scope i).name) = some i

instance (m : Model) (i : ScopeId) : Decidable (m.FirstOfName i) :=
  decidable_of_iff' _ (firstOfName_iff m i)

/-- Scope `i` and all scopes around it but the global namespace are the first of their names. -/
def FoundByNames (m : Model) (i : ScopeId) : Prop :=
  ∀ j, m.Within i j → j ≠ root → m.FirstOfName j

variable {m : Model} {i p s source : ScopeId}

namespace TreeInv

theorem pathNames_root (H : m.TreeInv) : m.pathNames root = [] := by
  rw [pathNames, H.chain_eq, H.root_parent]
  simp [H.root_parent]

theorem pathNames_eq (H : m.TreeInv) (hp : (m.scope i).parent = some p)
    (hk : (m.scope i).kind ≠ .blockScope) : m.pathNames i = m.pathNames p ++ [(m.scope i).name] := by
  rw [pathNames, H.chain_eq, hp, List.filter_cons_of_pos (by simpa [hp] using hk), List.reverse_cons,
    List.map_append]
  rfl

theorem mem_pathNames (H : m.TreeInv) (h : name ∈ m.pathNames i) :
    ∃ j, m.Within i j ∧ j ≠ root ∧ (m.scope j).name = name := by
  obtain ⟨j, hj, rfl⟩ := List.mem_map.mp h
  obtain ⟨hchain, hparent⟩ := List.mem_filter.mp (List.mem_reverse.mp hj)
  refine ⟨j, H.mem_chain.mp hchain, ?_, rfl⟩
  rintro rfl
  simp [H.root_parent] at hparent

/-- Looking a name up in a scope finds the first class or namespace of that name. -/
theorem scopeNamed?_eq (H : m.TreeInv) (p : ScopeId) (name : String) :
    m.scopeNamed? p name = m.firstDeclared? p name := by
  have hpass (x : Declaration) (hname : (x.name == name) = true)
      (hother : ¬ (x.name = name ∧ (x.kind = .className ∨ x.kind = .namespaceName))) :
      (if x.kind == .className || x.kind == .namespaceName then x.defines else none) = none := by
    apply if_neg
    simp_all
  rw [scopeNamed?, declared, H.find_eq, firstDeclared?]
  cases hfind : (m.scope p).decls.find? fun d =>
      d.name = name ∧ (d.kind = .className ∨ d.kind = .namespaceName) with
  | none =>
    rw [Option.bind_none, List.findSome?_eq_none_iff]
    intro x hx
    obtain ⟨hx, hname⟩ := List.mem_filter.mp hx
    exact hpass x hname (by simpa using List.find?_eq_none.mp hfind x hx)
  | some d =>
    obtain ⟨hd, before, after, hdecls, hbefore⟩ := List.find?_eq_some_iff_append.mp hfind
    obtain ⟨hname, hkind⟩ := of_decide_eq_true hd
    -- what is declared as a class or namespace opens a scope
    obtain ⟨k, hk⟩ : ∃ k, d.kind.opens? = some k := by
      rcases hkind with hkind | hkind <;> exact ⟨_, by rw [hkind]; rfl⟩
    obtain ⟨c, hc, _⟩ := H.opens (List.mem_of_find?_eq_some hfind) k hk
    rw [Option.bind_some, hc, hdecls, List.findSome?_eq_some_iff]
    refine ⟨before.filter (·.name == name), d, after.filter (·.name == name), ?_, ?_, ?_⟩
    · rw [List.filter_append, List.filter_cons_of_pos (by simpa using hname)]
    · rw [if_pos (by simpa using hkind), hc]
    · intro x hx
      obtain ⟨hx, hname⟩ := List.mem_filter.mp hx
      exact hpass x hname (of_decide_eq_false (by simpa only [Bool.not_eq_true'] using hbefore x hx))

/-- A scope that is found by names is the global namespace, or it is found by its own name in a parent that is. -/
theorem foundByNames_cases (H : m.TreeInv) (h : m.FoundByNames i) : i = root ∨
    ∃ p, (m.scope i).parent = some p ∧ m.FoundByNames p ∧ m.FirstOfName i ∧
      m.pathNames i = m.pathNames p ++ [(m.scope i).name] := by
  by_cases hroot : i = root
  · exact .inl hroot
  · have hfirst := h i .refl hroot
    obtain ⟨p, hp, _⟩ := Option.bind_eq_some_iff.mp hfirst.first
    have hblock : (m.scope i).kind ≠ .blockScope := by
      rcases hfirst.kind_eq with hk | hk <;> simp [hk]
    exact .inr ⟨p, hp, fun j hj => h j (.head hp hj), hfirst, H.pathNames_eq hp hblock⟩

/-- The names of the scopes around a scope lead down to it. -/
theorem foldlM_pathNames (H : m.TreeInv) (h : m.FoundByNames i) :
    (m.pathNames i).foldlM m.scopeNamed? root = some i := by
  induction i using H.parent_induction with
  | step i ih =>
    rcases H.foundByNames_cases h with rfl | ⟨p, hp, hparent, hfirst, hnames⟩
    · rw [H.pathNames_root]
      rfl
    · have hfound : m.firstDeclared? p (m.scope i).name = some i := by
        simpa [hp] using hfirst.first
      rw [hnames, List.foldlM_append, ih p hp hparent]
      simp [H.scopeNamed?_eq, hfound]

/-- The first of the names is that of the outermost scope below the global namespace. -/
theorem head?_pathNames (H : m.TreeInv) (h : m.FoundByNames i) (hname : (m.pathNames i).head? = some name) :
    ∃ t, m.Within i t ∧ (m.scope t).parent = some root ∧ (m.scope t).name = name := by
  induction i using H.parent_induction with
  | step i ih =>
    rcases H.foundByNames_cases h with rfl | ⟨p, hp, hparent, hfirst, hnames⟩
    · rw [H.pathNames_root] at hname
      cases hname
    · rw [hnames, List.head?_append] at hname
      cases hhead : (m.pathNames p).head? with
      | some first =>
        rw [hhead] at hname
        obtain ⟨t, ht, htop⟩ := ih p hp hparent (hhead.trans hname)
        exact ⟨t, .head hp ht, htop⟩
      | none =>
        rw [hhead] at hname
        rcases H.foundByNames_cases hparent with rfl | ⟨q, _, _, _, hnames'⟩
        · exact ⟨i, .refl, hp, Option.some.inj hname⟩
        · simp [hnames'] at hhead

end TreeInv

/-- A name that starts with a double colon is looked up from the global namespace, component by component. -/
theorem classNamed?_global {name first : String} {rest : List String} (htrim : Text.trim ("::" ++ name) = "::" ++ name)
    (hparts : Text.components name = first :: rest) (hne : first ≠ "")
    (hparam : (m.scope source).hasTemplateParam first = false)
    (hfound : (first :: rest).foldlM m.scopeNamed? root = some s) (hclass : (m.scope s).isClass = true) :
    m.classNamed? ("::" ++ name) source = some s := by
  have hglobal : "::".isPrefixOf ("::" ++ name) = true := by
    apply String.startsWith_string_iff.mpr
    rw [String.toList_append]
    exact List.prefix_append _ _
  have hdrop : String.ofList (("::" ++ name).toList.drop 2) = name := by
    rw [String.toList_append]
    exact String.ofList_toList
  rw [List.foldlM_cons] at hfound
  obtain ⟨start, hstart, hrest⟩ := Option.bind_eq_some_iff.mp hfound
  simp only [classNamed?, htrim, hglobal, if_true, hdrop, hparts, hne, hparam, List.findSome?_singleton, hstart]
  simp [hrest, hclass]

end Model

/-- **A class is found by its own qualified name**, from wherever a base clause gives the name in full. It has to be,
as each class and namespace around it, the first of its name in its parent; the names are plain, and those of the scopes
around it do not end in a colon; and the first of them is no template parameter of the class with the base clause. -/
theorem CompilationUnit.resolveBase?_qualifiedName (u : CompilationUnit) {s source : ScopeId} {info : TypeInfo}
    {args : List TypeRef} (hclass : (u.model.scope s).isClass = true)
    (hfirst : ∀ i, u.model.Within s i → i ≠ Model.root → u.model.FirstOfName i)
    (hplain : ∀ i, u.model.Within s i → i ≠ Model.root → Text.IsPlain (u.model.scope i).name)
    (hends : ∀ i, u.model.StrictlyWithin s i → i ≠ Model.root → ¬ Text.EndsInColon (u.model.scope i).name)
    (hparam : ∀ i, u.model.Within s i → (u.model.scope i).parent = some Model.root →
      (u.model.scope source).hasTemplateParam (u.model.scope i).name = false)
    (href : info.ref = "") (hname : info.name = "::" ++ u.model.qualifiedName s) :
    u.model.resolveBase? (.node info args) source = some s := by
  have H := u.model_inv.toTreeInv
  have hroot : s ≠ Model.root := by
    rintro rfl
    simp [Scope.isClass, H.root_kind] at hclass
  obtain ⟨p, hp, _, hown, hnames⟩ := (H.foundByNames_cases hfirst).resolve_left hroot
  obtain ⟨first, rest, hcons⟩ : ∃ first rest, u.model.pathNames s = first :: rest :=
    List.exists_cons_of_ne_nil (by simp [hnames])
  have hparts : Text.components (u.model.qualifiedName s) = first :: rest := by
    rw [Model.qualifiedName_eq, hcons]
    apply Text.components_intercalate
    · intro name hmem
      obtain ⟨i, hi, hne, rfl⟩ := H.mem_pathNames (hcons ▸ hmem)
      exact (hplain i hi hne).undivided
    · intro name hmem
      rw [← hcons, hnames, List.dropLast_concat] at hmem
      obtain ⟨i, hi, hne, rfl⟩ := H.mem_pathNames hmem
      exact hends i ⟨.head hp hi, H.ne_of_parent_within hp hi⟩ hne
  obtain ⟨t, ht, htop, htname⟩ := H.head?_pathNames hfirst (congrArg List.head? hcons)
  have htrim : Text.trim ("::" ++ u.model.qualifiedName s) = "::" ++ u.model.qualifiedName s := by
    rw [Model.qualifiedName_eq, hnames]
    exact Text.trim_global (hplain s .refl hroot).trim_eq hown.name_ne
  have htroot : t ≠ Model.root := by
    rintro rfl
    simp [H.root_parent] at htop
  have hfound := Model.classNamed?_global htrim hparts (htname ▸ (hfirst t ht htroot).name_ne)
    (htname ▸ hparam t ht htop) (hcons ▸ H.foldlM_pathNames hfirst) hclass
  have hnone : u.model.classById? info.ref = none := by
    rw [href]
    rfl
  rw [Model.resolveBase?, hnone, hname, hfound]
  rfl

/-- A namespace in two pieces, of which the first declares a class and the second defines it, and a class template
beside it. -/
def nestedUnit : CompilationUnit where
  file := "a.cpp"
  decls := some
    [.node { kind := "namespace", name := "N" } [.node { kind := "class", name := "A" } []],
      .node { kind := "namespace", name := "N" }
        [.node { kind := "function", name := "B" } [],
          .node { kind := "class", name := "A" } [.node { kind := "class", name := "B" } []]],
      .node { kind := "class", name := "C", template := true, templateParams := ["A", "B"] } []]

theorem resolveBase?_qualifiedName_sample :
    let m := nestedUnit.model
    m.qualifiedName 4 = "N::A::B" ∧ (m.scope 4).isClass = true ∧
      (∀ i ∈ m.chain 4, i ≠ Model.root → m.FirstOfName i ∧ Text.IsPlain (m.scope i).name ∧
        ¬ Text.EndsInColon (m.scope i).name) ∧
      (m.scope 5).templateParams = ["A", "B"] ∧
      m.resolveBase? (.node { name := "::" ++ m.qualifiedName 4 } []) 5 = some 4 := by
  intro m
  have H : m.TreeInv := nestedUnit.model_inv.toTreeInv
  have hclass : (m.scope 4).isClass = true := by decide +kernel
  have hpath : ∀ i ∈ m.chain 4, i ≠ Model.root → m.FirstOfName i ∧ Text.IsPlain (m.scope i).name ∧
      ¬ Text.EndsInColon (m.scope i).name := by
    decide +kernel
  have hparam : ∀ i ∈ m.chain 4, (m.scope i).parent = some Model.root →
      (m.scope 5).hasTemplateParam (m.scope i).name = false := by
    decide +kernel
  refine ⟨by decide +kernel, hclass, hpath, by decide +kernel, ?_⟩
  apply nestedUnit.resolveBase?_qualifiedName hclass
  · exact fun i hi hne => (hpath i (H.mem_chain.mpr hi) hne).1
  · exact fun i hi hne => (hpath i (H.mem_chain.mpr hi) hne).2.1
  · exact fun i hi hne => (hpath i (H.mem_chain.mpr hi.1) hne).2.2
  · exact fun i hi => hparam i (H.mem_chain.mpr hi)
  · rfl
  · rfl

/-- A class in a namespace whose name ends in a colon, and a class template beside them. -/
def colonUnit : CompilationUnit where
  file := "a.cpp"
  decls := some
    [.node { kind := "namespace", name := "N:" } [.node { kind := "class", name := "A" } []],
      .node { kind := "class", name := "C", template := true, templateParams := ["T"] } []]

/-- Behind a name that ends in a colon the components are cut in the wrong place, so that the class is not found. -/
theorem resolveBase?_behind_colon :
    let m := colonUnit.model
    (m.scope 2).isClass = true ∧
      (∀ i, m.Within 2 i → i ≠ Model.root → m.FirstOfName i ∧ Text.IsPlain (m.scope i).name) ∧
      (∀ i, m.Within 2 i → (m.scope i).parent = some Model.root →
        (m.scope 3).hasTemplateParam (m.scope i).name = false) ∧
      (m.scope 3).isClass = true ∧ m.qualifiedName 2 = "N:::A" ∧
      m.resolveBase? (.node { name := "::" ++ m.qualifiedName 2 } []) 3 = none := by
  intro m
  have H : m.TreeInv := colonUnit.model_inv.toTreeInv
  have hpath : ∀ i ∈ m.chain 2, i ≠ Model.root → m.FirstOfName i ∧ Text.IsPlain (m.scope i).name := by
    decide +kernel
  have hparam : ∀ i ∈ m.chain 2, (m.scope i).parent = some Model.root →
      (m.scope 3).hasTemplateParam (m.scope i).name = false := by
    decide +kernel
  refine ⟨by decide +kernel, fun i hi => hpath i (H.mem_chain.mpr hi), fun i hi => hparam i (H.mem_chain.mpr hi),
    by decide +kernel, by decide +kernel, by decide +kernel⟩

end TwoPhase
