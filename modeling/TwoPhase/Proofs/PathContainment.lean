import TwoPhase.Proofs.PathComponents
import TwoPhase.Report.Filter

/-!
# Results inside a directory

A path is inside a directory if the components of the directory start those of the path. The filter
compares texts instead. Between cleaned paths the two differ in one way only: the text of `/src` also starts
that of `/src2/a.cpp`, where the last name runs on (`Path.inside_iff`). A path that is not clean can be
kept though it leads out of the directory again, and a directory that is not clean loses results inside it,
since joining cleans (`Results.below_eq_inside_iff_root`, `Results.below_keeps_relative_iff`).
-/

namespace TwoPhase

namespace Path

open PathSymbol (slash dot)

section

variable {α : Type} [PathSymbol α]

/-- Leaving out components leaves out parts of the text. -/
theorem glue_sublist {ps qs : List (List α)} (h : ps.Sublist qs) : (glue ps).Sublist (glue qs) := by
  induction h with
  | slnil => exact List.Sublist.slnil
  | @cons ps qs q h ih =>
    cases qs with
    | nil =>
      obtain rfl := List.sublist_nil.mp h
      exact List.nil_sublist _
    | cons r qs =>
      rw [glue_cons_cons]
      exact (ih.cons slash).trans (List.sublist_append_right q _)
  | @cons_cons ps qs q h ih =>
    cases ps with
    | nil =>
      cases qs with
      | nil => exact List.Sublist.refl _
      | cons r qs =>
        rw [glue_singleton, glue_cons_cons]
        exact List.sublist_append_left q _
    | cons p ps =>
      obtain ⟨r, qs, rfl⟩ := List.exists_cons_of_ne_nil (List.ne_nil_of_length_pos
        (Nat.lt_of_lt_of_le (Nat.zero_lt_succ ps.length) h.length_le))
      rw [glue_cons_cons, glue_cons_cons]
      exact (ih.cons_cons slash).append_left q

theorem glue_prefix_glue {ps qs : List (List α)} (h : ps <+: qs) : glue ps <+: glue qs := by
  obtain ⟨rest, rfl⟩ := h
  by_cases hps : ps = []
  · rw [hps]
    exact List.nil_prefix
  by_cases hrest : rest = []
  · exact ⟨[], by rw [hrest, List.append_nil, List.append_nil]⟩
  · rw [glue_append hps hrest]
    exact List.prefix_append _ _

/-- A component of a path from the root: it names an entry of a directory. -/
structure IsEntry (p : List α) : Prop where
  ne_nil : p ≠ []
  ne_dot : p ≠ [dot]
  ne_dots : p ≠ [dot, dot]
  slash_free : slash ∉ p

theorem glue_ne_nil {ps : List (List α)} (hne : ps ≠ []) (h : ∀ p ∈ ps, IsEntry p) : glue ps ≠ [] := by
  obtain ⟨p, ps, rfl⟩ := List.exists_cons_of_ne_nil hne
  have hp := (h p List.mem_cons_self).ne_nil
  cases ps with
  | nil => rwa [glue_singleton]
  | cons q ps =>
    rw [glue_cons_cons]
    exact List.append_ne_nil_of_left_ne_nil hp _

/-- The text of the path starts with that of the directory, and goes on within a name. -/
def RunsOn (dir p : List α) : Prop :=
  dir <+: p ∧ ∃ c ∈ (p.drop dir.length).head?, c ≠ slash

theorem runsOn_append (dir rest : List α) : RunsOn dir (dir ++ rest) ↔ ∃ c ∈ rest.head?, c ≠ slash := by
  simp [RunsOn]

theorem not_runsOn_self (dir : List α) : ¬ RunsOn dir dir := by
  simp [RunsOn]

theorem runsOn_cons (c : α) (dir p : List α) : RunsOn (c :: dir) (c :: p) ↔ RunsOn dir p := by
  simp [RunsOn, List.cons_prefix_cons]

variable [DecidableEq α]

instance (dir p : List α) : Decidable (RunsOn dir p) :=
  inferInstanceAs (Decidable (_ ∧ _))

theorem glue_pieces (p : List α) : glue (pieces p) = p :=
  List.intercalate_splitOn slash

/-! ### Paths from the root -/

/-- From the root, `..` drops the last component if there is one. -/
theorem step_rooted {stack : List (List α)} (h : [dot, dot] ∉ stack) (p : List α) :
    step true stack p =
      if p = [] ∨ p = [dot] then stack else if p = [dot, dot] then stack.tail else p :: stack := by
  unfold step
  split
  · rfl
  · split
    · cases stack with
      | nil => rfl
      | cons q rest =>
        have hq : q ≠ [dot, dot] := fun hq => h (hq ▸ List.mem_cons_self)
        simp [hq]
    · rfl

theorem dots_not_mem_foldl_step {ps stack : List (List α)} (h : [dot, dot] ∉ stack) :
    [dot, dot] ∉ ps.foldl (step true) stack := by
  induction ps generalizing stack with
  | nil => exact h
  | cons p ps ih =>
    apply ih
    rw [step_rooted h]
    split
    · exact h
    · split
      · exact fun hmem => h (List.mem_of_mem_tail hmem)
      · next hp => exact List.not_mem_cons_of_ne_of_not_mem (Ne.symm hp) h

theorem foldl_step_entries {ps : List (List α)} (h : ∀ p ∈ ps, IsEntry p) (rooted : Bool) (stack : List (List α)) :
    ps.foldl (step rooted) stack = ps.reverse ++ stack := by
  induction ps generalizing stack with
  | nil => rfl
  | cons p ps ih =>
    obtain ⟨hp, hps⟩ := List.forall_mem_cons.mp h
    rw [List.foldl_cons, step_of_ne hp.ne_nil hp.ne_dot hp.ne_dots, ih hps, List.reverse_cons, List.append_assoc,
      List.singleton_append]

variable {dir p q : List α}

theorem exists_cons_of_isAbs (h : isAbs p = true) : ∃ p', p = slash :: p' := by
  cases p with
  | nil => cases h
  | cons c p => exact ⟨p, by rw [beq_iff_eq.mp h]⟩

theorem ne_nil_of_isAbs (h : isAbs p = true) : p ≠ [] := by
  obtain ⟨p', rfl⟩ := exists_cons_of_isAbs h
  exact List.cons_ne_nil slash p'

theorem isAbs_append_of_isAbs (h : isAbs p = true) (q : List α) : isAbs (p ++ q) = true :=
  (isAbs_append (ne_nil_of_isAbs h) q).trans h

theorem step_nil (rooted : Bool) (stack : List (List α)) : step rooted stack [] = stack :=
  if_pos (.inl rfl)

theorem components_cons_slash (p : List α) :
    components (slash :: p) = ((pieces p).foldl (step true) []).reverse := by
  have habs : isAbs (slash :: p) = true := beq_self_eq_true slash
  rw [components, habs, pieces_cons_slash, List.foldl_cons, step_nil]

theorem isEntry_of_mem_components (h : isAbs p = true) : ∀ q ∈ components p, IsEntry q := by
  intro q hq
  obtain ⟨hpiece, hnil, hdot⟩ := mem_pieces_of_mem_components hq
  have hdots : [dot, dot] ∉ components p := by
    rw [components, h, List.mem_reverse]
    exact dots_not_mem_foldl_step List.not_mem_nil
  exact ⟨hnil, hdot, fun hq' => hdots (hq' ▸ hq), (mem_of_mem_pieces hpiece).1⟩

theorem cleanList_of_isAbs (h : isAbs p = true) : cleanList p = slash :: glue (components p) :=
  if_pos h

theorem isAbs_cleanList (h : isAbs p = true) : isAbs (cleanList p) = true := by
  rw [cleanList_of_isAbs h]
  exact beq_self_eq_true slash

/-- Components from the root are read back from their text. -/
theorem components_rooted {ps : List (List α)} (h : ∀ p ∈ ps, IsEntry p) : components (slash :: glue ps) = ps := by
  rw [components_cons_slash]
  by_cases hps : ps = []
  · rw [hps]
    rfl
  · rw [pieces_glue hps fun p hp => (h p hp).slash_free, foldl_step_entries h, List.append_nil,
      List.reverse_reverse]

theorem components_cleanList (h : isAbs p = true) : components (cleanList p) = components p := by
  rw [cleanList_of_isAbs h, components_rooted (isEntry_of_mem_components h)]

theorem cleanList_cleanList (h : isAbs p = true) : cleanList (cleanList p) = cleanList p := by
  rw [cleanList_of_isAbs (isAbs_cleanList h), components_cleanList h, ← cleanList_of_isAbs h]

/-! ### What cleaning leaves out -/

theorem step_sublist (rooted : Bool) (stack : List (List α)) (p : List α) :
    (step rooted stack p).reverse.Sublist (stack.reverse ++ [p]) := by
  rcases step_cases rooted stack p with ⟨-, hs⟩ | ⟨-, -, -, hs⟩ | ⟨-, q, rest, rfl, -, hs⟩ | ⟨-, -, hs⟩ <;> rw [hs]
  · exact List.sublist_append_left _ _
  · exact List.nil_sublist _
  · rw [List.reverse_cons, List.append_assoc]
    exact List.sublist_append_left _ _
  · simp

theorem foldl_step_sublist (rooted : Bool) (ps stack : List (List α)) :
    (ps.foldl (step rooted) stack).reverse.Sublist (stack.reverse ++ ps) := by
  induction ps generalizing stack with
  | nil => exact List.sublist_append_left _ _
  | cons p ps ih =>
    have hstep := (step_sublist rooted stack p).append_right ps
    rw [List.append_assoc, List.singleton_append] at hstep
    exact (ih (step rooted stack p)).trans hstep

/-- Cleaning a path from the root only leaves out symbols. -/
theorem cleanList_sublist (h : isAbs p = true) : (cleanList p).Sublist p := by
  rw [cleanList_of_isAbs h]
  obtain ⟨p', rfl⟩ := exists_cons_of_isAbs h
  have hsub : (components (slash :: p')).Sublist (pieces p') := by
    rw [components_cons_slash]
    exact foldl_step_sublist true (pieces p') []
  have hglue := glue_sublist hsub
  rw [glue_pieces] at hglue
  exact hglue.cons_cons slash

theorem cleanList_eq_self (h : isAbs p = true) (hpre : p <+: cleanList p) : cleanList p = p :=
  (hpre.eq_of_length_le (cleanList_sublist h).length_le).symm

/-! ### Paths below a directory -/

/-- A path that is the directory or below it, component by component. -/
def Inside (dir p : List α) : Prop :=
  components dir <+: components p

instance (dir p : List α) : Decidable (Inside dir p) :=
  inferInstanceAs (Decidable (components dir <+: components p))

/-- Between components, a text starts with another at a component's end or runs on. -/
theorem prefix_iff_glue {ds qs : List (List α)} (hne : ds ≠ []) (hds : ∀ p ∈ ds, IsEntry p)
    (hqs : ∀ p ∈ qs, IsEntry p) : ds <+: qs ↔ glue ds <+: glue qs ∧ ¬ RunsOn (glue ds) (glue qs) := by
  constructor
  · rintro ⟨rest, rfl⟩
    refine ⟨glue_prefix_glue (List.prefix_append ds rest), ?_⟩
    by_cases hrest : rest = []
    · rw [hrest, List.append_nil]
      exact not_runsOn_self (glue ds)
    · rw [glue_append hne hrest, runsOn_append]
      simp
  · rintro ⟨⟨rest, hglue⟩, hrun⟩
    have hne' : qs ≠ [] := by
      rintro rfl
      exact glue_ne_nil hne hds (List.append_eq_nil_iff.mp hglue).1
    have hpieces : pieces (glue ds ++ rest) = qs := by
      rw [hglue, pieces_glue hne' fun p hp => (hqs p hp).slash_free]
    rw [← hglue, runsOn_append] at hrun
    cases rest with
    | nil =>
      rw [List.append_nil, pieces_glue hne fun p hp => (hds p hp).slash_free] at hpieces
      exact hpieces ▸ List.prefix_rfl
    | cons c rest =>
      obtain rfl : c = slash := by simpa using hrun
      rw [pieces_append_slash, pieces_glue hne fun p hp => (hds p hp).slash_free] at hpieces
      exact ⟨pieces rest, hpieces⟩

/-- A clean path is inside a clean directory if its text starts with that of the directory and does not
run on. -/
theorem inside_iff (hdir : isAbs dir = true) (hroot : dir ≠ [slash]) (hcdir : cleanList dir = dir)
    (hp : isAbs p = true) (hcp : cleanList p = p) : Inside dir p ↔ dir <+: p ∧ ¬ RunsOn dir p := by
  have hdir' : slash :: glue (components dir) = dir := (cleanList_of_isAbs hdir).symm.trans hcdir
  have hp' : slash :: glue (components p) = p := (cleanList_of_isAbs hp).symm.trans hcp
  have hne : components dir ≠ [] := fun hnil => hroot (by rw [← hdir', hnil]; rfl)
  have h := prefix_iff_glue hne (isEntry_of_mem_components hdir) (isEntry_of_mem_components hp)
  rwa [← List.prefix_cons_inj (slash : α), ← runsOn_cons slash, hdir', hp'] at h

/-- The text of the clean directory starts that of a clean path inside it, the root included. -/
theorem prefix_of_inside (hdir : isAbs dir = true) (hp : isAbs p = true) (h : Inside dir p) :
    cleanList dir <+: cleanList p := by
  rw [cleanList_of_isAbs hdir, cleanList_of_isAbs hp]
  exact (List.prefix_cons_inj slash).mpr (glue_prefix_glue h)

theorem foldl_step_suffix {ps : List (List α)} (h : [dot, dot] ∉ ps) (rooted : Bool) (stack : List (List α)) :
    stack <:+ ps.foldl (step rooted) stack := by
  induction ps generalizing stack with
  | nil => exact List.suffix_rfl
  | cons p ps ih =>
    obtain ⟨hp, hps⟩ := not_or.mp (mt List.mem_cons.mpr h)
    refine List.IsSuffix.trans ?_ (ih hps (step rooted stack p))
    rcases step_cases rooted stack p with ⟨-, hs⟩ | ⟨hdots, -⟩ | ⟨hdots, -⟩ | ⟨-, -, hs⟩
    · exact hs.symm ▸ List.suffix_rfl
    · exact absurd hdots.symm hp
    · exact absurd hdots.symm hp
    · rw [hs]
      exact List.suffix_cons p stack

theorem components_append_slash (hdir : isAbs dir = true) (q : List α) :
    components (dir ++ slash :: q) = ((pieces q).foldl (step true) (components dir).reverse).reverse := by
  rw [components, isAbs_append (ne_nil_of_isAbs hdir), pieces_append_slash, hdir, List.foldl_append, components, hdir,
    List.reverse_reverse]

/-- A path without `..` stays inside the directory that it starts from. -/
theorem inside_append (hdir : isAbs dir = true) (hq : [dot, dot] ∉ pieces q) : Inside dir (dir ++ slash :: q) := by
  rw [Inside, components_append_slash hdir, ← List.reverse_suffix, List.reverse_reverse]
  exact foldl_step_suffix hq true _

/-- The parent of a directory is not inside it. -/
theorem not_inside_parent (hsym : (slash : α) ≠ dot) (hdir : isAbs dir = true) (hne : components dir ≠ []) :
    ¬ Inside dir (dir ++ slash :: [dot, dot]) := by
  intro hin
  have hdots : [dot, dot] ∉ (components dir).reverse := fun hmem =>
    (isEntry_of_mem_components hdir _ (List.mem_reverse.mp hmem)).ne_dots rfl
  have hpieces : pieces [dot, dot] = [[(dot : α), dot]] := pieces_of_not_mem (by simp [hsym])
  rw [Inside, components_append_slash hdir, hpieces, List.foldl_cons, List.foldl_nil, step_rooted hdots] at hin
  have hlen := hin.length_le
  have hpos := List.length_pos_iff.mpr hne
  simp at hlen
  omega

theorem cleanList_append_slash (hdir : isAbs dir = true) : cleanList (dir ++ [slash]) = cleanList dir := by
  have hcomps : components (dir ++ [slash]) = components dir := by
    rw [components_append_slash hdir, pieces_of_not_mem List.not_mem_nil, List.foldl_cons, List.foldl_nil,
      step_nil, List.reverse_reverse]
  rw [cleanList_of_isAbs (isAbs_append_of_isAbs hdir _), hcomps, cleanList_of_isAbs hdir]

theorem joinLists_pair (hdir : dir ≠ []) (q : List α) : joinLists [dir, q] = cleanList (dir ++ slash :: q) := by
  simp [joinLists, hdir, glue]

end

end Path

/-! ## The filter -/

namespace Result

open TwoPhase.Path PathSymbol

/-- The result with its path taken from the directory, unless it is absolute. -/
def placedIn (dir : Bytes) (r : Result) : Result :=
  if isAbs r.path then r else { r with path := joinLists [dir, r.path] }

variable {dir : Bytes} {r : Result}

theorem placedIn_of_isAbs (h : isAbs r.path = true) : r.placedIn dir = r :=
  if_pos h

theorem path_placedIn (hdir : isAbs dir = true) (h : isAbs r.path = false) :
    (r.placedIn dir).path = cleanList (dir ++ slash :: r.path) := by
  rw [placedIn, h]
  exact joinLists_pair (ne_nil_of_isAbs hdir) r.path

theorem isAbs_placedIn (hdir : isAbs dir = true) (r : Result) : isAbs (r.placedIn dir).path = true := by
  cases h : isAbs r.path with
  | true => rwa [placedIn_of_isAbs h]
  | false =>
    rw [path_placedIn hdir h]
    exact isAbs_cleanList (isAbs_append_of_isAbs hdir _)

theorem cleanList_placedIn (hdir : isAbs dir = true) (h : isAbs r.path = true → cleanList r.path = r.path) :
    cleanList (r.placedIn dir).path = (r.placedIn dir).path := by
  cases habs : isAbs r.path with
  | true =>
    rw [placedIn_of_isAbs habs]
    exact h habs
  | false =>
    rw [path_placedIn hdir habs]
    exact cleanList_cleanList (isAbs_append_of_isAbs hdir _)

end Result

namespace Results

open TwoPhase.Path PathSymbol

/-- The results inside a directory, with relative paths taken from it. -/
def inside (rs : Results) (dir : Bytes) : Results :=
  (rs.map (Result.placedIn dir)).filter fun r => Inside dir r.path

variable {dir : Bytes}

theorem below_eq (rs : Results) (dir : Bytes) :
    rs.below dir = (rs.map (Result.placedIn dir)).filter fun r => dir <+: r.path := by
  apply List.filter_congr
  intro r _
  rw [Bool.eq_iff_iff, List.isPrefixOf_iff_prefix, decide_eq_true_eq]

theorem below_eq_inside_iff (rs : Results) (dir : Bytes) :
    rs.below dir = rs.inside dir ↔
      ∀ r ∈ rs, (dir <+: (r.placedIn dir).path ↔ Inside dir (r.placedIn dir).path) := by
  rw [below_eq, inside]
  constructor
  · intro h r hr
    have hmem (s : Result) := congrArg (s ∈ ·) h
    simpa [List.mem_filter, List.mem_map_of_mem hr] using hmem (r.placedIn dir)
  · intro h
    apply List.filter_congr
    intro s hs
    obtain ⟨r, hr, rfl⟩ := List.mem_map.mp hs
    exact decide_eq_decide.mpr (h r hr)

/-- Texts agree with components for the root alone: any other directory is left again by `..`. -/
theorem below_eq_inside_iff_root (hdir : isAbs dir = true) :
    (∀ rs : Results, rs.below dir = rs.inside dir) ↔ dir = [slash] := by
  constructor
  · intro h
    have hagree (r : Result) (hr : isAbs r.path = true) : dir <+: r.path ↔ Inside dir r.path := by
      have hone := (below_eq_inside_iff [r] dir).mp (h [r]) r List.mem_cons_self
      rwa [Result.placedIn_of_isAbs hr] at hone
    by_cases hnil : components dir = []
    · have hin : Inside dir [slash] := by
        rw [Inside, hnil]
        exact List.nil_prefix
      obtain ⟨dir', rfl⟩ := exists_cons_of_isAbs hdir
      have hpre := (hagree { path := [slash] } rfl).mpr hin
      rw [List.prefix_nil.mp ((List.prefix_cons_inj slash).mp hpre)]
    · have habs : isAbs (dir ++ slash :: [dot, dot]) = true := isAbs_append_of_isAbs hdir _
      have hin := (hagree { path := dir ++ slash :: [dot, dot] } habs).mp (List.prefix_append dir _)
      exact absurd hin (not_inside_parent (by decide) hdir hnil)
  · rintro rfl rs
    rw [below_eq_inside_iff]
    intro r _
    obtain ⟨p, hp⟩ := exists_cons_of_isAbs (r.isAbs_placedIn hdir)
    rw [hp]
    exact iff_of_true (List.prefix_append [slash] p) List.nil_prefix

theorem below_singleton (r : Result) (dir : Bytes) :
    below [r] dir = [r.placedIn dir] ↔ dir <+: (r.placedIn dir).path := by
  simp [below_eq]

/-- Relative results without `..` are all kept only for a clean directory. -/
theorem below_keeps_relative_iff (hdir : isAbs dir = true) :
    (∀ r : Result, isAbs r.path = false → [dot, dot] ∉ pieces r.path → below [r] dir = [r.placedIn dir]) ↔
      cleanList dir = dir := by
  constructor
  · intro h
    -- the empty path stands for the directory itself, which is cleaned
    have hkept := (below_singleton _ dir).mp (h { path := [] } rfl (by decide))
    rw [Result.path_placedIn hdir rfl, cleanList_append_slash hdir] at hkept
    exact cleanList_eq_self hdir hkept
  · intro hclean r hrel hdots
    have habs : isAbs (dir ++ slash :: r.path) = true := isAbs_append_of_isAbs hdir _
    have hpre := prefix_of_inside hdir habs (inside_append hdir hdots)
    rwa [hclean, ← Result.path_placedIn hdir hrel, ← below_singleton] at hpre

/-- Between clean paths, what is kept and not inside runs on from the directory's last name. -/
theorem inside_eq_filter_below {rs : Results} (hdir : isAbs dir = true) (hroot : dir ≠ [slash])
    (hclean : cleanList dir = dir) (hrs : ∀ r ∈ rs, isAbs r.path = true → cleanList r.path = r.path) :
    rs.inside dir = (rs.below dir).filter fun r => ¬ RunsOn dir r.path := by
  rw [below_eq, inside, List.filter_filter]
  apply List.filter_congr
  intro s hs
  obtain ⟨r, hr, rfl⟩ := List.mem_map.mp hs
  have h := inside_iff hdir hroot hclean (r.isAbs_placedIn hdir) (Result.cleanList_placedIn hdir (hrs r hr))
  rw [Bool.eq_iff_iff, decide_eq_true_eq, Bool.and_eq_true, decide_eq_true_eq, decide_eq_true_eq, h]
  exact and_comm

/-- **The filter compares texts, not components.** Relative paths are taken from the directory, and a result
is kept, in order, if its path has the text of the directory in front. These are the results inside the
directory just when text and components agree on each of them; for every directory but the root some results
tell them apart. Only a clean directory keeps each relative result without `..`. With clean paths nothing
inside is lost, and what is kept from outside runs on from the name of the directory. -/
theorem below_compares_texts (rs : Results) (hdir : isAbs dir = true) :
    rs.below dir = (rs.map (Result.placedIn dir)).filter (fun r => dir <+: r.path) ∧
    (rs.below dir = rs.inside dir ↔
      ∀ r ∈ rs, (dir <+: (r.placedIn dir).path ↔ Inside dir (r.placedIn dir).path)) ∧
    ((∀ qs : Results, qs.below dir = qs.inside dir) ↔ dir = [slash]) ∧
    ((∀ r : Result, isAbs r.path = false → [dot, dot] ∉ pieces r.path → below [r] dir = [r.placedIn dir]) ↔
      cleanList dir = dir) ∧
    (dir ≠ [slash] → cleanList dir = dir → (∀ r ∈ rs, isAbs r.path = true → cleanList r.path = r.path) →
      rs.inside dir = (rs.below dir).filter fun r => ¬ RunsOn dir r.path) :=
  ⟨below_eq rs dir, below_eq_inside_iff rs dir, below_eq_inside_iff_root hdir, below_keeps_relative_iff hdir,
    inside_eq_filter_below hdir⟩

/-- A directory beside `/src` whose name starts alike, and a relative path. -/
theorem below_compares_texts_siblings :
    let src := Bytes.ofString "/src"
    let rs : Results := [{ path := Bytes.ofString "/src2/a.cpp" }, { path := Bytes.ofString "b/./c.h" }]
    isAbs src = true ∧
      rs.below src = [{ path := Bytes.ofString "/src2/a.cpp" }, { path := Bytes.ofString "/src/b/c.h" }] ∧
      rs.inside src = [{ path := Bytes.ofString "/src/b/c.h" }] ∧
      rs.inside src = (rs.below src).filter fun r => ¬ RunsOn src r.path := by
  intro src rs
  have hsrc : isAbs src = true := by decide
  have hclean : cleanList src = src := by decide
  have hrs : ∀ r ∈ rs, isAbs r.path = true → cleanList r.path = r.path := by decide
  obtain ⟨-, -, -, -, hfilter⟩ := below_compares_texts rs hsrc
  exact ⟨hsrc, by decide, by decide, hfilter (by decide) hclean hrs⟩

end Results

end TwoPhase
