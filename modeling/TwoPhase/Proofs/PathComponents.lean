import Mathlib.Tactic.MkIffOfInductiveProp
import TwoPhase.FileTree

/-!
# Cleaned paths and their components

Cleaning takes a path apart at its slashes and keeps a stack of components. This module says what is left
on the stack (`step_cases`, `mem_pieces_of_mem_components`), that the components can be read back from the
cleaned text (`pieces_glue`), and what the path of a name in a directory looks like: it ends with the
name, which is its base (`toList_join`, `base_join`).
-/

namespace TwoPhase

/-! ## Pieces and components -/

namespace Path

open PathSymbol (slash dot)

@[simp] theorem slash_char : (slash : Char) = '/' := rfl

@[simp] theorem dot_char : (dot : Char) = '.' := rfl

section

variable {α : Type} [PathSymbol α]

@[simp] theorem glue_nil : glue ([] : List (List α)) = [] := rfl

@[simp] theorem glue_singleton (p : List α) : glue [p] = p :=
  List.intercalate_singleton

theorem glue_cons_cons (p q : List α) (ps : List (List α)) :
    glue (p :: q :: ps) = p ++ slash :: glue (q :: ps) := by
  rw [glue, List.intercalate_cons_cons, List.append_assoc]
  rfl

theorem glue_append {ps qs : List (List α)} (hps : ps ≠ []) (hqs : qs ≠ []) :
    glue (ps ++ qs) = glue ps ++ slash :: glue qs := by
  obtain ⟨q, qs, rfl⟩ := List.exists_cons_of_ne_nil hqs
  induction ps with
  | nil => exact absurd rfl hps
  | cons p ps ih =>
    cases ps with
    | nil => exact (glue_cons_cons p q qs).trans (by rw [glue_singleton])
    | cons r ps =>
      have htail := ih (List.cons_ne_nil r ps)
      rw [List.cons_append, List.cons_append, glue_cons_cons, ← List.cons_append, htail, glue_cons_cons,
        List.append_assoc, List.cons_append]

theorem mem_glue {ps : List (List α)} {c : α} (hc : c ∈ glue ps) : c = slash ∨ ∃ p ∈ ps, c ∈ p := by
  induction ps with
  | nil => simp at hc
  | cons p ps ih =>
    cases ps with
    | nil => exact .inr ⟨p, List.mem_cons_self, by rwa [glue_singleton] at hc⟩
    | cons q ps =>
      rw [glue_cons_cons, List.mem_append, List.mem_cons] at hc
      rcases hc with hc | hc | hc
      · exact .inr ⟨p, List.mem_cons_self, hc⟩
      · exact .inl hc
      · exact (ih hc).imp_right fun ⟨r, hr, hcr⟩ => ⟨r, List.mem_cons_of_mem p hr, hcr⟩

variable [DecidableEq α]

theorem pieces_ne_nil (cs : List α) : pieces cs ≠ [] :=
  List.splitOn_ne_nil slash cs

theorem pieces_cons_slash (cs : List α) : pieces (slash :: cs) = [] :: pieces cs := by
  rw [pieces, List.splitOn_cons_eq_if_modifyHead, if_pos (beq_self_eq_true slash), pieces]

theorem pieces_of_not_mem {cs : List α} (h : slash ∉ cs) : pieces cs = [cs] :=
  List.splitOn_eq_singleton h

theorem pieces_append_slash (xs ys : List α) :
    pieces (xs ++ slash :: ys) = pieces xs ++ pieces ys :=
  List.splitOn_append_cons_self xs ys

/-- A piece is made of the characters of the path, and has no slash. -/
theorem mem_of_mem_pieces {cs p : List α} (hp : p ∈ pieces cs) : slash ∉ p ∧ p ⊆ cs := by
  induction cs generalizing p with
  | nil =>
    obtain rfl : p = [] := by simpa [pieces] using hp
    simp
  | cons c cs ih =>
    obtain ⟨q, qs, hq⟩ := List.exists_cons_of_ne_nil (pieces_ne_nil cs)
    by_cases hc : c = slash
    · rw [hc, pieces_cons_slash, List.mem_cons] at hp
      rcases hp with rfl | hp
      · simp
      · exact ⟨(ih hp).1, fun x hx => List.mem_cons_of_mem _ ((ih hp).2 hx)⟩
    · have hpieces : pieces (c :: cs) = (c :: q) :: qs := by
        rw [pieces, List.splitOn_cons_eq_if_modifyHead, if_neg (by simpa using hc), ← pieces, hq, List.modifyHead]
      rw [hpieces, List.mem_cons] at hp
      rcases hp with rfl | hp
      · obtain ⟨hslash, hsub⟩ := ih (hq ▸ List.mem_cons_self)
        exact ⟨List.not_mem_cons_of_ne_of_not_mem (Ne.symm hc) hslash, List.cons_subset_cons c hsub⟩
      · obtain ⟨hslash, hsub⟩ := ih (hq ▸ List.mem_cons_of_mem _ hp)
        exact ⟨hslash, fun x hx => List.mem_cons_of_mem _ (hsub hx)⟩

theorem pieces_glue {ps : List (List α)} (hne : ps ≠ []) (h : ∀ p ∈ ps, slash ∉ p) :
    pieces (glue ps) = ps :=
  List.splitOn_intercalate slash h hne

theorem isAbs_glue {ps : List (List α)} (h : ∀ p ∈ ps, p ≠ [] ∧ slash ∉ p) : isAbs (glue ps) = false := by
  cases ps with
  | nil => rfl
  | cons p ps =>
    obtain ⟨hne, hslash⟩ := h p List.mem_cons_self
    obtain ⟨c, cs, rfl⟩ := List.exists_cons_of_ne_nil hne
    have hc : c ≠ slash := fun hc => hslash (hc ▸ List.mem_cons_self)
    cases ps <;> simpa [glue, isAbs] using hc

theorem step_of_ne {p : List α} (hnil : p ≠ []) (hdot : p ≠ [dot]) (hdots : p ≠ [dot, dot]) (rooted : Bool)
    (stack : List (List α)) : step rooted stack p = p :: stack := by
  rw [step.eq_def, if_neg (not_or.mpr ⟨hnil, hdot⟩), if_neg hdots]

/-- What a component does to the stack: nothing, or it drops the last one, or it is added. -/
theorem step_cases (rooted : Bool) (stack : List (List α)) (p : List α) :
    ((p = [] ∨ p = [dot]) ∧ step rooted stack p = stack) ∨
    (p = [dot, dot] ∧ stack = [] ∧ rooted = true ∧ step rooted stack p = []) ∨
    (p = [dot, dot] ∧ ∃ q rest, stack = q :: rest ∧ q ≠ [dot, dot] ∧ step rooted stack p = rest) ∨
    (p ≠ [] ∧ p ≠ [dot] ∧ step rooted stack p = p :: stack) := by
  by_cases hskip : p = [] ∨ p = [dot]
  · exact .inl ⟨hskip, if_pos hskip⟩
  obtain ⟨hnil, hdot⟩ := not_or.mp hskip
  by_cases hdots : p = [dot, dot]
  · subst hdots
    cases stack with
    | nil => cases rooted with
      | true => exact .inr (.inl ⟨rfl, rfl, rfl, by simp [step]⟩)
      | false => exact .inr (.inr (.inr ⟨hnil, hdot, by simp [step]⟩))
    | cons q rest =>
      by_cases hq : q = [dot, dot]
      · exact .inr (.inr (.inr ⟨hnil, hdot, by simp [step, hq]⟩))
      · exact .inr (.inr (.inl ⟨rfl, q, rest, rfl, hq, by simp [step, hq]⟩))
  · exact .inr (.inr (.inr ⟨hnil, hdot, step_of_ne hnil hdot hdots rooted stack⟩))

theorem step_subset (rooted : Bool) (stack : List (List α)) (p : List α) :
    ∀ q ∈ step rooted stack p, q = p ∧ p ≠ [] ∧ p ≠ [dot] ∨ q ∈ stack := by
  intro q hq
  rcases step_cases rooted stack p with ⟨-, hs⟩ | ⟨-, -, -, hs⟩ | ⟨-, r, rest, rfl, -, hs⟩ | ⟨hnil, hdot, hs⟩
  · exact .inr (hs ▸ hq)
  · simp [hs] at hq
  · exact .inr (List.mem_cons_of_mem r (hs ▸ hq))
  · rcases List.mem_cons.mp (hs ▸ hq) with rfl | hq
    · exact .inl ⟨rfl, hnil, hdot⟩
    · exact .inr hq

theorem foldl_step_subset (rooted : Bool) (ps stack : List (List α)) :
    ∀ q ∈ ps.foldl (step rooted) stack, q ∈ ps ∧ q ≠ [] ∧ q ≠ [dot] ∨ q ∈ stack := by
  induction ps generalizing stack with
  | nil => exact fun q hq => .inr hq
  | cons p ps ih =>
    intro q hq
    rcases ih (step rooted stack p) q hq with ⟨hmem, hne⟩ | hmem
    · exact .inl ⟨List.mem_cons_of_mem p hmem, hne⟩
    · rcases step_subset rooted stack p q hmem with ⟨rfl, hne⟩ | hmem
      · exact .inl ⟨List.mem_cons_self, hne⟩
      · exact .inr hmem

/-- A component of a path is one of its pieces, and neither empty nor a dot. -/
theorem mem_pieces_of_mem_components {cs p : List α} (hp : p ∈ components cs) :
    p ∈ pieces cs ∧ p ≠ [] ∧ p ≠ [dot] := by
  have h := foldl_step_subset (isAbs cs) (pieces cs) [] p (List.mem_reverse.mp hp)
  exact h.resolve_right List.not_mem_nil

theorem isAbs_append {cs : List α} (hne : cs ≠ []) (ds : List α) : isAbs (cs ++ ds) = isAbs cs := by
  cases cs with
  | nil => exact absurd rfl hne
  | cons c cs => rfl

end

/-! ## A directory and a name -/

/-- A piece that names an entry of a directory. -/
@[mk_iff]
structure IsProper (p : List Char) : Prop where
  ne_nil : p ≠ []
  ne_dot : p ≠ ['.']
  ne_dots : p ≠ ['.', '.']

instance (p : List Char) : Decidable (IsProper p) :=
  decidable_of_iff' _ (isProper_iff p)

theorem step_of_isProper {p : List Char} (h : IsProper p) (rooted : Bool) (stack : List (List Char)) :
    step rooted stack p = p :: stack :=
  step_of_ne h.ne_nil h.ne_dot h.ne_dots rooted stack

variable {dir name : String}

/-- A string that can name an entry of a directory. -/
@[mk_iff]
structure IsName (name : String) : Prop where
  proper : IsProper name.toList
  slash_free : '/' ∉ name.toList
  zero_free : '\x00' ∉ name.toList
  short : name.utf8ByteSize ≤ 255

instance (name : String) : Decidable (IsName name) :=
  decidable_of_iff' _ (isName_iff name)

theorem components_append_name (hdir : dir ≠ "") (hname : IsName name) :
    components (dir.toList ++ '/' :: name.toList) = components dir.toList ++ [name.toList] := by
  have hne : dir.toList ≠ [] := by simpa using hdir
  have hpieces : pieces (dir.toList ++ '/' :: name.toList) = pieces dir.toList ++ pieces name.toList :=
    pieces_append_slash dir.toList name.toList
  rw [components, hpieces, pieces_of_not_mem hname.slash_free, isAbs_append hne,
    List.foldl_append, List.foldl_cons, List.foldl_nil, step_of_isProper hname.proper, List.reverse_cons]
  rfl

theorem toList_join (hdir : dir ≠ "") (hname : IsName name) :
    (join [dir, name]).toList = (if isAbs dir.toList then ['/'] else []) ++
      glue (components dir.toList ++ [name.toList]) := by
  have hne : dir.toList ≠ [] := by simpa using hdir
  have hjoin : joinLists [dir.toList, name.toList] = cleanList (dir.toList ++ '/' :: name.toList) := by
    simp [joinLists, hdir, glue_cons_cons]
  rw [join, String.toList_ofList, List.map_cons, List.map_cons, List.map_nil, hjoin, cleanList,
    isAbs_append hne, components_append_name hdir hname]
  cases isAbs dir.toList with
  | true => rfl
  | false =>
    obtain ⟨q, qs, hqs⟩ := List.exists_cons_of_ne_nil
      (List.concat_ne_nil name.toList (components dir.toList))
    simp [hqs]

/-- The path of a name in a directory ends with the name, and what is before it with a slash. -/
theorem exists_toList_join (hdir : dir ≠ "") (hname : IsName name) :
    ∃ front, (join [dir, name]).toList = front ++ name.toList ∧ (front = [] ∨ ∃ r, front = r ++ ['/']) := by
  rw [toList_join hdir hname]
  cases hcomps : components dir.toList with
  | nil =>
    cases isAbs dir.toList with
    | true => exact ⟨['/'], by simp, .inr ⟨[], rfl⟩⟩
    | false => exact ⟨[], by simp, .inl rfl⟩
  | cons q qs =>
    rw [glue_append (List.cons_ne_nil q qs) (List.cons_ne_nil _ []), glue_singleton]
    exact ⟨(if isAbs dir.toList then ['/'] else []) ++ glue (q :: qs) ++ ['/'], by simp, .inr ⟨_, rfl⟩⟩

/-- The base of a path is what is behind its last slash, if that is not empty. -/
theorem base_of_toList {path : String} {front x : List Char} (hlist : path.toList = front ++ x) (hx : x ≠ [])
    (hslash : '/' ∉ x) (hfront : front = [] ∨ ∃ r, front = r ++ ['/']) : base path = String.ofList x := by
  obtain ⟨c, cs, hrev⟩ := List.exists_cons_of_ne_nil (List.reverse_ne_nil_iff.mpr hx)
  have hslash : ∀ y ∈ x.reverse, (y ≠ '/') := fun y hy hs => hslash (hs ▸ List.mem_reverse.mp hy)
  have hc : c ≠ '/' := hslash c (hrev ▸ List.mem_cons_self)
  have hdrop : path.toList.reverse.dropWhile (· == '/') = x.reverse ++ front.reverse := by
    rw [hlist, List.reverse_append, hrev, List.cons_append, List.dropWhile_cons_of_neg (by simpa using hc)]
  have htake : (x.reverse ++ front.reverse).takeWhile (· ≠ '/') = x.reverse := by
    rw [List.takeWhile_append_of_pos (by simpa using hslash)]
    rcases hfront with rfl | ⟨r, rfl⟩ <;> simp
  have hnonempty : path.toList.isEmpty = false := by
    rw [hlist, List.isEmpty_eq_false_iff]
    exact List.append_ne_nil_of_right_ne_nil _ hx
  simp only [base, hnonempty, hdrop]
  rw [hrev, List.cons_append]
  show String.ofList ((c :: (cs ++ front.reverse)).takeWhile (· ≠ '/')).reverse = _
  rw [← List.cons_append, ← hrev, htake, List.reverse_reverse]

theorem base_join (hdir : dir ≠ "") (hname : IsName name) : base (join [dir, name]) = name := by
  obtain ⟨front, hlist, hfront⟩ := exists_toList_join hdir hname
  rw [base_of_toList hlist hname.proper.ne_nil hname.slash_free hfront, String.ofList_toList]

end Path

end TwoPhase
