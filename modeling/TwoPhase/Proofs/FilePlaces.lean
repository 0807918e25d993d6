import Mathlib.Data.List.Nodup
import TwoPhase.Proofs.PathComponents

/-!
# Paths and the places they lead to

A path is cleaned as text, without looking at any file, while walking it looks at every step. The two
agree where the walk succeeds: the cleaned components lead to the same place (`walk_components`), so the
path that joins a directory and a name leads to that name in the directory (`locate_join`).

Every change of a tree is described by what `entryAt?` reports afterwards, so that nothing above this
module looks at the list of entries. `WellFormed` is the invariant of that list, and `KeepsDirectories`
says that a change leaves all walks as they were.
-/

namespace TwoPhase

namespace FileTree

open TwoPhase.Path (pieces components step isAbs IsName IsProper)

variable {t t' : FileTree} {p q r b : Place} {e : FileEntry} {dir name path : String}

/-! ## What stands at a place -/

@[simp] theorem entryAt?_nil (t : FileTree) : t.entryAt? [] = some .directory := rfl

theorem ne_nil_of_not_directory (h : t.entryAt? p ≠ some .directory) : p ≠ [] := by
  rintro rfl
  exact h rfl

theorem ne_nil_of_missing (h : t.entryAt? p = none) : p ≠ [] := by
  rintro rfl
  cases h

theorem entryAt?_of_ne_nil (t : FileTree) (hp : p ≠ []) : t.entryAt? p = t.entries.lookup p := by
  rw [entryAt?, if_neg (by simpa using hp)]

theorem lookup_filter_ne (l : List (Place × FileEntry)) (p q : Place) :
    (l.filter (·.1 ≠ p)).lookup q = if q = p then none else l.lookup q := by
  induction l with
  | nil => simp
  | cons x l ih =>
    by_cases hx : x.1 = p
    · rw [List.filter_cons_of_neg (by simpa using hx), ih, List.lookup_cons, hx]
      by_cases hq : q = p
      · rw [if_pos hq, if_pos hq]
      · rw [if_neg hq, if_neg hq, beq_false_of_ne hq]
    · rw [List.filter_cons_of_pos (by simpa using hx), List.lookup_cons, List.lookup_cons, ih]
      by_cases hq : q = x.1
      · simp only [hq, beq_self_eq_true, if_neg hx]
      · rw [beq_false_of_ne hq]

theorem lookup_eq_some_iff_mem {l : List (Place × FileEntry)} (hl : (l.map Prod.fst).Nodup) :
    l.lookup p = some e ↔ (p, e) ∈ l := by
  induction l with
  | nil => simp
  | cons x l ih =>
    obtain ⟨hx, hl⟩ := List.nodup_cons.mp hl
    rw [List.mem_cons, List.lookup_cons]
    by_cases hp : p = x.1
    · subst hp
      have hother : (x.1, e) ∉ l := fun hmem => hx (List.mem_map.mpr ⟨_, hmem, rfl⟩)
      simp [hother, Prod.ext_iff, eq_comm]
    · simp [beq_false_of_ne hp, Prod.ext_iff, hp, ih hl]

theorem entryAt?_erase (t : FileTree) (hp : p ≠ []) (q : Place) :
    (t.erase p).entryAt? q = if q = p then none else t.entryAt? q := by
  by_cases hq : q = []
  · simp [hq, Ne.symm hp]
  · rw [entryAt?_of_ne_nil _ hq, entryAt?_of_ne_nil _ hq]
    exact lookup_filter_ne t.entries p q

theorem entryAt?_put (t : FileTree) (hp : p ≠ []) (e : FileEntry) (q : Place) :
    (t.put p e).entryAt? q = if q = p then some e else t.entryAt? q := by
  by_cases hq : q = []
  · simp [hq, Ne.symm hp]
  · rw [entryAt?_of_ne_nil _ hq, entryAt?_of_ne_nil _ hq]
    show (t.entries.filter (·.1 ≠ p) ++ [(p, e)]).lookup q = _
    rw [List.lookup_append, lookup_filter_ne]
    by_cases hqp : q = p
    · simp [hqp]
    · simp [hqp, List.lookup_cons, beq_false_of_ne hqp]

/-- Every place stands in the list once, and is made of names that a path can lead to. -/
@[mk_iff]
structure WellFormed (t : FileTree) : Prop where
  nodup : (t.entries.map Prod.fst).Nodup
  named : ∀ x ∈ t.entries, x.1 ≠ [] ∧ ∀ n ∈ x.1, IsName n

instance (t : FileTree) : Decidable t.WellFormed :=
  decidable_of_iff' _ (wellFormed_iff t)

namespace WellFormed

theorem mem_entries_iff (h : t.WellFormed) : (p, e) ∈ t.entries ↔ p ≠ [] ∧ t.entryAt? p = some e := by
  constructor
  · intro hmem
    have hp := (h.named _ hmem).1
    exact ⟨hp, (entryAt?_of_ne_nil t hp).trans ((lookup_eq_some_iff_mem h.nodup).mpr hmem)⟩
  · rintro ⟨hp, he⟩
    exact (lookup_eq_some_iff_mem h.nodup).mp ((entryAt?_of_ne_nil t hp).symm.trans he)

theorem isName (h : t.WellFormed) (he : t.entryAt? p = some e) : ∀ n ∈ p, IsName n := by
  by_cases hp : p = []
  · simp [hp]
  · exact (h.named _ (h.mem_entries_iff.mpr ⟨hp, he⟩)).2

theorem erase (h : t.WellFormed) (p : Place) : (t.erase p).WellFormed where
  nodup := h.nodup.sublist (List.filter_sublist.map Prod.fst)
  named x hx := h.named x (List.mem_of_mem_filter hx)

theorem put (h : t.WellFormed) (hp : p ≠ []) (hnames : ∀ n ∈ p, IsName n) (e : FileEntry) :
    (t.put p e).WellFormed where
  nodup := by
    have hrest := h.nodup.sublist (List.filter_sublist (p := (·.1 ≠ p)) |>.map Prod.fst)
    show ((t.entries.filter (·.1 ≠ p) ++ [(p, e)]).map Prod.fst).Nodup
    rw [List.map_append]
    exact hrest.append (List.nodup_singleton p) (by simp)
  named x hx := by
    rcases List.mem_append.mp hx with hx | hx
    · exact h.named x (List.mem_of_mem_filter hx)
    · obtain rfl := List.mem_singleton.mp hx
      exact ⟨hp, hnames⟩

end WellFormed

/-! ## Walking -/

theorem isProper_toList {x : String} : IsProper x.toList ↔ ¬ (x = "" ∨ x = ".") ∧ x ≠ ".." := by
  have hlist : ∀ y : String, x = y ↔ x.toList = y.toList := fun y => String.toList_inj.symm
  simp only [Path.isProper_iff, hlist, Ne, not_or, and_assoc]
  rfl

theorem stepName_eq_ok {x : String} : t.stepName p x = .ok q ↔ t.entryAt? p = some .directory ∧
    ((x = "" ∨ x = ".") ∧ q = p ∨ x = ".." ∧ q = p.dropLast ∨
      IsProper x.toList ∧ x.utf8ByteSize ≤ 255 ∧ q = p ++ [x]) := by
  rw [isProper_toList, stepName]
  cases t.entryAt? p with
  | none => simp
  | some e =>
    cases e with
    | file content executable => simp
    | directory =>
      by_cases hskip : x = "" ∨ x = "."
      · have hdots : x ≠ ".." := by rcases hskip with rfl | rfl <;> decide
        simp [hskip, hdots, eq_comm]
      by_cases hdots : x = ".."
      · subst hdots
        simpa using eq_comm
      by_cases hlong : 255 < x.utf8ByteSize
      · simp [hskip, hdots, hlong, Nat.not_le.mpr hlong]
      · simp [hskip, hdots, hlong, Nat.not_lt.mp hlong, eq_comm]

/-- A step leads to a place made of names. -/
theorem WellFormed.isName_of_stepName {x : String} (h : t.WellFormed) (hstep : t.stepName p x = .ok q)
    (hslash : '/' ∉ x.toList) (hzero : '\x00' ∉ x.toList) : ∀ n ∈ q, IsName n := by
  obtain ⟨hdir, hcases⟩ := stepName_eq_ok.mp hstep
  have hp := h.isName hdir
  rcases hcases with ⟨-, rfl⟩ | ⟨-, rfl⟩ | ⟨hproper, hshort, rfl⟩
  · exact hp
  · exact fun n hn => hp n ((List.dropLast_sublist p).subset hn)
  · intro n hn
    rcases List.mem_append.mp hn with hn | hn
    · exact hp n hn
    · obtain rfl := List.mem_singleton.mp hn
      exact ⟨hproper, hslash, hzero, hshort⟩

/-- Where the pieces of a path lead from a place. -/
def walk (t : FileTree) (p : Place) (ps : List (List Char)) : Except FileFault Place :=
  (ps.map String.ofList).foldlM t.stepName p

@[simp] theorem walk_nil (t : FileTree) (p : Place) : t.walk p [] = .ok p := rfl

theorem walk_cons_eq_ok {x : List Char} {ps : List (List Char)} :
    t.walk p (x :: ps) = .ok r ↔ ∃ q, t.stepName p (String.ofList x) = .ok q ∧ t.walk q ps = .ok r := by
  show Except.bind (t.stepName p (String.ofList x)) _ = .ok r ↔ _
  cases t.stepName p (String.ofList x) with
  | error fault => simp [Except.bind]
  | ok q => simp [Except.bind, walk]

theorem walk_append_eq_ok {ps qs : List (List Char)} :
    t.walk p (ps ++ qs) = .ok r ↔ ∃ q, t.walk p ps = .ok q ∧ t.walk q qs = .ok r := by
  induction ps generalizing p with
  | nil => simp
  | cons x ps ih =>
    simp only [List.cons_append, walk_cons_eq_ok, ih]
    constructor
    · rintro ⟨q, hstep, s, hps, hqs⟩
      exact ⟨s, ⟨q, hstep, hps⟩, hqs⟩
    · rintro ⟨s, ⟨q, hstep, hps⟩, hqs⟩
      exact ⟨q, hstep, s, hps, hqs⟩

theorem walk_concat_eq_ok {x : List Char} {ps : List (List Char)} :
    t.walk p (ps ++ [x]) = .ok r ↔ ∃ q, t.walk p ps = .ok q ∧ t.stepName q (String.ofList x) = .ok r := by
  simp only [walk_append_eq_ok, walk_cons_eq_ok, walk_nil, Except.ok.injEq, exists_eq_right]

/-- The stack of components leads to the same place as the pieces that were read so far. -/
theorem walk_step {rooted : Bool} {stack : List (List Char)} {x : List Char}
    (hroot : rooted = true → b = []) (hstack : ∀ y ∈ stack, y ≠ [] ∧ y ≠ ['.'])
    (hwalk : t.walk b stack.reverse = .ok p) (hstep : t.stepName p (String.ofList x) = .ok q) :
    t.walk b (step rooted stack x).reverse = .ok q := by
  obtain ⟨hdir, hcases⟩ := stepName_eq_ok.mp hstep
  rcases Path.step_cases rooted stack x with
    ⟨hx, hs⟩ | ⟨rfl, rfl, hr, hs⟩ | ⟨rfl, y, rest, rfl, hy, hs⟩ | ⟨-, -, hs⟩
  · have hpq : p = q := by
      rcases hx with rfl | rfl <;> simpa [stepName, hdir] using hstep
    rw [hs, ← hpq, hwalk]
  · obtain rfl : b = p := by simpa using hwalk
    have hq : b.dropLast = q := by simpa [stepName, hdir] using hstep
    rw [hs, ← hq, hroot hr]
    rfl
  · -- `..` goes back to where the component it cancels was read
    rw [List.reverse_cons, walk_concat_eq_ok] at hwalk
    obtain ⟨s, hrest, hlast⟩ := hwalk
    have hproper : IsProper y :=
      ⟨(hstack y List.mem_cons_self).1, (hstack y List.mem_cons_self).2, hy⟩
    have hp : p = s ++ [String.ofList y] := by
      obtain ⟨-, ⟨h, -⟩ | ⟨h, -⟩ | ⟨-, -, h⟩⟩ := stepName_eq_ok.mp hlast
      · rcases h with h | h
        · exact absurd (String.ofList_eq_empty_iff.mp h) hproper.ne_nil
        · exact absurd (String.ofList_inj.mp h) hproper.ne_dot
      · exact absurd (String.ofList_inj.mp h) hy
      · exact h
    have hq : p.dropLast = q := by simpa [stepName, hdir] using hstep
    rw [hs, ← hq, hp, List.dropLast_concat, hrest]
  · rw [hs, List.reverse_cons, walk_concat_eq_ok]
    exact ⟨p, hwalk, hstep⟩

theorem walk_foldl_step {rooted : Bool} {ps stack : List (List Char)}
    (hroot : rooted = true → b = []) (hstack : ∀ y ∈ stack, y ≠ [] ∧ y ≠ ['.'])
    (hwalk : t.walk b stack.reverse = .ok p) (hps : t.walk p ps = .ok q) :
    t.walk b (ps.foldl (step rooted) stack).reverse = .ok q := by
  induction ps generalizing stack p with
  | nil =>
    obtain rfl : p = q := by simpa using hps
    exact hwalk
  | cons x ps ih =>
    obtain ⟨r, hstep, hrest⟩ := walk_cons_eq_ok.mp hps
    refine ih (fun y hy => ?_) (walk_step hroot hstack hwalk hstep) hrest
    rcases Path.step_subset rooted stack x y hy with ⟨rfl, hy⟩ | hy
    · exact hy
    · exact hstack y hy

/-- The components of a path lead where its pieces do. -/
theorem walk_components {cs : List Char} (hroot : isAbs cs = true → b = [])
    (hwalk : t.walk b (pieces cs) = .ok p) : t.walk b (components cs) = .ok p :=
  walk_foldl_step hroot (by simp) rfl hwalk

theorem locate_eq_ok : t.locate path = .ok p ↔ path ≠ "" ∧ '\x00' ∉ path.toList ∧
    t.walk (if Path.isAbsolute path then [] else t.here) (pieces path.toList) = .ok p := by
  rw [locate]
  by_cases hempty : path = ""
  · simp [hempty]
  by_cases hzero : '\x00' ∈ path.toList
  · simp [hempty, hzero]
  · simp [hempty, hzero, walk]

theorem find_eq_ok : t.find path = .ok (p, e) ↔ t.locate path = .ok p ∧ t.entryAt? p = some e := by
  rw [find]
  cases t.locate path with
  | error fault => simp [bind, Except.bind]
  | ok q =>
    simp only [bind, Except.bind, Except.ok.injEq]
    cases hq : t.entryAt? q with
    | none =>
      refine iff_of_false (by simp [throw, throwThe, MonadExceptOf.throw]) ?_
      rintro ⟨rfl, he⟩
      simp [hq] at he
    | some x =>
      simp only [pure, Except.pure, Except.ok.injEq, Prod.mk.injEq]
      refine and_congr_right ?_
      rintro rfl
      rw [hq, Option.some.injEq]

/-- A path that can be walked leads to a place made of names. -/
theorem WellFormed.isName_of_locate (h : t.WellFormed) (hloc : t.locate path = .ok p) :
    ∀ n ∈ p, IsName n := by
  obtain ⟨-, hzero, hwalk⟩ := locate_eq_ok.mp hloc
  obtain ⟨ps, x, hps⟩ := (List.eq_nil_or_concat (pieces path.toList)).resolve_left (Path.pieces_ne_nil _)
  rw [hps, List.concat_eq_append, walk_concat_eq_ok] at hwalk
  obtain ⟨q, -, hstep⟩ := hwalk
  obtain ⟨hslash, hsub⟩ := Path.mem_of_mem_pieces (by simp [hps] : x ∈ pieces path.toList)
  exact h.isName_of_stepName hstep (by simpa using hslash) fun hmem => hzero (hsub (by simpa using hmem))

/-- A path that is glued from components is walked along them. -/
theorem locate_glue {rooted : Bool} {ps : List (List Char)} (hne : ps ≠ [])
    (hps : ∀ y ∈ ps, (y ≠ [] ∧ '/' ∉ y) ∧ '\x00' ∉ y)
    (hwalk : t.walk (if rooted then [] else t.here) ps = .ok p)
    (hpath : path.toList = (if rooted then ['/'] else []) ++ Path.glue ps) : t.locate path = .ok p := by
  have hpieces : pieces (Path.glue ps) = ps := Path.pieces_glue hne fun y hy => (hps y hy).1.2
  have hglue : Path.glue ps ≠ [] := by
    intro hempty
    obtain ⟨y, rest, rfl⟩ := List.exists_cons_of_ne_nil hne
    rw [hempty] at hpieces
    exact (hps y List.mem_cons_self).1.1 (List.cons.inj hpieces).1.symm
  refine locate_eq_ok.mpr ⟨?_, ?_, ?_⟩
  · rintro rfl
    exact hglue (List.append_eq_nil_iff.mp hpath.symm).2
  · rw [hpath, List.mem_append]
    rintro (hmem | hmem)
    · cases rooted <;> simp at hmem
    · rcases Path.mem_glue hmem with hmem | ⟨y, hy, hmem⟩
      · simp at hmem
      · exact (hps y hy).2 hmem
  · rw [Path.isAbsolute, hpath]
    cases rooted with
    | true =>
      -- the path starts with an empty piece, which stays at the root
      show t.walk [] (pieces ([] ++ PathSymbol.slash :: Path.glue ps)) = .ok p
      rw [Path.pieces_append_slash, hpieces]
      exact walk_cons_eq_ok.mpr ⟨[], rfl, hwalk⟩
    | false =>
      rw [if_neg Bool.false_ne_true] at hwalk
      rw [if_neg Bool.false_ne_true, List.nil_append, Path.isAbs_glue fun y hy => (hps y hy).1, hpieces,
        if_neg Bool.false_ne_true, hwalk]

/-- A name in a directory is found by the path that joins the two. -/
theorem locate_join (hdir : t.find dir = .ok (p, .directory)) (hname : IsName name) :
    t.locate (Path.join [dir, name]) = .ok (p ++ [name]) := by
  obtain ⟨hloc, hp⟩ := find_eq_ok.mp hdir
  obtain ⟨hne, hzero, hwalk⟩ := locate_eq_ok.mp hloc
  have hroot : isAbs dir.toList = true → (if isAbs dir.toList then [] else t.here) = [] := fun h => if_pos h
  have hstep : t.stepName p (String.ofList name.toList) = .ok (p ++ [name]) := by
    rw [String.ofList_toList]
    exact stepName_eq_ok.mpr ⟨hp, .inr (.inr ⟨hname.proper, hname.short, rfl⟩)⟩
  have hlast := walk_concat_eq_ok.mpr ⟨p, walk_components hroot hwalk, hstep⟩
  refine locate_glue (by simp) (fun y hy => ?_) hlast (Path.toList_join hne hname)
  rcases List.mem_append.mp hy with hy | hy
  · obtain ⟨hpiece, hnil, -⟩ := Path.mem_pieces_of_mem_components hy
    obtain ⟨hslash, hsub⟩ := Path.mem_of_mem_pieces hpiece
    exact ⟨⟨hnil, hslash⟩, fun hmem => hzero (hsub hmem)⟩
  · rw [List.mem_singleton.mp hy]
    exact ⟨⟨hname.proper.ne_nil, hname.slash_free⟩, hname.zero_free⟩

/-! ## Changes that keep directories -/

/-- The working directory and all directories stay. -/
structure KeepsDirectories (t t' : FileTree) : Prop where
  here : t'.here = t.here
  directory : ∀ q, t.entryAt? q = some .directory → t'.entryAt? q = some .directory

namespace KeepsDirectories

theorem walk {ps : List (List Char)} (h : t.KeepsDirectories t') (hwalk : t.walk p ps = .ok q) :
    t'.walk p ps = .ok q := by
  induction ps generalizing p with
  | nil => exact hwalk
  | cons x ps ih =>
    obtain ⟨r, hstep, hrest⟩ := walk_cons_eq_ok.mp hwalk
    obtain ⟨hdir, hcases⟩ := stepName_eq_ok.mp hstep
    exact walk_cons_eq_ok.mpr ⟨r, stepName_eq_ok.mpr ⟨h.directory p hdir, hcases⟩, ih hrest⟩

theorem locate (h : t.KeepsDirectories t') (hloc : t.locate path = .ok p) : t'.locate path = .ok p := by
  obtain ⟨hne, hzero, hwalk⟩ := locate_eq_ok.mp hloc
  exact locate_eq_ok.mpr ⟨hne, hzero, h.here ▸ h.walk hwalk⟩

theorem find (h : t.KeepsDirectories t') (hfind : t.find path = .ok (p, .directory)) :
    t'.find path = .ok (p, .directory) := by
  obtain ⟨hloc, hdir⟩ := find_eq_ok.mp hfind
  exact find_eq_ok.mpr ⟨h.locate hloc, h.directory p hdir⟩

theorem put (hp : t.entryAt? p ≠ some .directory) (e : FileEntry) : t.KeepsDirectories (t.put p e) where
  here := rfl
  directory q hq := by
    have hne := ne_nil_of_not_directory hp
    have hqp : q ≠ p := by
      rintro rfl
      exact hp hq
    rw [entryAt?_put t hne, if_neg hqp, hq]

theorem erase (hp : t.entryAt? p ≠ some .directory) : t.KeepsDirectories (t.erase p) where
  here := rfl
  directory q hq := by
    have hne := ne_nil_of_not_directory hp
    have hqp : q ≠ p := by
      rintro rfl
      exact hp hq
    rw [entryAt?_erase t hne, if_neg hqp, hq]

end KeepsDirectories

theorem failWith_eq_ok {α : Type} {operation : String} {x : Except FileFault α} {a : α} :
    failWith operation path x = .ok a ↔ x = .ok a := by
  cases x <;> simp [failWith]

theorem stat_eq_ok : t.stat path = .ok e ↔ ∃ p, t.find path = .ok (p, e) := by
  rw [stat, failWith_eq_ok]
  cases t.find path with
  | error fault => simp [Except.map]
  | ok x => simp [Except.map, Prod.ext_iff]

theorem locate_of_target (h : t.target path = .ok p) : t.locate path = .ok p := by
  rw [target] at h
  cases hloc : t.locate path with
  | error fault => simp [hloc, bind, Except.bind] at h
  | ok q =>
    simp only [hloc, bind, Except.bind] at h
    split at h
    · split at h <;> simp_all [throw, throwThe, MonadExceptOf.throw, pure, Except.pure]
    · cases h
    · cases h

/-- A file is written where its path leads, unless a directory stands there. -/
theorem exists_of_store_eq_ok {content : Bytes} {x : Bool} (h : t.store path content x = .ok t') :
    ∃ p y, t.locate path = .ok p ∧ t.entryAt? p ≠ some .directory ∧ t' = t.put p (.file content y) := by
  rw [store, failWith_eq_ok] at h
  cases htarget : t.target path with
  | error fault => simp [htarget, bind, Except.bind] at h
  | ok p =>
    have hloc := locate_of_target htarget
    simp only [htarget, bind, Except.bind] at h
    split at h
    · cases h
    · exact ⟨p, _, hloc, by simp [*], (Except.ok.inj h).symm⟩
    · exact ⟨p, _, hloc, by simp [*], (Except.ok.inj h).symm⟩

/-- A directory is made where its path leads, if nothing stands there. -/
theorem exists_of_makeDir_eq_ok (h : t.makeDir path = .ok t') :
    ∃ p, t.locate path = .ok p ∧ t.entryAt? p = none ∧ t' = t.put p .directory := by
  rw [makeDir, failWith_eq_ok] at h
  cases hloc : t.locate path with
  | error fault => simp [hloc, bind, Except.bind] at h
  | ok p =>
    simp only [hloc, bind, Except.bind] at h
    cases hentry : t.entryAt? p with
    | some e => simp [hentry, throw, throwThe, MonadExceptOf.throw] at h
    | none =>
      simp only [hentry, Option.isSome_none, Bool.false_eq_true, if_false] at h
      refine ⟨p, rfl, hentry, ?_⟩
      revert h
      cases t.entryAt? p.dropLast with
      | none => simp [throw, throwThe, MonadExceptOf.throw]
      | some e => cases e <;> simp [throw, throwThe, MonadExceptOf.throw, pure, Except.pure, eq_comm]

theorem remove_file {content : Bytes} {x : Bool} (h : t.find path = .ok (p, .file content x)) :
    t.remove path = .ok (t.erase p) := by
  rw [remove, failWith_eq_ok, h]
  rfl

/-! ## Making directories -/

theorem WellFormed.makeDir (h : t.WellFormed) (hmake : t.makeDir path = .ok t') : t'.WellFormed := by
  obtain ⟨p, hloc, hentry, rfl⟩ := exists_of_makeDir_eq_ok hmake
  exact h.put (ne_nil_of_missing hentry) (h.isName_of_locate hloc) .directory

theorem find_of_makeDir (hmake : t.makeDir path = .ok t') : ∃ p, t'.find path = .ok (p, .directory) := by
  obtain ⟨p, hloc, hentry, rfl⟩ := exists_of_makeDir_eq_ok hmake
  have hkeeps : t.KeepsDirectories (t.put p .directory) := .put (by simp [hentry]) _
  have hp := ne_nil_of_missing hentry
  exact ⟨p, find_eq_ok.mpr ⟨hkeeps.locate hloc, by simp [entryAt?_put t hp]⟩⟩

/-- What making a directory with those above it does: nothing if it is there, else it makes those above it,
if there are any, and then the directory, unless it is there by now. -/
theorem makeDirsWithin_cases {fuel : Nat} (h : t.makeDirsWithin (fuel + 1) path = .ok t') :
    t.stat path = .ok .directory ∧ t' = t ∨
      ∃ t₁, (t₁ = t ∨ t.makeDirsWithin fuel (above path) = .ok t₁) ∧
        (t₁.makeDir path = .ok t' ∨ t₁.stat path = .ok .directory ∧ t' = t₁) := by
  rw [makeDirsWithin] at h
  split at h
  · exact .inl ⟨‹_›, (Except.ok.inj h).symm⟩
  · cases h
  · refine .inr ?_
    simp only [bind, Except.bind, pure, Except.pure] at h
    split at h
    · refine ⟨t, .inl rfl, ?_⟩
      cases hmake : t.makeDir path with
      | ok t₂ => exact .inl (by simpa [hmake] using h)
      | error e =>
        simp only [hmake] at h
        split at h <;> simp_all
    · cases hparent : t.makeDirsWithin fuel (above path) with
      | error e => simp [hparent] at h
      | ok t₁ =>
        refine ⟨t₁, .inr rfl, ?_⟩
        simp only [hparent] at h
        cases hmake : t₁.makeDir path with
        | ok t₂ => exact .inl (by simpa [hmake] using h)
        | error e =>
          simp only [hmake] at h
          split at h <;> simp_all

theorem find_of_makeDirsWithin {fuel : Nat} (h : t.makeDirsWithin fuel path = .ok t') :
    ∃ p, t'.find path = .ok (p, .directory) := by
  cases fuel with
  | zero => simp [makeDirsWithin] at h
  | succ fuel =>
    obtain ⟨hstat, rfl⟩ | ⟨t₁, -, hmake | ⟨hstat, rfl⟩⟩ := makeDirsWithin_cases h
    · exact stat_eq_ok.mp hstat
    · exact find_of_makeDir hmake
    · exact stat_eq_ok.mp hstat

theorem WellFormed.makeDirsWithin {fuel : Nat} (h : t.WellFormed)
    (hmake : t.makeDirsWithin fuel path = .ok t') : t'.WellFormed := by
  induction fuel generalizing path t' with
  | zero => simp [FileTree.makeDirsWithin] at hmake
  | succ fuel ih =>
    obtain ⟨-, rfl⟩ | ⟨t₁, habove, hlast⟩ := makeDirsWithin_cases hmake
    · exact h
    · have h₁ : t₁.WellFormed := by
        obtain rfl | habove := habove
        · exact h
        · exact ih habove
      obtain hlast | ⟨-, rfl⟩ := hlast
      · exact h₁.makeDir hlast
      · exact h₁

/-! ## The entries of a directory -/

theorem nameIn_eq_some (p q : Place) : (match q.getLast? with
    | some n => if q.dropLast = p then some n else none
    | none => none) = some name ↔ q = p ++ [name] := by
  rcases List.eq_nil_or_concat q with rfl | ⟨r, n, rfl⟩ <;> simp

theorem mem_names : name ∈ t.names p ↔ ∃ e, (p ++ [name], e) ∈ t.entries := by
  rw [names, (List.mergeSort_perm _ _).mem_iff, List.mem_filterMap]
  constructor
  · rintro ⟨⟨q, e⟩, hmem, hq⟩
    exact ⟨e, (nameIn_eq_some p q).mp hq ▸ hmem⟩
  · rintro ⟨e, hmem⟩
    exact ⟨_, hmem, (nameIn_eq_some p _).mpr rfl⟩

theorem WellFormed.nodup_names (h : t.WellFormed) (p : Place) : (t.names p).Nodup := by
  have hnodup := h.nodup.filterMap fun q q' n (hq : (match q.getLast? with
      | some n => if q.dropLast = p then some n else none
      | none => none) = some n) hq' =>
    ((nameIn_eq_some p q).mp hq).trans ((nameIn_eq_some p q').mp hq').symm
  rw [List.filterMap_map] at hnodup
  exact (List.mergeSort_perm _ _).nodup_iff.mpr hnodup

/-- The list of a directory has every entry in it once. -/
theorem WellFormed.exists_children (h : t.WellFormed) (hdir : t.find dir = .ok (p, .directory)) :
    ∃ cs, t.children dir = .ok cs ∧ (cs.map Prod.fst).Nodup ∧
      ∀ n e, (n, e) ∈ cs ↔ t.entryAt? (p ++ [n]) = some e := by
  let cs := (t.names p).filterMap fun n => (t.entryAt? (p ++ [n])).map fun e => (n, e)
  have hmem : ∀ n e, (n, e) ∈ cs ↔ t.entryAt? (p ++ [n]) = some e := by
    intro n e
    simp only [cs, List.mem_filterMap, mem_names, h.mem_entries_iff, Option.map_eq_some_iff, Prod.mk.injEq]
    constructor
    · rintro ⟨n', -, e', he', rfl, rfl⟩
      exact he'
    · intro he
      exact ⟨n, ⟨e, by simp, he⟩, e, he, rfl, rfl⟩
  refine ⟨cs, by rw [children, hdir]; rfl, ?_, hmem⟩
  have hnodup : cs.Nodup := (h.nodup_names p).filterMap fun n n' x hx hx' => by
    simp only [Option.mem_def, Option.map_eq_some_iff] at hx hx'
    obtain ⟨e, -, rfl⟩ := hx
    obtain ⟨e', -, heq⟩ := hx'
    exact (Prod.mk.inj heq).1.symm
  refine hnodup.map_on fun x hx y hy hxy => Prod.ext hxy ?_
  have hx' := (hmem x.1 x.2).mp hx
  have hy' := (hmem y.1 y.2).mp hy
  rw [hxy, hy'] at hx'
  exact (Option.some.inj hx').symm

end FileTree

end TwoPhase
