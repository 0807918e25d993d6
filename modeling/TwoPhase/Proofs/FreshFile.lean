import Mathlib.Data.List.TakeWhile
import TwoPhase.AtomicWrite
import TwoPhase.Proofs.DecimalDigits
import TwoPhase.Proofs.FilePlaces

/-!
# The fresh file beside a path

The fresh file of a replacement stands in the directory of the path, which is cleaned as text, while the
path itself is walked as it is written. Where the path leads anywhere, the walk takes its last step from that
same directory (`exists_of_locate`). The name of the fresh file is longer than the name it is made from, so
the path never leads to the fresh file (`ne_of_locate`).
-/

namespace TwoPhase

/-- A path is taken apart behind its last slash. -/
theorem Path.exists_front (path : String) : ∃ front x, path.toList = front ++ x ∧ '/' ∉ x ∧
    dir path = clean (String.ofList front) ∧ (front = [] ∨ ∃ r, front = r ++ ['/']) := by
  let rs := path.toList.reverse
  refine ⟨(rs.dropWhile (· ≠ '/')).reverse, (rs.takeWhile (· ≠ '/')).reverse, ?_, ?_, rfl, ?_⟩
  · rw [← List.reverse_append, List.takeWhile_append_dropWhile, List.reverse_reverse]
  · intro hmem
    simpa using List.mem_takeWhile_imp (List.mem_reverse.mp hmem)
  · cases hrest : rs.dropWhile (· ≠ '/') with
    | nil => exact .inl rfl
    | cons c cs =>
      have hne : rs.dropWhile (· ≠ '/') ≠ [] := hrest ▸ List.cons_ne_nil c cs
      have hc := List.head_dropWhile_not _ hne
      simp only [hrest, List.head_cons, decide_eq_false_iff_not, not_not] at hc
      exact .inr ⟨cs.reverse, by rw [hc, List.reverse_cons]⟩

namespace FileTree

open TwoPhase.Path (pieces components IsProper)

variable {t : FileTree} {c : Course} {p q place : Place} {path fresh dir name pattern : String} {n : Nat}

/-! ## The directory of a path -/

theorem directory_of_walk {ps : List (List Char)} (hne : ps ≠ []) (h : t.walk p ps = .ok q) :
    t.entryAt? p = some .directory := by
  obtain ⟨x, ps, rfl⟩ := List.exists_cons_of_ne_nil hne
  obtain ⟨r, hstep, -⟩ := walk_cons_eq_ok.mp h
  exact (stepName_eq_ok.mp hstep).1

theorem eq_of_stepName (hname : IsProper name.toList) (h : t.stepName p name = .ok q) : q = p ++ [name] := by
  obtain ⟨hne, hdots⟩ := isProper_toList.mp hname
  obtain ⟨-, ⟨hskip, -⟩ | ⟨hup, -⟩ | ⟨-, -, hq⟩⟩ := stepName_eq_ok.mp h
  · exact absurd hskip hne
  · exact absurd hup hdots
  · exact hq

theorem locate_dot (h : t.entryAt? t.here = some .directory) : t.locate "." = .ok t.here := by
  refine locate_eq_ok.mpr ⟨by decide, by decide, walk_cons_eq_ok.mpr ⟨t.here, ?_, rfl⟩⟩
  exact stepName_eq_ok.mpr ⟨h, .inl ⟨.inr rfl, rfl⟩⟩

/-- Cleaning a path that can be walked does not change where it leads. -/
theorem locate_clean (h : t.locate path = .ok p) : t.locate (Path.clean path) = .ok p := by
  obtain ⟨-, hzero, hwalk⟩ := locate_eq_ok.mp h
  rw [Path.isAbsolute] at hwalk
  have hstart := directory_of_walk (Path.pieces_ne_nil _) hwalk
  have hcomps := walk_components (fun habs => if_pos habs) hwalk
  by_cases hnil : components path.toList = []
  · -- nothing is left but the place where the walk starts
    rw [hnil, walk_nil, Except.ok.injEq] at hcomps
    subst hcomps
    by_cases habs : Path.isAbs path.toList = true
    · rw [Path.clean, Path.cleanList, hnil, if_pos habs, if_pos habs]
      rfl
    · rw [if_neg habs] at hstart
      rw [Path.clean, Path.cleanList, hnil, if_neg habs, if_neg habs]
      exact locate_dot hstart
  · refine locate_glue hnil (fun y hy => ?_) hcomps ?_
    · obtain ⟨hpiece, hne, -⟩ := Path.mem_pieces_of_mem_components hy
      obtain ⟨hslash, hsub⟩ := Path.mem_of_mem_pieces hpiece
      exact ⟨⟨hne, hslash⟩, fun hmem => hzero (hsub hmem)⟩
    · rw [Path.clean, String.toList_ofList, Path.cleanList]
      cases Path.isAbs path.toList with
      | true => rfl
      | false =>
        obtain ⟨x, ps, hps⟩ := List.exists_cons_of_ne_nil hnil
        simp [hps]

/-- The last step of a path is taken from its directory. -/
theorem exists_of_locate (h : t.locate path = .ok p) : ∃ q x, t.locate (Path.dir path) = .ok q ∧
    t.stepName q x = .ok p ∧ (x ≠ "" → Path.base path = x) := by
  obtain ⟨front, x, hlist, hslash, hdir, hfront⟩ := Path.exists_front path
  obtain ⟨hne, hzero, hwalk⟩ := locate_eq_ok.mp h
  have hbase : String.ofList x ≠ "" → Path.base path = String.ofList x := fun hx =>
    Path.base_of_toList hlist (by simpa using hx) hslash hfront
  have hlast : pieces x = [x] := Path.pieces_of_not_mem hslash
  rcases hfront with rfl | ⟨r, rfl⟩
  · rw [List.nil_append] at hlist
    have hrel : Path.isAbsolute path = false := by
      rw [Path.isAbsolute, hlist]
      cases x with
      | nil => rfl
      | cons c cs =>
        have hc : c ≠ '/' := fun hc => hslash (hc ▸ List.mem_cons_self)
        simpa [Path.isAbs] using hc
    rw [hrel, hlist, hlast, if_neg Bool.false_ne_true] at hwalk
    obtain ⟨q, hstep, hq⟩ := walk_cons_eq_ok.mp hwalk
    obtain rfl : q = p := by simpa using hq
    have hhere := (stepName_eq_ok.mp hstep).1
    exact ⟨t.here, _, hdir ▸ locate_dot hhere, hstep, hbase⟩
  · have hpieces : pieces path.toList = pieces r ++ [x] := by
      rw [hlist, List.append_assoc, ← hlast]
      exact Path.pieces_append_slash r x
    have habs : Path.isAbs path.toList = Path.isAbs (r ++ ['/']) := by
      rw [hlist, Path.isAbs_append (by simp)]
    rw [hpieces, walk_concat_eq_ok, Path.isAbsolute, habs] at hwalk
    obtain ⟨q, hq, hstep⟩ := hwalk
    have hstay : t.stepName q (String.ofList []) = .ok q :=
      stepName_eq_ok.mpr ⟨(stepName_eq_ok.mp hstep).1, .inl ⟨.inl rfl, rfl⟩⟩
    have hfront : t.locate (String.ofList (r ++ ['/'])) = .ok q := by
      refine locate_eq_ok.mpr ⟨by simp, ?_, ?_⟩
      · rw [String.toList_ofList]
        exact fun hmem => hzero (hlist ▸ List.mem_append_left x hmem)
      · have hsplit : pieces (r ++ ['/']) = pieces r ++ [[]] := Path.pieces_append_slash r []
        rw [Path.isAbsolute, String.toList_ofList, hsplit]
        exact walk_concat_eq_ok.mpr ⟨q, hq, hstay⟩
    exact ⟨q, _, hdir ▸ locate_clean hfront, hstep, hbase⟩

theorem toList_inside (dir name : String) : ∃ r, (inside dir name).toList = r ++ '/' :: name.toList ∧
    (dir.toList = r ++ ['/'] ∨ dir.toList = r) := by
  by_cases hslash : dir.toList.getLast? = some '/'
  · obtain ⟨r, hr⟩ := List.getLast?_eq_some_iff.mp hslash
    exact ⟨r, by simp [inside, hr], .inl hr⟩
  · exact ⟨dir.toList, by simp [inside, hslash], .inr rfl⟩

/-- A name behind the path of a directory leads to that name in the directory. -/
theorem eq_of_locate_inside (hdir : t.locate dir = .ok q) (hproper : IsProper name.toList)
    (hslash : '/' ∉ name.toList) (h : t.locate (inside dir name) = .ok p) : p = q ++ [name] := by
  obtain ⟨hne, -, hq⟩ := locate_eq_ok.mp hdir
  obtain ⟨-, -, hp⟩ := locate_eq_ok.mp h
  obtain ⟨r, hlist, hr⟩ := toList_inside dir name
  have hpieces : pieces (inside dir name).toList = pieces r ++ [name.toList] := by
    rw [hlist, ← Path.pieces_of_not_mem hslash]
    exact Path.pieces_append_slash r name.toList
  have habs : Path.isAbsolute (inside dir name) = Path.isAbsolute dir := by
    rw [Path.isAbsolute, Path.isAbsolute, hlist]
    rcases hr with hr | rfl
    · rw [hr, List.append_cons]
      exact Path.isAbs_append (by simp) _
    · exact Path.isAbs_append (by simpa using hne) _
  rw [hpieces, habs, walk_concat_eq_ok, String.ofList_toList] at hp
  obtain ⟨q', hwalk, hstep⟩ := hp
  suffices hqq : q' = q from hqq ▸ eq_of_stepName hproper hstep
  rcases hr with hr | hr
  · -- the empty piece behind the last slash leads nowhere else
    have hsplit : pieces (r ++ ['/']) = pieces r ++ [[]] := Path.pieces_append_slash r []
    rw [hr, hsplit, walk_concat_eq_ok, hwalk] at hq
    obtain ⟨q'', hq'', hlast⟩ := hq
    obtain rfl := Except.ok.inj hq''
    obtain ⟨hdirectory, -⟩ := stepName_eq_ok.mp hlast
    simpa [stepName, hdirectory] using hlast
  · rw [hr, hwalk] at hq
    exact Except.ok.inj hq

/-! ## The name of the fresh file -/

theorem length_le_numbered (pattern : String) (n : Nat) : pattern.length ≤ (numbered pattern n).length := by
  have hdigits : 0 < n.repr.length := Nat.length_repr_pos
  have hsplit : (pattern.toList.reverse.takeWhile (· ≠ '*')).length +
      (pattern.toList.reverse.dropWhile (· ≠ '*')).length = pattern.length := by
    rw [← List.length_append, List.takeWhile_append_dropWhile, List.length_reverse, String.length_toList]
  simp only [numbered, String.length_append, String.length_ofList, List.length_reverse, List.length_drop,
    Nat.toString_eq_repr]
  omega

theorem mem_numbered {x : Char} (h : x ∈ (numbered pattern n).toList) :
    x ∈ pattern.toList ∨ x.isDigit = true := by
  simp only [numbered, String.toList_append, String.toList_ofList, List.mem_append, List.mem_reverse,
    Nat.toString_eq_repr, Nat.toList_repr] at h
  rcases h with (h | h) | h
  · exact .inl (List.mem_reverse.mp ((List.dropWhile_sublist _).subset (List.mem_of_mem_drop h)))
  · exact .inr (isDigit_toDigits h)
  · exact .inl (List.mem_reverse.mp ((List.takeWhile_sublist _).subset h))

theorem isProper_of_length (h : 2 < name.length) : IsProper name.toList := by
  rw [← String.length_toList] at h
  refine ⟨?_, ?_, ?_⟩ <;> intro hlist <;> simp [hlist] at h

theorem exists_of_freshFrom?_eq_some {candidate : Nat → String} {tries : Nat}
    (h : t.freshFrom? candidate tries n = some fresh) :
    ∃ m f, fresh = candidate m ∧ t.find fresh = .error f := by
  induction tries generalizing n with
  | zero => cases h
  | succ tries ih =>
    rw [freshFrom?] at h
    cases hfind : t.find (candidate n) with
    | ok x => exact ih (by simpa [hfind] using h)
    | error f =>
      obtain rfl : candidate n = fresh := by simpa [hfind] using h
      exact ⟨n, f, rfl, hfind⟩

/-- The fresh file gets a place where nothing stood, under a name in the directory of the path. -/
theorem exists_of_freshFile_eq_ok (h : t.freshFile c path = .ok (fresh, place)) :
    c.fault .create = none ∧ t.locate fresh = .ok place ∧ t.entryAt? place = none ∧
      '/' ∉ ("tmp-*-" ++ Path.base path).toList ∧
      ∃ n, fresh = inside (Path.dir path) (numbered ("tmp-*-" ++ Path.base path) n) := by
  simp only [freshFile] at h
  split at h
  · cases h
  next hslash =>
  split at h
  · cases h
  next candidate hcandidate =>
  split at h
  · cases h
  · cases h
  next hcreate htarget =>
  obtain ⟨rfl, rfl⟩ := Prod.mk.inj (Except.ok.inj h)
  have hloc := locate_of_target htarget
  obtain ⟨m, f, hname, hfind⟩ := exists_of_freshFrom?_eq_some hcandidate
  refine ⟨hcreate, hloc, ?_, by simpa using hslash, _, hname⟩
  cases hentry : t.entryAt? _ with
  | none => rfl
  | some e => simp [find_eq_ok.mpr ⟨hloc, hentry⟩] at hfind

/-- The path does not lead to the fresh file. -/
theorem ne_of_locate (hfresh : t.freshFile c path = .ok (fresh, place)) (hloc : t.locate path = .ok p) :
    p ≠ place := by
  obtain ⟨-, hplace, -, hslash, n, hpath⟩ := exists_of_freshFile_eq_ok hfresh
  obtain ⟨q, x, hdir, hstep, hbase⟩ := exists_of_locate hloc
  generalize hname : numbered ("tmp-*-" ++ Path.base path) n = name at hpath
  rw [hpath] at hplace
  have hlong : 6 + (Path.base path).length ≤ name.length := by
    have hle := length_le_numbered ("tmp-*-" ++ Path.base path) n
    rwa [hname, String.length_append] at hle
  have hproper : IsProper name.toList := isProper_of_length (by omega)
  have hfree : '/' ∉ name.toList := by
    intro hmem
    rcases mem_numbered (hname ▸ hmem) with hmem | hdigit
    · exact hslash hmem
    · exact absurd hdigit (by decide)
  rw [eq_of_locate_inside hdir hproper hfree hplace]
  -- both are reached from the directory `q` in one step
  obtain ⟨-, ⟨-, rfl⟩ | ⟨-, rfl⟩ | ⟨hx, -, rfl⟩⟩ := stepName_eq_ok.mp hstep
  · simp
  · intro heq
    simpa using congrArg List.length heq
  · intro heq
    obtain rfl : x = name := by simpa using heq
    rw [hbase fun hnil => (isProper_toList.mp hx).1 (.inl hnil)] at hlong
    omega

end FileTree

end TwoPhase
