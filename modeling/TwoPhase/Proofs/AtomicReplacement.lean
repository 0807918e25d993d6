import TwoPhase.Proofs.FreshFile

/-!
# A replacement is all or nothing

Up to its last step, a replacement only adds a file to the tree: `AddsFile` is the invariant, which every step
that fills the fresh file keeps (`addsFile_filling`). The last step turns such a tree into the old one with the
new content where the path leads (`AddsFile.takeOver_cases`), which is not where the fresh file stands. So the
removal at the end brings back the old tree if a step failed, and finds nothing to remove if none did.

The main result is `replaceAlong_allOrNothing`: whatever faults the steps meet, readers find the old
content or the new one at any time, a failed replacement leaves the tree as it was, and a successful one
changes nothing but the file.
-/

namespace TwoPhase

namespace FileTree

variable {t s : FileTree} {c : Course} {p q place : Place} {e : FileEntry} {path fresh : String}
  {content : Bytes} {executable : Bool}

/-! ## Trees with a file more -/

theorem erase_put (t : FileTree) (p : Place) (e : FileEntry) : (t.put p e).erase p = t.erase p := by
  simp [put, erase]

theorem erase_of_entryAt?_eq_none (h : t.entryAt? p = none) : t.erase p = t := by
  have hlookup := (entryAt?_of_ne_nil t (ne_nil_of_missing h)).symm.trans h
  have hall := List.lookup_eq_none_iff.mp hlookup
  have hkeep : t.entries.filter (·.1 ≠ p) = t.entries :=
    List.filter_eq_self.mpr fun x hx => decide_eq_true (Ne.symm (bne_iff_ne.mp (hall x hx)))
  rw [erase, hkeep]

/-- One file more stands in `s` than in `t`, at `place`. -/
structure AddsFile (t : FileTree) (place : Place) (s : FileTree) : Prop where
  erase_eq : s.erase place = t
  isFile : ∃ content executable, s.entryAt? place = some (.file content executable)

namespace AddsFile

theorem ne_nil (h : t.AddsFile place s) : place ≠ [] := by
  rintro rfl
  obtain ⟨content, executable, hfile⟩ := h.isFile
  simp at hfile

theorem here_eq (h : t.AddsFile place s) : s.here = t.here := by
  rw [← h.erase_eq]
  rfl

theorem entryAt?_of_ne (h : t.AddsFile place s) (hq : q ≠ place) : s.entryAt? q = t.entryAt? q := by
  rw [← h.erase_eq, entryAt?_erase s h.ne_nil, if_neg hq]

theorem entryAt?_place (h : t.AddsFile place s) : t.entryAt? place = none := by
  rw [← h.erase_eq, entryAt?_erase s h.ne_nil, if_pos rfl]

theorem put_new (hplace : t.entryAt? place = none) (content : Bytes) (executable : Bool) :
    t.AddsFile place (t.put place (.file content executable)) where
  erase_eq := by rw [erase_put, erase_of_entryAt?_eq_none hplace]
  isFile := ⟨content, executable, by rw [entryAt?_put t (ne_nil_of_missing hplace), if_pos rfl]⟩

theorem put (h : t.AddsFile place s) (content : Bytes) (executable : Bool) :
    t.AddsFile place (s.put place (.file content executable)) where
  erase_eq := by rw [erase_put, h.erase_eq]
  isFile := ⟨content, executable, by rw [entryAt?_put s h.ne_nil, if_pos rfl]⟩

theorem directory_iff (h : t.AddsFile place s) :
    s.entryAt? q = some .directory ↔ t.entryAt? q = some .directory := by
  by_cases hq : q = place
  · obtain ⟨content, executable, hfile⟩ := h.isFile
    simp [hq, hfile, h.entryAt?_place]
  · rw [h.entryAt?_of_ne hq]

/-- A file is no step on the way to anything. -/
theorem locate_iff (h : t.AddsFile place s) : s.locate path = .ok p ↔ t.locate path = .ok p := by
  have hless : s.KeepsDirectories t := ⟨h.here_eq.symm, fun q hq => h.directory_iff.mp hq⟩
  have hmore : t.KeepsDirectories s := ⟨h.here_eq, fun q hq => h.directory_iff.mpr hq⟩
  exact ⟨hless.locate, hmore.locate⟩

end AddsFile

/-! ## What readers find -/

/-- What a reader finds at a path. -/
def entryOf? (t : FileTree) (path : String) : Option FileEntry :=
  (t.stat path).toOption

theorem entryOf?_eq_some :
    t.entryOf? path = some e ↔ ∃ p, t.locate path = .ok p ∧ t.entryAt? p = some e := by
  have hok : t.entryOf? path = some e ↔ t.stat path = .ok e := by
    rw [entryOf?]
    cases t.stat path <;> simp [Except.toOption]
  simp only [hok, stat_eq_ok, find_eq_ok]

theorem AddsFile.entryOf?_eq (h : t.AddsFile place s) (hne : ∀ p, t.locate path = .ok p → p ≠ place) :
    s.entryOf? path = t.entryOf? path := by
  refine Option.ext fun e => ?_
  simp only [entryOf?_eq_some, h.locate_iff]
  refine exists_congr fun p => and_congr_right fun hloc => ?_
  rw [h.entryAt?_of_ne (hne p hloc)]

theorem entryOf?_put (hloc : t.locate path = .ok p) (hp : t.entryAt? p ≠ some .directory) (e : FileEntry) :
    (t.put p e).entryOf? path = some e := by
  have hentry : (t.put p e).entryAt? p = some e := by
    rw [entryAt?_put t (ne_nil_of_not_directory hp), if_pos rfl]
  exact entryOf?_eq_some.mpr ⟨p, (KeepsDirectories.put hp e).locate hloc, hentry⟩

/-! ## Steps in turn -/

namespace Replacement

variable {r : Replacement} {next : FileTree → Replacement} {step : FileTree → Replacement}
  {steps : List (FileTree → Replacement)}

theorem final_of_seen {P : FileTree → Prop} (ht : P t) (h : ∀ s ∈ r.seen, P s) : P (r.final t) := by
  rcases List.mem_cons.mp (List.getLastD_mem_cons (l := r.seen) (a := t)) with hlast | hlast
  · rw [final, hlast]
    exact ht
  · exact h _ hlast

theorem andThen_of_error {err : ReplaceError} (h : r.error = some err) : r.andThen t next = r := by
  rw [andThen, h]

theorem andThen_of_none (h : r.error = none) : r.andThen t next =
    { seen := r.seen ++ (next (r.final t)).seen, error := (next (r.final t)).error } := by
  rw [andThen, h]

theorem error_andThen : (r.andThen t next).error = none ↔
    r.error = none ∧ (next (r.final t)).error = none := by
  cases h : r.error with
  | some err => simp [andThen_of_error h, h]
  | none => simp [andThen_of_none h]

theorem final_andThen (h : r.error = none) :
    (r.andThen t next).final t = (next (r.final t)).final (r.final t) := by
  rw [andThen_of_none h]
  simp only [final, List.getLastD_eq_getLast?, List.getLast?_append]
  cases (next (r.seen.getLast?.getD t)).seen.getLast? <;> simp

/-- What every step keeps, all steps in turn keep. -/
theorem seen_inTurn {P : FileTree → Prop}
    (hsteps : ∀ step ∈ steps, ∀ s, P s → ∀ s' ∈ (step s).seen, P s') (ht : P t) :
    ∀ s ∈ (inTurn steps t).seen, P s := by
  induction steps generalizing t with
  | nil => exact fun s hs => absurd hs List.not_mem_nil
  | cons step steps ih =>
    have hfirst := hsteps step List.mem_cons_self t ht
    rw [inTurn]
    cases herror : (step t).error with
    | some err =>
      rw [andThen_of_error herror]
      exact hfirst
    | none =>
      rw [andThen_of_none herror]
      intro s hs
      rcases List.mem_append.mp hs with hs | hs
      · exact hfirst s hs
      · have hrest : ∀ step ∈ steps, ∀ s, P s → ∀ s' ∈ (step s).seen, P s' := fun step hstep =>
          hsteps step (List.mem_cons_of_mem _ hstep)
        exact ih hrest (final_of_seen ht hfirst) s hs

theorem error_attempt {fault : Option FileFault} {error : FileFault → ReplaceError} {trees : List FileTree} :
    (attempt fault error trees).error = none ↔ fault = none := by
  cases fault <;> simp [attempt]

theorem seen_attempt {fault : Option FileFault} {error : FileFault → ReplaceError} {trees : List FileTree} :
    (attempt fault error trees).seen ⊆ trees := by
  cases fault <;> simp [attempt]

end Replacement

open Replacement (inTurn attempt)

/-! ## Filling the fresh file -/

section

variable (c : Course) (fresh : String) (content : Bytes) (executable : Bool)

/-- The fresh file stays the only one that is added while it is filled. -/
theorem addsFile_filling (h : t.AddsFile place s) :
    ∀ s' ∈ (inTurn (filling c fresh place content executable) s).seen, t.AddsFile place s' := by
  refine Replacement.seen_inTurn (fun step hstep s hs s' hs' => ?_) h
  simp only [filling, List.mem_cons, List.not_mem_nil, or_false] at hstep
  rcases hstep with rfl | rfl | rfl | rfl | rfl
  · obtain rfl := List.mem_singleton.mp (Replacement.seen_attempt hs')
    exact hs.put _ _
  · obtain ⟨n, -, rfl⟩ := List.mem_map.mp hs'
    exact hs.put _ _
  · obtain rfl := List.mem_singleton.mp (Replacement.seen_attempt hs')
    exact hs.put _ _
  · exact absurd (Replacement.seen_attempt hs') List.not_mem_nil
  · exact absurd (Replacement.seen_attempt hs') List.not_mem_nil

theorem error_filling (place : Place) (s : FileTree) :
    (inTurn (filling c fresh place content executable) s).error = none ↔
      c.fault .permit = none ∧ c.fault .write = none ∧ c.fault .sync = none ∧ c.fault .close = none := by
  simp [filling, inTurn, Replacement.error_andThen, Replacement.error_attempt]

/-- Once it is filled, the fresh file holds all of the content. -/
theorem entryAt?_filling (hplace : place ≠ []) (s : FileTree)
    (h : (inTurn (filling c fresh place content executable) s).error = none) :
    ((inTurn (filling c fresh place content executable) s).final s).entryAt? place =
      some (.file content executable) := by
  obtain ⟨hpermit, hwrite, hsync, hclose⟩ := (error_filling c fresh content executable place s).mp h
  simp only [filling, inTurn, attempt, hpermit, hwrite, hsync, hclose, Replacement.final_andThen]
  simp [Replacement.final, entryAt?_put, hplace]

end

/-! ## Taking the place of the old file -/

/-- The path leads to a file, or to a place in a directory where nothing stands. -/
def IsReplaceable (t : FileTree) (path : String) : Prop :=
  ∃ p, t.locate path = .ok p ∧ t.entryAt? p ≠ some .directory

theorem renameOver_eq_ok {s' : FileTree} : s.renameOver place path = .ok s' ↔ ∃ p e,
    s.locate path = .ok p ∧ s.entryAt? place = some e ∧ s.entryAt? p ≠ some .directory ∧
      s' = (s.erase place).put p e := by
  rw [renameOver]
  cases s.locate path with
  | error f => simp [bind, Except.bind]
  | ok p =>
    simp only [bind, Except.bind, Except.ok.injEq, exists_and_left, exists_eq_left']
    cases s.entryAt? place with
    | none => simp [throw, throwThe, MonadExceptOf.throw]
    | some e =>
      cases s.entryAt? p with
      | none => simp [pure, Except.pure, eq_comm]
      | some x => cases x <;> simp [throw, throwThe, MonadExceptOf.throw, pure, Except.pure, eq_comm]

theorem AddsFile.renameOver_eq_ok {s' : FileTree} (h : t.AddsFile place s)
    (he : s.entryAt? place = some e) : s.renameOver place path = .ok s' ↔
      ∃ p, t.locate path = .ok p ∧ t.entryAt? p ≠ some .directory ∧ s' = t.put p e := by
  simp only [FileTree.renameOver_eq_ok, h.locate_iff, he, h.erase_eq, Option.some.injEq, ne_eq, h.directory_iff,
    exists_and_left, exists_eq_left']

/-- The last step fails and shows nothing, or it puts what is at `place` where the path leads. -/
theorem AddsFile.takeOver_cases (h : t.AddsFile place s) (he : s.entryAt? place = some e) (c : Course)
    (fresh path : String) :
    (¬ (c.fault .rename = none ∧ t.IsReplaceable path) ∧
      ∃ err, takeOver c fresh place path s = { error := some err }) ∨
    c.fault .rename = none ∧ ∃ p, t.locate path = .ok p ∧ t.entryAt? p ≠ some .directory ∧
      takeOver c fresh place path s = { seen := [t.put p e] } := by
  rw [takeOver]
  cases hfault : c.fault .rename with
  | some f => exact .inl ⟨by simp, _, rfl⟩
  | none =>
    cases hrename : s.renameOver place path with
    | ok s' =>
      obtain ⟨p, hloc, hp, rfl⟩ := (h.renameOver_eq_ok he).mp hrename
      exact .inr ⟨rfl, p, hloc, hp, rfl⟩
    | error f =>
      refine .inl ⟨?_, _, rfl⟩
      rintro ⟨-, p, hloc, hp⟩
      have hok := (h.renameOver_eq_ok he).mpr ⟨p, hloc, hp, rfl⟩
      rw [hrename] at hok
      cases hok

/-- The steps after the first one: up to a fault they only show trees with the fresh file. -/
theorem AddsFile.steps_cases (h : t.AddsFile place s) (c : Course) (fresh path : String) (content : Bytes)
    (executable : Bool) :
    ∃ trees, (∀ s' ∈ trees, t.AddsFile place s') ∧
      ((¬ ((∀ step ≠ .create, c.fault step = none) ∧ t.IsReplaceable path) ∧
        ∃ err, (inTurn (filling c fresh place content executable) s).andThen s (takeOver c fresh place path) =
          { seen := trees, error := some err }) ∨
      ((∀ step ≠ .create, c.fault step = none) ∧ ∃ p, t.locate path = .ok p ∧ t.entryAt? p ≠ some .directory ∧
        (inTurn (filling c fresh place content executable) s).andThen s (takeOver c fresh place path) =
          { seen := trees ++ [t.put p (.file content executable)] })) := by
  have hseen := addsFile_filling c fresh content executable h
  have herror := error_filling c fresh content executable place s
  have hentry := entryAt?_filling c fresh content executable h.ne_nil s
  generalize inTurn (filling c fresh place content executable) s = r at hseen herror hentry
  refine ⟨r.seen, hseen, ?_⟩
  cases hr : r.error with
  | some err =>
    refine .inl ⟨fun ⟨hnone, _⟩ => ?_, err, ?_⟩
    · have hfilled : r.error = none := herror.mpr
        ⟨hnone _ (by decide), hnone _ (by decide), hnone _ (by decide), hnone _ (by decide)⟩
      simp [hr] at hfilled
    · rw [Replacement.andThen_of_error hr, ← hr]
  | none =>
    obtain ⟨hpermit, hwrite, hsync, hclose⟩ := herror.mp hr
    have hfilled : t.AddsFile place (r.final s) := Replacement.final_of_seen h hseen
    rw [Replacement.andThen_of_none hr]
    rcases hfilled.takeOver_cases (hentry hr) c fresh path with
      ⟨hnot, err, htake⟩ | ⟨hrename, p, hloc, hp, htake⟩
    · refine .inl ⟨fun ⟨hnone, hpath⟩ => hnot ⟨hnone _ (by decide), hpath⟩, err, ?_⟩
      rw [htake, List.append_nil]
    · refine .inr ⟨fun step hstep => ?_, p, hloc, hp, by rw [htake]⟩
      cases step with
      | create => exact absurd rfl hstep
      | permit => exact hpermit
      | write => exact hwrite
      | sync => exact hsync
      | close => exact hclose
      | rename => exact hrename

/-! ## Removing the fresh file -/

theorem AddsFile.removeOrKeep (h : t.AddsFile place s) (hfresh : t.locate fresh = .ok place) :
    s.removeOrKeep fresh = t := by
  obtain ⟨content, executable, hfile⟩ := h.isFile
  have hfind := find_eq_ok.mpr ⟨h.locate_iff.mpr hfresh, hfile⟩
  rw [FileTree.removeOrKeep, remove_file hfind, h.erase_eq]

theorem removeOrKeep_of_missing (hfresh : s.locate fresh = .ok place) (hplace : s.entryAt? place = none) :
    s.removeOrKeep fresh = s := by
  have hfind : s.find fresh = .error .missing := by
    rw [find, hfresh]
    simp only [bind, Except.bind, hplace]
    rfl
  rw [FileTree.removeOrKeep, remove, hfind]
  rfl

/-! ## The whole replacement -/

/-- A replacement by `e` of what `path` leads to in `t` changes this and nothing else, or nothing. -/
structure Replacement.AllOrNothing (r : Replacement) (t : FileTree) (path : String) (e : FileEntry) : Prop where
  /-- If it fails, the tree is as before. -/
  unchanged : r.error ≠ none → r.final t = t
  /-- If it succeeds, `e` is where the path leads, and all other places are as before. -/
  replaced : r.error = none → (r.final t).entryOf? path = some e ∧ (r.final t).here = t.here ∧
    ∃ p, t.locate path = .ok p ∧ ∀ q, (r.final t).entryAt? q = if q = p then some e else t.entryAt? q
  /-- At any time a reader finds what was there before, or `e`. -/
  reader : ∀ s ∈ r.seen, s.entryOf? path = t.entryOf? path ∨ s.entryOf? path = some e
  /-- Before the end, no tree differs from the first one but by a fresh file. -/
  others : ∀ s ∈ r.seen, s = r.final t ∨ ∃ place, t.AddsFile place s

/-- What a replacement shows: nothing if there is no fresh file, else trees with the fresh file, and then the
old tree, or the new one both before and after there was a fresh file to remove. -/
theorem replaceAlong_cases (c : Course) (t : FileTree) (path : String) (content : Bytes) (executable : Bool) :
    (∃ err, t.freshFile c path = .error err ∧
      t.replaceAlong c path content executable = { error := some err }) ∨
    ∃ fresh place trees, t.freshFile c path = .ok (fresh, place) ∧ (∀ s ∈ trees, t.AddsFile place s) ∧
      ((¬ ((∀ step, c.fault step = none) ∧ t.IsReplaceable path) ∧
        ∃ err, t.replaceAlong c path content executable = { seen := trees ++ [t], error := some err }) ∨
      ((∀ step, c.fault step = none) ∧ ∃ p, t.locate path = .ok p ∧ t.entryAt? p ≠ some .directory ∧
        t.replaceAlong c path content executable =
          { seen := trees ++ [t.put p (.file content executable), t.put p (.file content executable)] })) := by
  cases hfresh : t.freshFile c path with
  | error err => exact .inl ⟨err, rfl, by rw [replaceAlong, hfresh]⟩
  | ok x =>
    obtain ⟨fresh, place⟩ := x
    obtain ⟨hcreate, hloc, hfree, -⟩ := exists_of_freshFile_eq_ok hfresh
    have hmade : t.AddsFile place (t.put place (.file [] false)) := .put_new hfree _ _
    obtain ⟨trees, htrees, hcases⟩ := hmade.steps_cases c fresh path content executable
    refine .inr ⟨fresh, place, _ :: trees, rfl, List.forall_mem_cons.mpr ⟨hmade, htrees⟩, ?_⟩
    rw [replaceAlong, hfresh]
    rcases hcases with ⟨hnot, err, hr⟩ | ⟨hnone, p, hploc, hp, hr⟩
    · refine .inl ⟨fun ⟨hnone, hpath⟩ => hnot ⟨fun step _ => hnone step, hpath⟩, err, ?_⟩
      have hlast : t.AddsFile place (Replacement.final { seen := trees, error := some err } _) :=
        Replacement.final_of_seen hmade htrees
      simp only [hr, hlast.removeOrKeep hloc, List.cons_append]
    · have hkeeps : t.KeepsDirectories (t.put p (.file content executable)) := .put hp _
      have hgone : (t.put p (.file content executable)).entryAt? place = none := by
        rw [entryAt?_put t (ne_nil_of_not_directory hp), if_neg (ne_of_locate hfresh hploc).symm, hfree]
      refine .inr ⟨fun step => ?_, p, hploc, hp, ?_⟩
      · by_cases hstep : step = .create
        · rw [hstep, hcreate]
        · exact hnone step hstep
      · simp only [hr, Replacement.final, List.getLastD_concat,
          removeOrKeep_of_missing (hkeeps.locate hloc) hgone, List.cons_append, List.append_assoc,
          List.nil_append]

section

variable (c : Course) (t : FileTree) (path : String) (content : Bytes) (executable : Bool)

theorem final_replaceAlong :
    (t.replaceAlong c path content executable).error ≠ none ∧
      (t.replaceAlong c path content executable).final t = t ∨
    (t.replaceAlong c path content executable).error = none ∧
      ∃ p, t.locate path = .ok p ∧ t.entryAt? p ≠ some .directory ∧
        (t.replaceAlong c path content executable).final t = t.put p (.file content executable) := by
  rcases replaceAlong_cases c t path content executable with
    ⟨err, -, hr⟩ | ⟨fresh, place, trees, -, -, ⟨-, err, hr⟩ | ⟨-, p, hloc, hp, hr⟩⟩
  · rw [hr]
    exact .inl ⟨by simp, rfl⟩
  · rw [hr]
    exact .inl ⟨by simp, List.getLastD_concat⟩
  · rw [hr]
    exact .inr ⟨rfl, p, hloc, hp, by simp [Replacement.final]⟩

/-- Before its last tree, a replacement shows trees with one file more, to which the path does not lead. -/
theorem seen_replaceAlong : ∀ s ∈ (t.replaceAlong c path content executable).seen,
    s = (t.replaceAlong c path content executable).final t ∨
      ∃ place, t.AddsFile place s ∧ ∀ p, t.locate path = .ok p → p ≠ place := by
  rcases replaceAlong_cases c t path content executable with
    ⟨err, -, hr⟩ | ⟨fresh, place, trees, hfresh, htrees, ⟨-, err, hr⟩ | ⟨-, p, hloc, hp, hr⟩⟩
  · simp [hr]
  all_goals
    intro s hs
    simp only [hr, List.mem_append, List.mem_cons, List.not_mem_nil, or_false, or_self] at hs
    rcases hs with hs | rfl
    · exact .inr ⟨place, htrees s hs, fun q hq => ne_of_locate hfresh hq⟩
    · exact .inl (by simp [hr, Replacement.final])

theorem error_replaceAlong : (t.replaceAlong c path content executable).error = none ↔
    (∀ step, c.fault step = none) ∧ (t.freshFile c path).isOk ∧ t.IsReplaceable path := by
  rcases replaceAlong_cases c t path content executable with
    ⟨err, hfresh, hr⟩ | ⟨fresh, place, trees, hfresh, -, ⟨hnot, err, hr⟩ | ⟨hnone, p, hloc, hp, hr⟩⟩
  · simp [hr, hfresh, Except.isOk, Except.toBool]
  · rw [hr]
    exact iff_of_false (by simp) fun ⟨hnone, _, hpath⟩ => hnot ⟨hnone, hpath⟩
  · rw [hr, hfresh]
    exact iff_of_true rfl ⟨hnone, rfl, p, hloc, hp⟩

/-- Whatever its steps meet, a replacement is all or nothing. It succeeds if and only if no step meets a fault, a
fresh file can be made, and the path does not lead to a directory or nowhere at all. -/
theorem replaceAlong_allOrNothing :
    (t.replaceAlong c path content executable).AllOrNothing t path (.file content executable) ∧
    ((t.replaceAlong c path content executable).error = none ↔
      (∀ step, c.fault step = none) ∧ (t.freshFile c path).isOk ∧ t.IsReplaceable path) := by
  have hfinal := final_replaceAlong c t path content executable
  have hseen := seen_replaceAlong c t path content executable
  refine ⟨?_, error_replaceAlong c t path content executable⟩
  generalize t.replaceAlong c path content executable = r at hfinal hseen
  have hothers : ∀ s ∈ r.seen, s = r.final t ∨ ∃ place, t.AddsFile place s := fun s hs =>
    (hseen s hs).imp_right fun ⟨place, hadds, _⟩ => ⟨place, hadds⟩
  rcases hfinal with ⟨herror, hsame⟩ | ⟨herror, p, hloc, hp, hput⟩
  · refine ⟨fun _ => hsame, fun hnone => absurd hnone herror, fun s hs => .inl ?_, hothers⟩
    rcases hseen s hs with rfl | ⟨place, hadds, hne⟩
    · rw [hsame]
    · exact hadds.entryOf?_eq hne
  · refine ⟨fun hfailed => absurd herror hfailed, fun _ => ?_, fun s hs => ?_, hothers⟩
    · rw [hput]
      exact ⟨entryOf?_put hloc hp _, rfl, p, hloc, entryAt?_put t (ne_nil_of_not_directory hp) _⟩
    · rcases hseen s hs with rfl | ⟨place, hadds, hne⟩
      · exact .inr (hput ▸ entryOf?_put hloc hp _)
      · exact .inl (hadds.entryOf?_eq hne)

end

-- Two bytes for one, of which the first arrives alone: the file changes when the fresh one takes its place.
example :
    let t : FileTree := { here := [], entries := [(["d"], .directory), (["d", "x"], .file [1] true)] }
    let r := t.replaceAlong { arrived := [1] } "d/x" [2, 3]
    r.error = none ∧ r.seen.map (·.entryOf? "d/x") =
      List.replicate 4 (some (.file [1] true)) ++ List.replicate 2 (some (.file [2, 3] false)) := by
  decide +kernel

end FileTree

end TwoPhase
