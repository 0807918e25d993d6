import Mathlib.Data.String.Basic
import TwoPhase.Exporter
import TwoPhase.Proofs.FilePlaces

/-!
# What an export leaves in the dump directory

After the runs of an exporter the dump directory is cleaned: plain files directly in it go if their names
have the exporter's ending and belong to no dump that was just written. Searching the directory, on the
other hand, goes below it, takes every ending of dumps, and takes directories as well. So what a search
finds after an export are the dumps that were written and the dumps that cleaning never looks at, and
nothing else (`mem_dumps_exportAll_iff`).

The argument follows the two loops. `Exporting` is the invariant of the runs, kept by each of them as
long as the program writes only where it is told to; `exists_foldlM_cleanStep` says what the cleaning of a
list of entries leaves, from what the cleaning of one does.
-/

namespace TwoPhase

namespace FileTree

variable {t : FileTree} {p q : Place} {x y : FileEntry} {dir ending path : String} {kept : List String}

/-! ## Searching -/

/-- A dump below the place `p`: `x` stands at `q`, and its name is that of a dump. -/
structure IsDump (t : FileTree) (p q : Place) (x : FileEntry) : Prop where
  entry : t.entryAt? q = some x
  below : p <+: q
  ne : q ≠ p
  name : isDumpName (q.getLast?.getD "") = true

theorem WellFormed.mem_dumps_iff (h : t.WellFormed) (hdir : t.find dir = .ok (p, .directory)) :
    path ∈ t.dumps dir ↔ ∃ q x, t.IsDump p q x ∧ path = Path.join (dir :: q.drop p.length) := by
  rw [dumps, hdir, (List.mergeSort_perm _ _).mem_iff, List.mem_filterMap]
  constructor
  · rintro ⟨⟨q, x⟩, hmem, hq⟩
    obtain ⟨⟨⟨hbelow, hne⟩, hname⟩, rfl⟩ :
        ((isBelow p q = true ∧ q ≠ p) ∧ isDumpName (q.getLast?.getD "") = true) ∧
          Path.join (dir :: q.drop p.length) = path := by simpa using hq
    exact ⟨q, x, ⟨(h.mem_entries_iff.mp hmem).2, List.isPrefixOf_iff_prefix.mp hbelow, hne, hname⟩, rfl⟩
  · rintro ⟨q, x, hdump, rfl⟩
    have hq : q ≠ [] := fun hq => hdump.ne (hq.trans (List.prefix_nil.mp (hq ▸ hdump.below)).symm)
    refine ⟨(q, x), h.mem_entries_iff.mpr ⟨hq, hdump.entry⟩, ?_⟩
    have hbelow : isBelow p q = true := List.isPrefixOf_iff_prefix.mpr hdump.below
    simp [hbelow, hdump.ne, hdump.name]

/-! ## Cleaning -/

/-- A file directly in the directory at `p` that cleaning removes: its name has the ending and is not kept. -/
def IsStale (ending : String) (kept : List String) (p q : Place) (x : FileEntry) : Prop :=
  ∃ n, q = p ++ [n] ∧ x ≠ .directory ∧ ending.toList <:+ n.toList ∧ n ∉ kept

/-- What cleaning does with one entry of a directory. -/
def cleanStep (dir ending : String) (kept : List String) (t : FileTree) (c : String × FileEntry) :
    Except FileError FileTree :=
  match c.2 with
  | .directory => .ok t
  | .file .. =>
    if ending.toList.isSuffixOf c.1.toList && !kept.contains c.1 then t.remove (Path.join [dir, c.1])
    else .ok t

theorem cleanStale_eq (t : FileTree) (dir ending : String) (keep : List String) :
    t.cleanStale dir ending keep =
      (t.children dir).bind fun cs => cs.foldlM (cleanStep dir ending (keep.map Path.base)) t := rfl

theorem cleanStep_eq (t : FileTree) (dir : String) (p : Place) (n : String) (x : FileEntry) :
    (IsStale ending kept p (p ++ [n]) x →
      cleanStep dir ending kept t (n, x) = t.remove (Path.join [dir, n])) ∧
    (¬ IsStale ending kept p (p ++ [n]) x → cleanStep dir ending kept t (n, x) = .ok t) := by
  have hstale : IsStale ending kept p (p ++ [n]) x ↔
      x ≠ .directory ∧ ending.toList <:+ n.toList ∧ n ∉ kept := by
    simp [IsStale]
  rw [hstale]
  cases x with
  | directory => exact ⟨fun h => absurd rfl h.1, fun _ => rfl⟩
  | file content executable =>
    simp only [cleanStep]
    split <;> simp_all [List.isSuffixOf_iff_suffix]

/-- An entry is removed if it is stale, and all else stays. -/
theorem WellFormed.exists_cleanStep (h : t.WellFormed) (hdir : t.find dir = .ok (p, .directory)) {n : String}
    (hx : t.entryAt? (p ++ [n]) = some x) :
    ∃ t', cleanStep dir ending kept t (n, x) = .ok t' ∧ t'.WellFormed ∧ t'.find dir = .ok (p, .directory) ∧
      ∀ q y, t'.entryAt? q = some y ↔
        t.entryAt? q = some y ∧ ¬ (q = p ++ [n] ∧ IsStale ending kept p q y) := by
  by_cases hstale : IsStale ending kept p (p ++ [n]) x
  · have hplain : x ≠ .directory := hstale.choose_spec.2.1
    have hfind : t.find (Path.join [dir, n]) = .ok (p ++ [n], x) :=
      find_eq_ok.mpr ⟨locate_join hdir (h.isName hx n (by simp)), hx⟩
    have hremove : t.remove (Path.join [dir, n]) = .ok (t.erase (p ++ [n])) := by
      cases x with
      | directory => exact absurd rfl hplain
      | file content executable => exact remove_file hfind
    have hkeeps : t.KeepsDirectories (t.erase (p ++ [n])) := .erase (by simpa [hx] using hplain)
    refine ⟨_, ((cleanStep_eq t dir p n x).1 hstale).trans hremove, h.erase _, hkeeps.find hdir, fun q y => ?_⟩
    rw [entryAt?_erase t (by simp)]
    by_cases hq : q = p ++ [n]
    · subst hq
      rw [if_pos rfl]
      refine iff_of_false (by simp) ?_
      rintro ⟨hy, hnot⟩
      rw [hx] at hy
      exact hnot ⟨rfl, Option.some.inj hy ▸ hstale⟩
    · simp [hq]
  · refine ⟨t, (cleanStep_eq t dir p n x).2 hstale, h, hdir, fun q y => ⟨fun hy => ⟨hy, ?_⟩, And.left⟩⟩
    rintro ⟨rfl, hy'⟩
    rw [hx] at hy
    exact hstale (Option.some.inj hy ▸ hy')

/-- The same for a list of entries with distinct names. -/
theorem WellFormed.exists_foldlM_cleanStep (h : t.WellFormed) (hdir : t.find dir = .ok (p, .directory))
    {cs : List (String × FileEntry)} (hnodup : (cs.map Prod.fst).Nodup)
    (hcs : ∀ c ∈ cs, t.entryAt? (p ++ [c.1]) = some c.2) :
    ∃ t', cs.foldlM (cleanStep dir ending kept) t = .ok t' ∧ t'.WellFormed ∧
      t'.find dir = .ok (p, .directory) ∧
      ∀ q y, t'.entryAt? q = some y ↔
        t.entryAt? q = some y ∧ ¬ ((∃ c ∈ cs, q = p ++ [c.1]) ∧ IsStale ending kept p q y) := by
  induction cs generalizing t with
  | nil => exact ⟨t, rfl, h, hdir, by simp⟩
  | cons c cs ih =>
    obtain ⟨hfresh, hnodup⟩ := List.nodup_cons.mp hnodup
    obtain ⟨t₁, hstep, h₁, hdir₁, hentry₁⟩ := h.exists_cleanStep hdir (hcs c List.mem_cons_self)
    -- the names in the list are distinct, so the entries behind `c` are still there
    have hcs₁ : ∀ d ∈ cs, t₁.entryAt? (p ++ [d.1]) = some d.2 := by
      intro d hd
      refine (hentry₁ _ _).mpr ⟨hcs d (List.mem_cons_of_mem c hd), ?_⟩
      rintro ⟨hsame, -⟩
      have hname : d.1 = c.1 := by simpa using hsame
      exact hfresh (hname ▸ List.mem_map_of_mem hd)
    obtain ⟨t', hrest, h', hdir', hentry'⟩ := ih h₁ hdir₁ hnodup hcs₁
    refine ⟨t', ?_, h', hdir', fun q y => ?_⟩
    · rw [List.foldlM_cons]
      show Except.bind _ _ = _
      rw [hstep]
      exact hrest
    · simp only [hentry', hentry₁, List.mem_cons, exists_eq_or_imp]
      rw [or_and_right, not_or, and_assoc]

/-- Cleaning always succeeds, and removes exactly what is stale. -/
theorem WellFormed.exists_cleanStale (h : t.WellFormed) (hdir : t.find dir = .ok (p, .directory))
    (ending : String) (keep : List String) :
    ∃ t', t.cleanStale dir ending keep = .ok t' ∧ t'.WellFormed ∧ t'.find dir = .ok (p, .directory) ∧
      ∀ q y, t'.entryAt? q = some y ↔
        t.entryAt? q = some y ∧ ¬ IsStale ending (keep.map Path.base) p q y := by
  obtain ⟨cs, hchildren, hnodup, hmem⟩ := h.exists_children hdir
  obtain ⟨t', hclean, h', hdir', hentry⟩ :=
    h.exists_foldlM_cleanStep hdir hnodup fun c hc => (hmem c.1 c.2).mp hc
  refine ⟨t', by rw [cleanStale_eq, hchildren]; exact hclean, h', hdir', fun q y => ?_⟩
  rw [hentry]
  refine and_congr_right fun hy => not_congr ⟨And.right, fun hstale => ⟨?_, hstale⟩⟩
  obtain ⟨n, rfl, -⟩ := hstale
  exact ⟨(n, y), (hmem n y).mpr hy, rfl⟩

end FileTree

/-! ## The names of exported dumps -/

theorem Bytes.mem_hexDigits {k n : Nat} {c : Char} (hc : c ∈ hexDigits k n) : c ≠ '/' ∧ c ≠ '\x00' := by
  have hall : ∀ d < 16, Nat.digitChar d ≠ '/' ∧ Nat.digitChar d ≠ '\x00' := by decide
  induction k generalizing n with
  | zero => cases hc
  | succ k ih =>
    rcases List.mem_append.mp hc with hc | hc
    · exact ih hc
    · rw [List.mem_singleton.mp hc]
      exact hall _ (Nat.mod_lt n (by decide))

theorem Bytes.mem_hex {b : Bytes} {c : Char} (hc : c ∈ (hex b).toList) : c ≠ '/' ∧ c ≠ '\x00' := by
  rw [hex, String.toList_ofList, List.mem_flatMap] at hc
  obtain ⟨x, -, hc⟩ := hc
  exact mem_hexDigits hc

theorem Bytes.length_hex (b : Bytes) : (hex b).toList.length = 2 * b.length := by
  simp [hex, hexDigits, List.length_flatMap, Nat.mul_comm]

namespace Uuid

theorem toList_text (b : Bytes) : (text b).toList =
    (Bytes.hex (b.take 4)).toList ++ '-' :: (Bytes.hex ((b.drop 4).take 2)).toList ++
      '-' :: (Bytes.hex ((b.drop 6).take 2)).toList ++ '-' :: (Bytes.hex ((b.drop 8).take 2)).toList ++
      '-' :: (Bytes.hex ((b.drop 10).take 6)).toList := by
  simp [text]

theorem mem_text {b : Bytes} {c : Char} (hc : c ∈ (text b).toList) : c ≠ '/' ∧ c ≠ '\x00' := by
  have hdash : c = '-' → c ≠ '/' ∧ c ≠ '\x00' := by
    rintro rfl
    decide
  simp only [toList_text, List.mem_append, List.mem_cons, or_assoc] at hc
  rcases hc with h | h | h | h | h | h | h | h | h
  exacts [Bytes.mem_hex h, hdash h, Bytes.mem_hex h, hdash h, Bytes.mem_hex h, hdash h, Bytes.mem_hex h,
    hdash h, Bytes.mem_hex h]

theorem length_text_le (b : Bytes) : (text b).toList.length ≤ 36 := by
  simp only [toList_text, List.length_append, List.length_cons, Bytes.length_hex, List.length_take]
  omega

end Uuid

theorem utf8ByteSize_le (s : String) : s.utf8ByteSize ≤ 4 * s.toList.length := by
  have hlen : ∀ cs : List Char, String.utf8Len cs ≤ 4 * cs.length := by
    intro cs
    induction cs with
    | nil => simp
    | cons c cs ih =>
      have hc := c.utf8Size_le_four
      simp only [String.utf8Len_cons, List.length_cons]
      omega
  calc s.utf8ByteSize = (String.ofList s.toList).utf8ByteSize := by rw [String.ofList_toList]
    _ = String.utf8Len s.toList := String.utf8ByteSize_ofList _
    _ ≤ 4 * s.toList.length := hlen _

namespace Exporter

variable {e : Exporter} {run : Program} {t : FileTree} {p : Place}

/-- The name of the dump of a source. -/
def dumpName (source : String) : String :=
  Uuid.ofName Uuid.urlSpace (Bytes.ofString ("file://" ++ source)) ++ ending

theorem dumpPath_eq (e : Exporter) (source : String) :
    e.dumpPath source = Path.join [e.dumpDir, dumpName source] := rfl

theorem ending_suffix_dumpName (source : String) : ending.toList <:+ (dumpName source).toList := by
  rw [dumpName, String.toList_append]
  exact List.suffix_append _ _

theorem isDumpName_dumpName (source : String) : isDumpName (dumpName source) = true := by
  rw [isDumpName, List.any_eq_true]
  exact ⟨ending, by decide, List.isSuffixOf_iff_suffix.mpr (ending_suffix_dumpName source)⟩

theorem isName_dumpName (source : String) : Path.IsName (dumpName source) := by
  have hlong : 2 < (dumpName source).toList.length := by
    simp [dumpName, ending]
  have hchars : ∀ c ∈ (dumpName source).toList, c ≠ '/' ∧ c ≠ '\x00' := by
    intro c hc
    rw [dumpName, String.toList_append, List.mem_append] at hc
    rcases hc with hc | hc
    · exact Uuid.mem_text hc
    · have hending : ∀ d ∈ ending.toList, d ≠ '/' ∧ d ≠ '\x00' := by simp [ending]
      exact hending c hc
  have hlength : (dumpName source).toList.length ≤ 47 := by
    have hid : (Uuid.ofName Uuid.urlSpace (Bytes.ofString ("file://" ++ source))).toList.length ≤ 36 :=
      Uuid.length_text_le _
    have hending : ending.toList.length = 11 := rfl
    rw [dumpName, String.toList_append, List.length_append]
    omega
  exact {
    proper := {
      ne_nil := fun h => by simp [h] at hlong
      ne_dot := fun h => by simp [h] at hlong
      ne_dots := fun h => by simp [h] at hlong }
    slash_free := fun h => (hchars _ h).1 rfl
    zero_free := fun h => (hchars _ h).2 rfl
    short := le_trans (utf8ByteSize_le _) (by omega) }

/-! ## The runs -/

/-- The program writes at most the dump that it is told to write. -/
def WritesDumpOnly (e : Exporter) (run : Program) : Prop :=
  ∀ source t, (run e.program (e.args source) t).2 = t ∨
    ∃ content executable,
      t.store (e.dumpPath source) content executable = .ok (run e.program (e.args source) t).2

/-- What holds between runs, when the files are `tree` and `dumps` are those that count. The dump directory
is the one at `p`, as in the tree `t` before the runs. Places differ from `t` only where a run has written a
file, in the dump directory and under the name of a dump; and all dumps that count are there. -/
structure Exporting (e : Exporter) (t : FileTree) (p : Place) (tree : FileTree) (dumps : List String) :
    Prop where
  wellFormed : tree.WellFormed
  found : tree.find e.dumpDir = .ok (p, .directory)
  entry : ∀ q, tree.entryAt? q = t.entryAt? q ∨
    (∃ source, q = p ++ [dumpName source]) ∧ t.entryAt? q ≠ some .directory ∧
      ∃ content executable, tree.entryAt? q = some (.file content executable)
  dump : ∀ d ∈ dumps, ∃ source y, d = e.dumpPath source ∧ tree.entryAt? (p ++ [dumpName source]) = some y

namespace Exporting

variable {tree tree' : FileTree} {dumps : List String} {source : String}

theorem start (hwf : t.WellFormed) (hdir : t.find e.dumpDir = .ok (p, .directory)) : e.Exporting t p t [] where
  wellFormed := hwf
  found := hdir
  entry _ := .inl rfl
  dump _ hd := absurd hd List.not_mem_nil

theorem dumpDir_ne (h : e.Exporting t p tree dumps) : e.dumpDir ≠ "" :=
  (FileTree.locate_eq_ok.mp (FileTree.find_eq_ok.mp h.found).1).1

theorem locate_dumpPath (h : e.Exporting t p tree dumps) (source : String) :
    tree.locate (e.dumpPath source) = .ok (p ++ [dumpName source]) :=
  FileTree.locate_join h.found (isName_dumpName source)

/-- Writing a dump keeps the invariant. -/
theorem store {content : Bytes} {executable : Bool} (h : e.Exporting t p tree dumps)
    (hstore : tree.store (e.dumpPath source) content executable = .ok tree') : e.Exporting t p tree' dumps := by
  obtain ⟨q, x, hloc, hplain, rfl⟩ := FileTree.exists_of_store_eq_ok hstore
  obtain rfl : p ++ [dumpName source] = q := by simpa [h.locate_dumpPath] using hloc
  have hne : p ++ [dumpName source] ≠ [] := by simp
  refine ⟨h.wellFormed.put hne (h.wellFormed.isName_of_locate hloc) _,
    (FileTree.KeepsDirectories.put hplain _).find h.found, fun q => ?_, fun d hd => ?_⟩
  · rw [FileTree.entryAt?_put tree hne]
    by_cases hq : q = p ++ [dumpName source]
    · refine .inr ⟨⟨source, hq⟩, ?_, content, x, if_pos hq⟩
      rcases h.entry q with hsame | ⟨-, hbefore, -⟩
      · rw [← hsame, hq]
        exact hplain
      · exact hbefore
    · rw [if_neg hq]
      exact h.entry q
  · obtain ⟨source', y, hd, hy⟩ := h.dump d hd
    by_cases hq : p ++ [dumpName source'] = p ++ [dumpName source]
    · exact ⟨source', _, hd, by rw [FileTree.entryAt?_put tree hne, if_pos hq]⟩
    · exact ⟨source', y, hd, by rw [FileTree.entryAt?_put tree hne, if_neg hq, hy]⟩

/-- A dump counts only if it is there. -/
theorem count (h : e.Exporting t p tree dumps) {y : FileEntry}
    (hstat : tree.stat (e.dumpPath source) = .ok y) : e.Exporting t p tree (dumps ++ [e.dumpPath source]) := by
  refine { h with dump := fun d hd => ?_ }
  rcases List.mem_append.mp hd with hd | hd
  · exact h.dump d hd
  · obtain ⟨q, hfind⟩ := FileTree.stat_eq_ok.mp hstat
    obtain ⟨hloc, hy⟩ := FileTree.find_eq_ok.mp hfind
    obtain rfl : p ++ [dumpName source] = q := by simpa [h.locate_dumpPath] using hloc
    exact ⟨source, y, List.mem_singleton.mp hd, hy⟩

theorem exportOne {o : Outcome} (h : e.Exporting t p o.tree o.dumps) (hwrites : e.WritesDumpOnly run)
    (source : String) :
    e.Exporting t p (e.exportOne run o source).tree (e.exportOne run o source).dumps := by
  have hrun : e.Exporting t p (run e.program (e.args source) o.tree).2 o.dumps := by
    rcases hwrites source o.tree with hsame | ⟨content, executable, hstore⟩
    · rw [hsame]
      exact h
    · exact h.store hstore
  simp only [Exporter.exportOne]
  split
  · split
    · exact hrun.count ‹_›
    · exact hrun
  · simpa using hrun

theorem foldl_exportOne {o : Outcome} (h : e.Exporting t p o.tree o.dumps) (hwrites : e.WritesDumpOnly run)
    (sources : List String) :
    e.Exporting t p (sources.foldl (e.exportOne run) o).tree (sources.foldl (e.exportOne run) o).dumps := by
  induction sources generalizing o with
  | nil => exact h
  | cons source sources ih => exact ih (h.exportOne hwrites source)

end Exporting

/-! ## After an export -/

/-- An export fails only if its directory cannot be made. -/
theorem exists_exportAll {t₁ : FileTree} (run : Program) (hmake : t.makeDirs e.dumpDir = .ok t₁)
    (sources : List String) : ∃ o, e.exportAll run t sources = .ok o := by
  simp only [exportAll, hmake, Except.mapError, bind, Except.bind]
  split
  · exact ⟨_, rfl⟩
  · exact ⟨_, rfl⟩

/-- What an export that returns has done: it made the dump directory, ran the program for each source, and
cleaned the directory. The cleaning never fails. -/
theorem exists_of_exportAll_eq_ok {o : Outcome} {sources : List String} (hwf : t.WellFormed)
    (hwrites : e.WritesDumpOnly run) (h : e.exportAll run t sources = .ok o) :
    ∃ t₁ p tree, t.makeDirs e.dumpDir = .ok t₁ ∧ t₁.find e.dumpDir = .ok (p, .directory) ∧
      e.Exporting t₁ p tree o.dumps ∧ tree.cleanStale e.dumpDir ending o.dumps = .ok o.tree := by
  rw [exportAll] at h
  cases hmake : t.makeDirs e.dumpDir with
  | error fault => simp [hmake, Except.mapError, bind, Except.bind] at h
  | ok t₁ =>
    obtain ⟨p, hdir⟩ := FileTree.find_of_makeDirsWithin hmake
    obtain ⟨o₁, ho₁⟩ : ∃ o₁, (sources.filter isExported).foldl (e.exportOne run) { tree := t₁ } = o₁ := ⟨_, rfl⟩
    have hruns : e.Exporting t₁ p o₁.tree o₁.dumps :=
      ho₁ ▸ Exporting.foldl_exportOne (Exporting.start (hwf.makeDirsWithin hmake) hdir) hwrites _
    obtain ⟨t', hclean, -⟩ := hruns.wellFormed.exists_cleanStale hruns.found ending o₁.dumps
    simp only [hmake, Except.mapError, bind, Except.bind, ho₁, hclean] at h
    obtain rfl := Except.ok.inj h
    exact ⟨t₁, p, o₁.tree, rfl, hdir, hruns, hclean⟩

namespace Exporting

variable {tree tree' : FileTree} {dumps : List String} {q : Place} {x : FileEntry}

/-- A file that cleaning looks at and leaves is one of the dumps that count. -/
theorem mem_dumps_of_not_isStale (h : e.Exporting t p tree dumps)
    (hswept : FileTree.IsStale ending [] p q x)
    (hstays : ¬ FileTree.IsStale ending (dumps.map Path.base) p q x) :
    Path.join (e.dumpDir :: q.drop p.length) ∈ dumps := by
  obtain ⟨n, rfl, hplain, hending, -⟩ := hswept
  have hkept : n ∈ dumps.map Path.base := by
    by_contra hn
    exact hstays ⟨n, rfl, hplain, hending, hn⟩
  obtain ⟨d, hd, hbase⟩ := List.mem_map.mp hkept
  obtain ⟨source, y, rfl, -⟩ := h.dump d hd
  rw [dumpPath_eq, Path.base_join h.dumpDir_ne (isName_dumpName source)] at hbase
  rw [List.drop_left, ← hbase]
  exact hd

/-- A dump that counts is found, and is not stale. -/
theorem exists_isDump (h : e.Exporting t p tree dumps) {d : String} (hd : d ∈ dumps) :
    ∃ q x, tree.IsDump p q x ∧ ¬ FileTree.IsStale ending (dumps.map Path.base) p q x ∧
      d = Path.join (e.dumpDir :: q.drop p.length) := by
  obtain ⟨source, y, rfl, hy⟩ := h.dump d hd
  have hdump : tree.IsDump p (p ++ [dumpName source]) y :=
    ⟨hy, List.prefix_append _ _, by simp, by simpa using isDumpName_dumpName source⟩
  refine ⟨_, y, hdump, ?_, by rw [List.drop_left]; rfl⟩
  rintro ⟨n, hn, -, -, hkept⟩
  obtain rfl : dumpName source = n := by simpa using hn
  refine hkept (List.mem_map.mpr ⟨_, hd, ?_⟩)
  rw [dumpPath_eq, Path.base_join h.dumpDir_ne (isName_dumpName source)]

/-- The runs leave everything as it was that cleaning does not look at. -/
theorem entryAt?_eq_of_not_isStale (h : e.Exporting t p tree dumps)
    (hpassed : ¬ FileTree.IsStale ending [] p q x) (hx : tree.entryAt? q = some x ∨ t.entryAt? q = some x) :
    tree.entryAt? q = t.entryAt? q := by
  rcases h.entry q with hsame | ⟨⟨source, rfl⟩, hbefore, content, executable, hfile⟩
  · exact hsame
  · refine absurd ⟨_, rfl, ?_, ending_suffix_dumpName source, List.not_mem_nil⟩ hpassed
    rintro rfl
    rcases hx with hx | hx
    · simp [hfile] at hx
    · exact hbefore hx

theorem mem_dumps_cleanStale_iff (h : e.Exporting t p tree dumps)
    (hclean : tree.cleanStale e.dumpDir ending dumps = .ok tree') (path : String) :
    path ∈ tree'.dumps e.dumpDir ↔ path ∈ dumps ∨
      ∃ q x, t.IsDump p q x ∧ ¬ FileTree.IsStale ending [] p q x ∧
        path = Path.join (e.dumpDir :: q.drop p.length) := by
  obtain ⟨t', hclean', hwf', hdir', hentry'⟩ := h.wellFormed.exists_cleanStale h.found ending dumps
  obtain rfl : t' = tree' := by simpa [hclean] using hclean'.symm
  rw [hwf'.mem_dumps_iff hdir']
  constructor
  · rintro ⟨q, x, hdump, rfl⟩
    obtain ⟨hx, hstays⟩ := (hentry' q x).mp hdump.entry
    by_cases hswept : FileTree.IsStale ending [] p q x
    · exact .inl (h.mem_dumps_of_not_isStale hswept hstays)
    · have hx' := (h.entryAt?_eq_of_not_isStale hswept (.inl hx)).symm.trans hx
      exact .inr ⟨q, x, { hdump with entry := hx' }, hswept, rfl⟩
  · rintro (hd | ⟨q, x, hdump, hpassed, rfl⟩)
    · obtain ⟨q, x, hdump, hstays, rfl⟩ := h.exists_isDump hd
      exact ⟨q, x, { hdump with entry := (hentry' q x).mpr ⟨hdump.entry, hstays⟩ }, rfl⟩
    · have hx := (h.entryAt?_eq_of_not_isStale hpassed (.inr hdump.entry)).trans hdump.entry
      have hstays : ¬ FileTree.IsStale ending (dumps.map Path.base) p q x := by
        rintro ⟨n, hn, hplain, hending, -⟩
        exact hpassed ⟨n, hn, hplain, hending, List.not_mem_nil⟩
      exact ⟨q, x, { hdump with entry := (hentry' q x).mpr ⟨hx, hstays⟩ }, rfl⟩

end Exporting

/-- After an export a search of the dump directory finds the dumps that were written, and besides those
exactly the dumps that cleaning passes over: they lie deeper, or have another ending, or are directories.
So it finds just what was written if and only if nothing else of that kind was there before. -/
theorem mem_dumps_exportAll_iff (e : Exporter) (run : Program) (t : FileTree) (sources : List String)
    (o : Outcome) (hwf : t.WellFormed) (hwrites : e.WritesDumpOnly run)
    (h : e.exportAll run t sources = .ok o) :
    ∃ t₁ p, t.makeDirs e.dumpDir = .ok t₁ ∧ t₁.find e.dumpDir = .ok (p, .directory) ∧
      (∀ path, path ∈ o.tree.dumps e.dumpDir ↔ path ∈ o.dumps ∨
        ∃ q x, t₁.IsDump p q x ∧ ¬ FileTree.IsStale ending [] p q x ∧
          path = Path.join (e.dumpDir :: q.drop p.length)) ∧
      ((∀ path, path ∈ o.tree.dumps e.dumpDir ↔ path ∈ o.dumps) ↔
        ∀ q x, t₁.IsDump p q x → ¬ FileTree.IsStale ending [] p q x →
          Path.join (e.dumpDir :: q.drop p.length) ∈ o.dumps) := by
  obtain ⟨t₁, p, tree, hmake, hdir, hruns, hclean⟩ := exists_of_exportAll_eq_ok hwf hwrites h
  have hmem := hruns.mem_dumps_cleanStale_iff hclean
  refine ⟨t₁, p, hmake, hdir, hmem, ?_, ?_⟩
  · intro hexact q x hdump hpassed
    exact (hexact _).mp ((hmem _).mpr (.inr ⟨q, x, hdump, hpassed, rfl⟩))
  · intro hnone path
    refine (hmem path).trans ⟨?_, .inl⟩
    rintro (hd | ⟨q, x, hdump, hpassed, rfl⟩)
    · exact hd
    · exact hnone q x hdump hpassed

/-! ### A directory with leftovers -/

/-- A directory with a dump in YAML and a dump below it, both of earlier runs, and a stale dump. -/
def leftovers : FileTree where
  here := []
  entries := [(["d"], .directory), (["d", "old.scope.yaml"], .file [] false), (["d", "sub"], .directory),
    (["d", "sub", "x.scope.json"], .file [] false), (["d", "y.scope.json"], .file [] false)]

def plainExporter : Exporter where
  program := "/bin/scopes"
  extra := []
  dumpDir := "d"
  database := ""
  timeout := 0
  workers := 1

/-- A program that writes an empty dump where its first argument tells it to. -/
def writeEmpty : Program := fun _ args t =>
  match t.store (String.ofList ((args.headD "").toList.drop 9)) [] with
  | .ok t' => (true, t')
  | .error _ => (false, t)

theorem writesDumpOnly_writeEmpty (e : Exporter) : e.WritesDumpOnly writeEmpty := by
  intro source t
  have hpath : String.ofList (((e.args source).headD "").toList.drop 9) = e.dumpPath source := by
    simp [args]
  simp only [writeEmpty, hpath]
  split
  · exact .inr ⟨[], false, ‹_›⟩
  · exact .inl rfl

/-- The name of an exported dump has dashes, unlike those of the leftovers. -/
theorem dash_mem_base {o : Outcome} {sources : List String} (hwf : t.WellFormed)
    (hwrites : e.WritesDumpOnly run) (h : e.exportAll run t sources = .ok o) :
    ∀ d ∈ o.dumps, '-' ∈ (Path.base d).toList := by
  intro d hd
  obtain ⟨t₁, p, tree, -, -, hruns, -⟩ := exists_of_exportAll_eq_ok hwf hwrites h
  obtain ⟨source, y, rfl, -⟩ := hruns.dump d hd
  rw [dumpPath_eq, Path.base_join hruns.dumpDir_ne (isName_dumpName source), dumpName, String.toList_append,
    Uuid.ofName, Uuid.toList_text]
  simp

/-- Both leftovers are found after an export that wrote neither. -/
theorem mem_dumps_exportAll_iff_sample : leftovers.WellFormed ∧ plainExporter.WritesDumpOnly writeEmpty ∧
    ∃ o, plainExporter.exportAll writeEmpty leftovers ["a.cpp"] = .ok o ∧
      ∀ path ∈ ["d/old.scope.yaml", "d/sub/x.scope.json"],
        path ∈ o.tree.dumps plainExporter.dumpDir ∧ path ∉ o.dumps := by
  have hwf : leftovers.WellFormed := by decide +kernel
  have hwrites := writesDumpOnly_writeEmpty plainExporter
  have hmade : leftovers.makeDirs plainExporter.dumpDir = .ok leftovers := rfl
  have hfound : leftovers.find plainExporter.dumpDir = .ok (["d"], .directory) := rfl
  obtain ⟨o, ho⟩ := exists_exportAll writeEmpty hmade ["a.cpp"]
  refine ⟨hwf, hwrites, o, ho, fun path hpath => ?_⟩
  obtain ⟨t₁, p, hmake, hfind, hmem, -⟩ :=
    mem_dumps_exportAll_iff plainExporter writeEmpty leftovers ["a.cpp"] o hwf hwrites ho
  obtain rfl : leftovers = t₁ := Except.ok.inj (hmade.symm.trans hmake)
  obtain rfl : ["d"] = p := (Prod.mk.inj (Except.ok.inj (hfound.symm.trans hfind))).1
  have hdash := dash_mem_base hwf hwrites ho path
  rcases List.mem_pair.mp hpath with rfl | rfl
  · refine ⟨(hmem _).mpr (.inr ⟨["d", "old.scope.yaml"], .file [] false, ?_, ?_, by decide +kernel⟩), ?_⟩
    · exact ⟨rfl, by decide, by decide, by decide +kernel⟩
    · rintro ⟨n, hn, -, hending, -⟩
      obtain rfl : "old.scope.yaml" = n := by simpa using hn
      revert hending
      decide +kernel
    · exact fun hd => absurd (hdash hd) (by decide +kernel)
  · refine ⟨(hmem _).mpr (.inr ⟨["d", "sub", "x.scope.json"], .file [] false, ?_, ?_, by decide +kernel⟩), ?_⟩
    · exact ⟨rfl, by decide, by decide, by decide +kernel⟩
    · rintro ⟨n, hn, -⟩
      simp at hn
    · exact fun hd => absurd (hdash hd) (by decide +kernel)

end Exporter

end TwoPhase
