import TwoPhase.Analysis
import TwoPhase.Proofs.Judgement
import TwoPhase.Proofs.ResultOrder
import TwoPhase.Proofs.Wording

/-!
# What is reported about units

Every use has one finding. A result can be read back from its key, because the message tells the name, the
base and the verdict; so joining results by key loses nothing, and `IsReport` determines the report. The log
has one entry for each use.
-/

namespace TwoPhase

theorem Model.Judged.use_eq {m : Model} (h : m.Judged policy follow u f) : f.use = u := by
  cases h <;> rfl

/-- There is one finding for each use, in the order of the uses. -/
theorem unitFindings_use (o : RuleOptions) (u : CompilationUnit) :
    (unitFindings o u).map (·.use) = u.model.uses := by
  have hjudged (x : NameUse) :
      ((u.model.evaluator o.thePolicy o.follows).evaluate? x).map (·.use) = some x := by
    obtain ⟨f, hf, hjudged⟩ := u.model_inv.evaluate?_judged o.thePolicy o.follows x
    rw [hf, Option.map_some, hjudged.use_eq]
  calc (unitFindings o u).map (·.use)
    _ = u.model.uses.filterMap fun x =>
        ((u.model.evaluator o.thePolicy o.follows).evaluate? x).map (·.use) :=
      List.map_filterMap
    _ = u.model.uses := by simp only [hjudged, List.filterMap_some]

/-- The log has one entry for each use, in the order of the uses: the line of its finding. -/
theorem unitLog_forall₂ (o : RuleOptions) (srcDir : String) (u : CompilationUnit) :
    List.Forall₂ (fun x l => ∃ f, (u.model.evaluator o.thePolicy o.follows).evaluate? x = some f ∧
      l = f.logLine srcDir) u.model.uses (unitLog o srcDir u) := by
  have hfindings : unitFindings o u =
      u.model.uses.filterMap (u.model.evaluator o.thePolicy o.follows).evaluate? := rfl
  rw [unitLog, hfindings]
  induction u.model.uses with
  | nil => exact .nil
  | cons x xs ih =>
    obtain ⟨f, hf, -⟩ := u.model_inv.evaluate?_judged o.thePolicy o.follows x
    rw [List.filterMap_cons_some hf, List.map_cons]
    exact .cons ⟨f, hf, rfl⟩ ih

theorem length_unitLog (o : RuleOptions) (srcDir : String) (us : List CompilationUnit) :
    (us.flatMap (unitLog o srcDir)).length = (us.flatMap (·.model.uses)).length := by
  simp only [List.length_flatMap, unitLog, List.length_map, ← unitFindings_use o]

/-! ### Results -/

namespace Finding

/-- The result stands for the finding: it tells its place, name, base and verdict, and has the identity
that these give. -/
structure IsReportedAs (srcDir : String) (f : Finding) (r : Result) : Prop where
  path : r.path = Bytes.ofString (sourcePath srcDir f.use.loc.file)
  line : r.line = Int32.ofInt f.use.loc.line
  column : r.column = Int32.ofInt f.use.loc.column
  name : r.name = Bytes.ofString f.use.name
  baseClass : r.baseClass = Bytes.ofString (if f.verdict = .nonCompliant then f.baseText else "")
  verdict : r.verdict =
    if f.verdict = .nonCompliant then Result.nonCompliantText else Result.compliantText
  id : r.id = Bytes.ofString (Uuid.ofName Uuid.oidSpace (resultKey r))

variable {f g : Finding} {lang : Language} {srcDir : String}

theorem isReportedAs_result (f : Finding) (lang : Language) (srcDir : String) :
    f.IsReportedAs srcDir (f.result lang srcDir) where
  path := rfl
  line := rfl
  column := rfl
  name := rfl
  baseClass := by simp [result]
  verdict := by simp [result]
  id := by simp only [result, resultKey]

theorem result_message (f : Finding) (lang : Language) (srcDir : String) :
    (f.result lang srcDir).message = Bytes.ofString
      (if f.verdict = .nonCompliant then Phrase.hiddenText lang f.use.name f.baseText
      else Phrase.compliantText lang f.use.name) := by
  by_cases hbad : f.verdict = .nonCompliant
  · simp [result, hbad, Phrase.say_dependentBase]
  · simp [result, hbad, Phrase.say_compliant]

/-- The key of a result determines it, as long as names stand on one line. -/
theorem result_eq_of_key_eq (hf : '\n' ∉ f.use.name.toList) (hg : '\n' ∉ g.use.name.toList)
    (h : (f.result lang srcDir).key = (g.result lang srcDir).key) :
    f.result lang srcDir = g.result lang srcDir := by
  obtain ⟨hpath, hline, hcolumn, hmessage⟩ := Result.Key.mk.inj h
  rw [result_message, result_message, Bytes.ofString_inj] at hmessage
  simp only [result] at hpath hline hcolumn ⊢
  by_cases hbad : f.verdict = .nonCompliant <;> by_cases hbad' : g.verdict = .nonCompliant
  · rw [if_pos hbad, if_pos hbad', Phrase.hiddenText_inj hf hg] at hmessage
    simp only [hpath, hline, hcolumn, hbad, hbad', hmessage.1, hmessage.2]
  · rw [if_pos hbad, if_neg hbad'] at hmessage
    exact absurd hmessage (Phrase.hiddenText_ne_compliantText _ _ _ _)
  · rw [if_neg hbad, if_pos hbad'] at hmessage
    exact absurd hmessage.symm (Phrase.hiddenText_ne_compliantText _ _ _ _)
  · rw [if_neg hbad, if_neg hbad', Phrase.compliantText_inj] at hmessage
    simp only [hpath, hline, hcolumn, beq_eq_false_iff_ne.mpr hbad, beq_eq_false_iff_ne.mpr hbad',
      hmessage, Bool.false_eq_true, if_false]

end Finding

/-- The report on units: the results of their reported findings, each once, with strictly increasing keys. -/
structure IsReport (o : RuleOptions) (lang : Language) (srcDir : String) (us : List CompilationUnit)
    (rs : Results) : Prop where
  mem_iff : ∀ r, r ∈ rs ↔ ∃ u ∈ us, ∃ f ∈ unitFindings o u,
    f.isReported o.reportsCompliant = true ∧ f.result lang srcDir = r
  increasing : rs.Increasing
  represented : ∀ u ∈ us, ∀ f ∈ unitFindings o u, f.isReported o.reportsCompliant = true →
    ∃ r ∈ rs, f.IsReportedAs srcDir r

/-- All names that units use stand on one line. -/
def NamesOnOneLine (us : List CompilationUnit) : Prop :=
  ∀ u ∈ us, ∀ x ∈ u.model.uses, '\n' ∉ x.name.toList

instance (us : List CompilationUnit) : Decidable (NamesOnOneLine us) :=
  inferInstanceAs (Decidable (∀ u ∈ us, ∀ x ∈ u.model.uses, _))

variable {o : RuleOptions} {lang : Language} {srcDir : String} {us : List CompilationUnit}

theorem mem_checkUnit {r : Result} : r ∈ checkUnit o lang srcDir u ↔
    ∃ f ∈ unitFindings o u, f.isReported o.reportsCompliant = true ∧ f.result lang srcDir = r := by
  simp [checkUnit, and_assoc]

/-- The results of the units, in whatever order they arrive, are merged into the report. -/
theorem isReport_of_perm (h : NamesOnOneLine us) {rs : Results}
    (hperm : rs.Perm (us.flatMap (checkUnit o lang srcDir))) :
    IsReport o lang srcDir us rs.unique.sorted := by
  have hmem (r : Result) : r ∈ rs ↔ ∃ u ∈ us, ∃ f ∈ unitFindings o u,
      f.isReported o.reportsCompliant = true ∧ f.result lang srcDir = r := by
    rw [hperm.mem_iff, List.mem_flatMap]
    simp only [mem_checkUnit]
  have hname {u f} (hu : u ∈ us) (hf : f ∈ unitFindings o u) : '\n' ∉ f.use.name.toList := by
    refine h u hu f.use ?_
    rw [← unitFindings_use o]
    exact List.mem_map_of_mem hf
  have hkey : ∀ a ∈ rs, ∀ b ∈ rs, a.key = b.key → a = b := by
    intro a ha b hb hab
    obtain ⟨u, hu, f, hf, _, rfl⟩ := (hmem a).mp ha
    obtain ⟨v, hv, g, hg, _, rfl⟩ := (hmem b).mp hb
    exact Finding.result_eq_of_key_eq (hname hu hf) (hname hv hg) hab
  have hsorted (r : Result) : r ∈ rs.unique.sorted ↔ r ∈ rs := by
    rw [rs.unique.sorted_perm.mem_iff, Results.mem_unique_of_key hkey]
  exact
    { mem_iff := fun r => (hsorted r).trans (hmem r)
      increasing := Results.sorted_increasing rs.unique_distinct
      represented := fun u hu f hf hreported =>
        ⟨f.result lang srcDir, (hsorted _).mpr ((hmem _).mpr ⟨u, hu, f, hf, hreported, rfl⟩),
          f.isReportedAs_result lang srcDir⟩ }

theorem IsReport.eq {rs rs' : Results} (h : IsReport o lang srcDir us rs)
    (h' : IsReport o lang srcDir us rs') : rs = rs' :=
  h.increasing.eq_of_mem_iff h'.increasing fun r => (h.mem_iff r).trans (h'.mem_iff r).symm

/-! ### The log -/

/-- The text consists of these lines, each ended by a line feed. -/
def HasLines (text : String) (lines : List String) : Prop :=
  text = String.join (lines.map (· ++ "\n")) ∧ ∀ l ∈ lines, '\n' ∉ l.toList

/-- Nothing that a log says about the finding contains a line feed. -/
def Finding.OnOneLine (srcDir : String) (f : Finding) : Prop :=
  '\n' ∉ (sourcePath srcDir f.use.loc.file).toList ∧ '\n' ∉ f.use.name.toList ∧
    '\n' ∉ f.baseText.toList

instance (srcDir : String) (f : Finding) : Decidable (f.OnOneLine srcDir) :=
  inferInstanceAs (Decidable (_ ∧ _ ∧ _))

theorem newline_not_mem_repr (n : Int) : '\n' ∉ n.repr.toList := by
  have hdigits (k : Nat) : '\n' ∉ k.repr.toList := by
    rw [Nat.toList_repr]
    intro hmem
    exact absurd (Nat.isDigit_of_mem_toDigits (by decide) (by decide) hmem) (by decide)
  cases n with
  | ofNat k => exact hdigits k
  | negSucc k => simpa [Int.repr] using hdigits (k + 1)

/-- A log entry stands on one line if the path, the name and the base do. -/
theorem Finding.onOneLine_iff {f : Finding} :
    f.OnOneLine srcDir ↔ '\n' ∉ (f.logLine srcDir).toList := by
  have hverdict : '\n' ∉ f.verdict.text.toList := by
    cases f.verdict <;> simp [Verdict.text]
  have hreason : '\n' ∉ f.reason.text.toList := by
    cases f.reason <;> simp [Reason.text]
  have hline := newline_not_mem_repr f.use.loc.line
  have hcolumn := newline_not_mem_repr f.use.loc.column
  unfold OnOneLine logLine baseText
  cases f.base <;> simp [hverdict, hreason, hline, hcolumn]

theorem count_join_lines (lines : List String) :
    (String.join (lines.map (· ++ "\n"))).toList.count '\n' =
      lines.length + (lines.flatMap String.toList).count '\n' := by
  rw [String.toList_join]
  induction lines with
  | nil => rfl
  | cons l lines ih =>
    have hone : "\n".toList.count '\n' = 1 := by decide
    simp only [List.map_cons, List.flatMap_cons, List.count_append, ih, String.toList_append,
      List.length_cons]
    omega

theorem count_flatMap_toList_eq_zero {lines : List String} :
    (lines.flatMap String.toList).count '\n' = 0 ↔ ∀ l ∈ lines, '\n' ∉ l.toList := by
  simp [List.count_eq_zero]

/-- A log has as many lines as entries exactly if every entry stands on one line; the lines are the entries
then. -/
theorem logText_lines {entries : List String} :
    ((∀ l ∈ entries, '\n' ∉ l.toList) →
      ∃ ls, HasLines (logText entries) ls ∧ ls.Perm entries) ∧
    ((∃ ls, HasLines (logText entries) ls ∧ ls.length = entries.length) →
      ∀ l ∈ entries, '\n' ∉ l.toList) := by
  have hperm := List.mergeSort_perm entries fun a b => decide (a ≤ b)
  constructor
  · intro h
    exact ⟨_, ⟨rfl, fun l hl => h l (hperm.mem_iff.mp hl)⟩, hperm⟩
  · rintro ⟨ls, ⟨htext, hls⟩, hlength⟩
    have hcount := congrArg (fun s => s.toList.count '\n') htext
    simp only [logText, count_join_lines, count_flatMap_toList_eq_zero.mpr hls] at hcount
    have hlength' := hperm.length_eq
    intro l hl
    exact count_flatMap_toList_eq_zero.mp (by omega) l (hperm.mem_iff.mpr hl)

/-- The log has a line for each use exactly if the paths, names and bases in it stand on one line. -/
theorem verdictLog_lines (o : RuleOptions) (srcDir : String) (us : List CompilationUnit) :
    ((∀ u ∈ us, ∀ f ∈ unitFindings o u, f.OnOneLine srcDir) →
      ∃ lines, HasLines (verdictLog o srcDir us) lines ∧
        lines.Perm (us.flatMap (unitLog o srcDir)) ∧
        lines.length = (us.flatMap (·.model.uses)).length) ∧
    ((∃ lines, HasLines (verdictLog o srcDir us) lines ∧
        lines.length = (us.flatMap (·.model.uses)).length) →
      ∀ u ∈ us, ∀ f ∈ unitFindings o u, f.OnOneLine srcDir) := by
  have hlength := length_unitLog o srcDir us
  have hentry : (∀ u ∈ us, ∀ f ∈ unitFindings o u, f.OnOneLine srcDir) ↔
      ∀ l ∈ us.flatMap (unitLog o srcDir), '\n' ∉ l.toList := by
    simp only [Finding.onOneLine_iff, unitLog, List.forall_mem_flatMap, List.forall_mem_map]
  constructor
  · intro h
    obtain ⟨lines, htext, hperm⟩ := logText_lines.1 (hentry.mp h)
    exact ⟨lines, htext, hperm, hperm.length_eq.trans hlength⟩
  · rintro ⟨lines, htext, hcount⟩
    exact hentry.mpr (logText_lines.2 ⟨lines, htext, hcount.trans hlength.symm⟩)

theorem logText_perm {lines lines' : List String} (h : lines.Perm lines') :
    logText lines = logText lines' := by
  have hsorted (ls : List String) : (ls.mergeSort fun a b => decide (a ≤ b)).Pairwise (· ≤ ·) := by
    refine List.Pairwise.imp (fun h => of_decide_eq_true h) (List.pairwise_mergeSort ?_ ?_ ls)
    · intro a b c hab hbc
      exact decide_eq_true (String.le_trans (of_decide_eq_true hab) (of_decide_eq_true hbc))
    · intro a b
      simpa using String.le_total a b
  have heq : (lines.mergeSort fun a b => decide (a ≤ b)) =
      lines'.mergeSort fun a b => decide (a ≤ b) := by
    refine List.Perm.eq_of_pairwise (fun a b _ _ hab hba => String.le_antisymm hab hba)
      (hsorted lines) (hsorted lines') ?_
    exact (List.mergeSort_perm lines _).trans (h.trans (List.mergeSort_perm lines' _).symm)
  rw [logText, logText, heq]

end TwoPhase
