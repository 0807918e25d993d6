import TwoPhase.Proofs.Schedule

/-!
# The wording of the second rule

The two rules find the same, and say it in different words. The second one rewrites messages when the results
have already been made distinct and sorted. That does no harm: both messages about a hidden name hold the
same text behind a fixed start, so that they are equal for the same pairs of names and bases, and neither is
ever the message about a compliant name. Main statement: `autosar_rewords_misra`.
-/

namespace TwoPhase

namespace Phrase

/-- What stands before the name in the message of the second rule. -/
def autosarLead : Language → String
  | .english => "Names that may be found in a dependent base of a class template shall be referred to using a qualified-id or this->.\nName: "
  | .chinese => "类模板中可能在依赖基类中找到的名称应使用限定标识或 this-> 引用。\n名称："

/-- The message of the second rule about a name that a dependent base hides. -/
def autosarText (l : Language) (name base : String) : String :=
  autosarLead l ++ name ++ "\n" ++ hiddenLabel l ++ base

theorem wording_autosarDependentBase (l : Language) :
    wording l autosarDependentBase = autosarLead l ++ "%s" ++ ("\n" ++ hiddenLabel l) ++ "%s" := by
  cases l with
  | english => simp [wording, autosarDependentBase, autosarLead, hiddenLabel]
  | chinese => simp [wording, chinese, autosarDependentBase, dependentBase, List.lookup_cons, autosarLead, hiddenLabel]

set_option maxRecDepth 8000 in
theorem percent_not_mem_autosarLead (l : Language) : '%' ∉ (autosarLead l).toList := by
  have h {cs : List Char} (hcs : cs.contains '%' = false) : '%' ∉ (String.ofList cs).toList := by
    rw [String.toList_ofList]
    simpa using hcs
  cases l <;> exact h (by decide +kernel)

theorem say_autosarDependentBase (l : Language) (name base : String) :
    say l autosarDependentBase [.text (Bytes.ofString name), .text (Bytes.ofString base)] =
      Bytes.ofString (autosarText l name base) := by
  have hlead := percent_not_mem_autosarLead l
  have hlabel : '%' ∉ ("\n" ++ hiddenLabel l).toList := by cases l <;> simp [hiddenLabel]
  rw [say, wording_autosarDependentBase, format_two hlead hlabel]
  simp [autosarText]

/-- The messages of the two rules tell the same names and bases apart. -/
theorem autosarText_eq_iff {l : Language} {name name' base base' : String} :
    autosarText l name base = autosarText l name' base' ↔
      hiddenText l name base = hiddenText l name' base' := by
  simp only [autosarText, hiddenText, ← String.toList_inj, String.toList_append, List.append_assoc,
    List.append_cancel_left_eq]

theorem autosarText_ne_compliantText (l : Language) (name base name' : String) :
    autosarText l name base ≠ compliantText l name' := by
  intro heq
  cases l with
  | english =>
    have hfifth := congrArg (fun s => s.toList[4]?) heq
    simp [autosarText, autosarLead, compliantText] at hfifth
  | chinese =>
    have hfirst := congrArg (fun s => s.toList[0]?) heq
    simp [autosarText, autosarLead, compliantText] at hfirst

end Phrase

/-! ### Single results -/

/-- The second result says the same as the first in the words of the second rule: it differs in its message at
most, and has its own message only about a name that a dependent base hides. -/
structure Result.Rewords (lang : Language) (r r' : Result) : Prop where
  others : r' = { r with message := r'.message }
  verdict : r.verdict = compliantText ∨ r.verdict = nonCompliantText
  compliant : r.verdict = compliantText → r'.message = r.message
  nonCompliant : r.verdict = nonCompliantText → ∃ name base, r.name = Bytes.ofString name ∧
    r.baseClass = Bytes.ofString base ∧ r'.message = Bytes.ofString (Phrase.autosarText lang name base)

theorem Result.compliantText_ne_nonCompliantText : compliantText ≠ nonCompliantText := by
  rw [compliantText, nonCompliantText, ne_eq, Bytes.ofString_inj]
  decide

theorem Result.autosarWording_eq (r : Result) (lang : Language) :
    r.autosarWording lang = { r with message := (r.autosarWording lang).message } := by
  unfold autosarWording
  split <;> rfl

namespace Finding

variable {f g : Finding} {lang : Language} {srcDir : String}

theorem autosarWording_message (f : Finding) (lang : Language) (srcDir : String) :
    ((f.result lang srcDir).autosarWording lang).message = Bytes.ofString
      (if f.verdict = .nonCompliant then Phrase.autosarText lang f.use.name f.baseText
      else Phrase.compliantText lang f.use.name) := by
  have hreported := f.isReportedAs_result lang srcDir
  by_cases hbad : f.verdict = .nonCompliant
  · have hverdict : (f.result lang srcDir).verdict = Result.nonCompliantText := by
      rw [hreported.verdict, if_pos hbad]
    rw [Result.autosarWording, if_pos hverdict, hreported.name, hreported.baseClass, if_pos hbad, if_pos hbad,
      Phrase.say_autosarDependentBase]
  · have hverdict : (f.result lang srcDir).verdict ≠ Result.nonCompliantText := by
      rw [hreported.verdict, if_neg hbad]
      exact Result.compliantText_ne_nonCompliantText
    rw [Result.autosarWording, if_neg hverdict, result_message, if_neg hbad, if_neg hbad]

theorem rewords_result (f : Finding) (lang : Language) (srcDir : String) :
    (f.result lang srcDir).Rewords lang ((f.result lang srcDir).autosarWording lang) := by
  have hreported := f.isReportedAs_result lang srcDir
  have hverdict := hreported.verdict
  have hother := (f.result lang srcDir).autosarWording_eq lang
  by_cases hbad : f.verdict = .nonCompliant
  · rw [if_pos hbad] at hverdict
    refine ⟨hother, .inr hverdict, fun hgood => ?_, fun _ => ⟨f.use.name, f.baseText, hreported.name, ?_, ?_⟩⟩
    · exact absurd (hgood.symm.trans hverdict) Result.compliantText_ne_nonCompliantText
    · rw [hreported.baseClass, if_pos hbad]
    · rw [autosarWording_message, if_pos hbad]
  · rw [if_neg hbad] at hverdict
    refine ⟨hother, .inl hverdict, fun _ => ?_, fun hhidden => ?_⟩
    · rw [autosarWording_message, result_message, if_neg hbad, if_neg hbad]
    · exact absurd (hverdict.symm.trans hhidden) Result.compliantText_ne_nonCompliantText

/-- What the second rule reports twice, the first one does too. -/
theorem key_eq_of_autosarWording_key_eq
    (h : ((f.result lang srcDir).autosarWording lang).key = ((g.result lang srcDir).autosarWording lang).key) :
    (f.result lang srcDir).key = (g.result lang srcDir).key := by
  obtain ⟨hpath, hline, hcolumn, hmessage⟩ := Result.Key.mk.inj h
  rw [autosarWording_message, autosarWording_message, Bytes.ofString_inj] at hmessage
  rw [Result.autosarWording_eq, (g.result lang srcDir).autosarWording_eq lang] at hpath hline hcolumn
  suffices hsame : (f.result lang srcDir).message = (g.result lang srcDir).message by
    simp only [Result.key, Result.Key.mk.injEq]
    exact ⟨hpath, hline, hcolumn, hsame⟩
  rw [result_message, result_message, Bytes.ofString_inj]
  by_cases hbad : f.verdict = .nonCompliant <;> by_cases hbad' : g.verdict = .nonCompliant <;>
    simp only [hbad, hbad', if_true, if_false] at hmessage ⊢
  · exact Phrase.autosarText_eq_iff.mp hmessage
  · exact absurd hmessage (Phrase.autosarText_ne_compliantText _ _ _ _)
  · exact absurd hmessage.symm (Phrase.autosarText_ne_compliantText _ _ _ _)
  · exact hmessage

end Finding

/-! ### Lists of results -/

/-- The order by path, then line, then column. -/
def Result.PlaceLe (a b : Result) : Prop :=
  a.path < b.path ∨ a.path = b.path ∧ (a.line < b.line ∨ a.line = b.line ∧ a.column ≤ b.column)

theorem Result.Key.Lt.placeLe {a b : Result} (h : a.key.Lt b.key) : a.PlaceLe b := by
  refine h.imp_right (And.imp_right (Or.imp_right (And.imp_right fun hcolumn => ?_)))
  rcases hcolumn with hlt | ⟨heq, _⟩
  · exact Int32.le_of_lt hlt
  · exact Int32.le_of_eq heq

theorem Result.PlaceLe.autosarWording {a b : Result} (h : a.PlaceLe b) (lang : Language) :
    (a.autosarWording lang).PlaceLe (b.autosarWording lang) := by
  rw [a.autosarWording_eq lang, b.autosarWording_eq lang]
  exact h

/-- One list is the other one in the words of the second rule, result by result. No key occurs twice in it,
and it is sorted by place. -/
structure Results.IsRewording (lang : Language) (rs rs' : Results) : Prop where
  pointwise : List.Forall₂ (Result.Rewords lang) rs rs'
  distinct : rs'.Distinct
  ordered : rs'.Pairwise Result.PlaceLe

variable {o : RuleOptions} {lang : Language} {srcDir : String} {us : List CompilationUnit} {rs : Results}

theorem isRewording_of_increasing (hreported : ∀ r ∈ rs, ∃ f : Finding, f.result lang srcDir = r)
    (h : rs.Increasing) : rs.IsRewording lang (rs.map (Result.autosarWording lang)) where
  pointwise := by
    refine List.forall₂_map_right_iff.mpr (List.forall₂_same.mpr fun r hr => ?_)
    obtain ⟨f, rfl⟩ := hreported r hr
    exact f.rewords_result lang srcDir
  distinct := by
    refine List.pairwise_map.mpr (List.pairwise_map.mpr ?_)
    refine (List.pairwise_map.mp h.distinct).imp_of_mem fun ha hb hne heq => hne ?_
    obtain ⟨f, rfl⟩ := hreported _ ha
    obtain ⟨g, rfl⟩ := hreported _ hb
    exact Finding.key_eq_of_autosarWording_key_eq heq
  ordered := by
    exact List.pairwise_map.mpr (h.imp fun hlt => hlt.placeLe.autosarWording lang)

/-- What the workers append, in whatever order, is made from findings. -/
theorem exists_result_eq_of_perm (hperm : rs.Perm (us.flatMap (checkUnit o lang srcDir))) :
    ∀ r ∈ rs.unique.sorted, ∃ f : Finding, f.result lang srcDir = r := by
  intro r hr
  have hmem := List.mem_of_find?_eq_some (Results.mem_unique.mp ((Results.sorted_perm _).mem_iff.mp hr))
  obtain ⟨u, _, hu⟩ := List.mem_flatMap.mp (hperm.mem_iff.mp hmem)
  obtain ⟨f, _, _, hf⟩ := mem_checkUnit.mp hu
  exact ⟨f, hf⟩

theorem isRewording_of_perm (hperm : rs.Perm (us.flatMap (checkUnit o lang srcDir))) :
    rs.unique.sorted.IsRewording lang (rs.unique.sorted.map (Result.autosarWording lang)) :=
  isRewording_of_increasing (exists_result_eq_of_perm hperm) (Results.sorted_increasing rs.unique_distinct)

/-- An analysis that comes to an end makes the distinct results of the units out of findings. -/
theorem analyzeBases_eq_ok {t : FileTree} {i : AnalysisInput} (h : analyzeBases t i o = .ok rs) :
    ∃ all : Results, all.Perm ((t.units (t.dumps i.dumpDir)).flatMap (checkUnit o i.lang i.srcDir)) ∧
      rs = all.unique.sorted := by
  simp only [analyzeBases] at h
  split at h
  · cases h
  · cases h
    exact ⟨_, .of_eq List.flatMap_def.symm, rfl⟩

/-- **The second rule is the first one in other words.** Each fails with an error exactly if the other fails with
it. Otherwise the second one reports as many results as the first, and each differs from its counterpart in
the message at most: compliant ones keep it, and the others have the message of the second rule about the same
name and base. No two of them have the same path, line, column and message, and they are sorted by path, line
and column. The same holds in whatever order the workers of a check append their findings, and if names stand on
one line also between two checks, one for each rule, whose workers append in different orders. -/
theorem autosar_rewords_misra (t : FileTree) (i : AnalysisInput) (o : RuleOptions) :
    (∀ e, RuleSet.autosar.analyze t i o = .error e ↔ RuleSet.misra.analyze t i o = .error e) ∧
    (∀ rs, RuleSet.misra.analyze t i o = .ok rs →
      ∃ rs', RuleSet.autosar.analyze t i o = .ok rs' ∧ rs'.length = rs.length ∧ rs.IsRewording i.lang rs') ∧
    (∀ g, Gathering.Run t o i.lang i.srcDir { pending := t.dumps i.dumpDir } g → g.pending = [] →
      g.results.unique.sorted.IsRewording i.lang
        (g.results.unique.sorted.map (Result.autosarWording i.lang))) ∧
    (NamesOnOneLine (t.units (t.dumps i.dumpDir)) →
      ∀ g g', Gathering.Run t o i.lang i.srcDir { pending := t.dumps i.dumpDir } g → g.pending = [] →
        Gathering.Run t o i.lang i.srcDir { pending := t.dumps i.dumpDir } g' → g'.pending = [] →
        g.results.unique.sorted.IsRewording i.lang
          (g'.results.unique.sorted.map (Result.autosarWording i.lang))) := by
  refine ⟨fun e => ?_, fun rs hrs => ?_, fun g hrun hdone => ?_, fun hnames g g' hrun hdone hrun' hdone' => ?_⟩
  · simp only [RuleSet.analyze]
    cases analyzeBases t i o with
    | error e' => simp [Except.map]
    | ok rs => simp [Except.map]
  · refine ⟨rs.map (Result.autosarWording i.lang), ?_, List.length_map _, ?_⟩
    · simp only [RuleSet.analyze] at hrs ⊢
      rw [hrs]
      rfl
    · obtain ⟨all, hperm, rfl⟩ := analyzeBases_eq_ok hrs
      exact isRewording_of_perm hperm
  · exact isRewording_of_perm (Gathering.Run.results_perm hrun hdone)
  · have hresults := Gathering.Run.results_perm hrun hdone
    have hresults' := Gathering.Run.results_perm hrun' hdone'
    -- both checks give the one report on the units
    rw [(isReport_of_perm hnames hresults).eq (isReport_of_perm hnames hresults')]
    exact isRewording_of_perm hresults'

end TwoPhase
