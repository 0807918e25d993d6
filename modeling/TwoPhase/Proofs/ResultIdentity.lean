import TwoPhase.Session
import TwoPhase.Proofs.DecimalDigits
import TwoPhase.Proofs.Rewording
import TwoPhase.Proofs.TagReading
import TwoPhase.Proofs.TaskCollection
import TwoPhase.Proofs.Utf8
import Mathlib

/-!
# Which results share an identity

The identity of a result is made from its place, name and verdict. Neither the rule that reports it nor the
base that it names has a part in it, while the message, by which results are told apart, holds both. So two
entries of a final list have the same identity exactly if they report the same use: under both rules, or
with different bases. Main statement: `selectedResults_id_eq_iff`.
-/

namespace TwoPhase

/-! ### Texts between zero bytes -/

theorem zeroSeparated_inj {p q : Bytes} {ps qs : List Bytes} (hp : ∀ b ∈ p :: ps, 0 ∉ b)
    (hq : ∀ b ∈ q :: qs, 0 ∉ b) : zeroSeparated (p :: ps) = zeroSeparated (q :: qs) ↔ p :: ps = q :: qs := by
  refine ⟨fun h => ?_, congrArg zeroSeparated⟩
  rw [← List.splitOn_intercalate 0 hp (List.cons_ne_nil p ps),
    ← List.splitOn_intercalate 0 hq (List.cons_ne_nil q qs)]
  exact congrArg (List.splitOn 0) h

theorem decimal_inj {m n : Int32} : decimal m = decimal n ↔ m = n := by
  rw [decimal, decimal, Bytes.ofString_inj, Int.repr_inj, Int32.toInt_inj]

theorem zero_not_mem_decimal (n : Int32) : 0 ∉ decimal n := by
  have hchar : ∀ c ∈ n.toInt.repr.toList, 45 ≤ c.toNat ∧ c.toNat < 0x80 := by
    intro c hc
    rw [toList_repr_int, List.mem_append] at hc
    rcases hc with hc | hc
    · split at hc
      · rw [List.mem_singleton.mp hc]
        decide
      · cases hc
    · have := toNat_of_isDigit (isDigit_toDigits hc)
      omega
  rw [decimal, ← Bytes.ofChars_toList, Bytes.ofChars, List.mem_flatMap]
  rintro ⟨c, hc, hzero⟩
  obtain ⟨hlow, hhigh⟩ := hchar c hc
  rw [Bytes.utf8EncodeChar_ascii hhigh, List.mem_singleton] at hzero
  have := congrArg UInt8.toNat hzero
  rw [Bytes.toNat_ofNat (by omega)] at this
  simp at this
  omega

/-! ### Keys of identities -/

namespace Result

/-- Both results report the same use, with the same verdict. -/
structure SameUse (r s : Result) : Prop where
  path : r.path = s.path
  line : r.line = s.line
  column : r.column = s.column
  name : r.name = s.name
  verdict : r.verdict = s.verdict

/-- No zero byte stands in the path or in the name. -/
structure ZeroFree (r : Result) : Prop where
  path : 0 ∉ r.path
  name : 0 ∉ r.name

/-- One of the two verdicts that a rule reports. -/
def HasVerdict (r : Result) : Prop :=
  r.verdict = compliantText ∨ r.verdict = nonCompliantText

variable {r s : Result}

theorem SameUse.resultKey_eq (h : r.SameUse s) : Finding.resultKey r = Finding.resultKey s := by
  simp only [Finding.resultKey, h.path, h.line, h.column, h.name, h.verdict]

theorem ZeroFree.not_mem (h : r.ZeroFree) (hverdict : r.HasVerdict) :
    ∀ b ∈ [Bytes.ofString "misra_cpp_2008/rule_14_6_1", r.path, decimal r.line, decimal r.column, r.name,
      r.verdict], (0 : UInt8) ∉ b := by
  have hlast : 0 ∉ r.verdict := by
    rcases hverdict with hv | hv <;> rw [hv] <;> decide +kernel
  have hfirst : 0 ∉ Bytes.ofString "misra_cpp_2008/rule_14_6_1" := by decide +kernel
  simp only [List.forall_mem_cons, List.not_mem_nil, false_imp_iff, implies_true, and_true]
  exact ⟨hfirst, h.path, zero_not_mem_decimal _, zero_not_mem_decimal _, h.name, hlast⟩

/-- Without zero bytes, the key tells the use. -/
theorem sameUse_of_resultKey_eq (hr : r.ZeroFree) (hs : s.ZeroFree) (hvr : r.HasVerdict) (hvs : s.HasVerdict)
    (h : Finding.resultKey r = Finding.resultKey s) : r.SameUse s := by
  rw [Finding.resultKey, Finding.resultKey, zeroSeparated_inj (hr.not_mem hvr) (hs.not_mem hvs)] at h
  simp only [List.cons.injEq, decimal_inj, true_and, and_true] at h
  obtain ⟨hpath, hline, hcolumn, hname, hverdict⟩ := h
  exact ⟨hpath, hline, hcolumn, hname, hverdict⟩

end Result

/-! ### Entries of the final list -/

namespace RuleSet

/-- The full name of the rule. -/
def title (s : RuleSet) : String :=
  s.name ++ "/" ++ s.rule

/-- The tag of the rule. -/
def tagText : RuleSet → String
  | misra => "[-][misra-cpp2008-14.6.1]: "
  | autosar => "[M14_6_1][autosar-M14.6.1]: "

/-- A result in the words of the rule. -/
def word (s : RuleSet) (lang : Language) (r : Result) : Result :=
  match s with
  | misra => r
  | autosar => r.autosarWording lang

/-- What the rule says about a finding. -/
def say (s : RuleSet) (lang : Language) (f : Finding) : String :=
  if f.verdict = .nonCompliant then
    match s with
    | misra => Phrase.hiddenText lang f.use.name f.baseText
    | autosar => Phrase.autosarText lang f.use.name f.baseText
  else Phrase.compliantText lang f.use.name

theorem name_inj {s s' : RuleSet} : s.name = s'.name ↔ s = s' := by
  cases s <;> cases s' <;> simp [name]

theorem tag_title (s : RuleSet) (r : Result) : r.tag s.title =
    { r with
      message := Bytes.ofString s.tagText ++ r.message
      ruleset := Bytes.ofString s.name
      ruleId := Bytes.ofString s.rule } := by
  have hslash : '/' ∉ s.name.toList := by
    cases s <;> decide +kernel
  have htext : RuleTag.text s.name s.rule = s.tagText := by
    cases s <;> decide +kernel
  rw [title, r.tag_append hslash, htext]

/-- The tags tell the rules apart, whatever follows. -/
theorem eq_of_tagText_append {s s' : RuleSet} {b b' : Bytes}
    (h : Bytes.ofString s.tagText ++ b = Bytes.ofString s'.tagText ++ b') : s = s' ∧ b = b' := by
  have hsecond (s : RuleSet) (b : Bytes) : (Bytes.ofString s.tagText ++ b).tail.head? =
      some (match s with | misra => 0x2d | autosar => 0x4d) := by
    cases s <;> rfl
  have hset : s = s' := by
    have hbyte := congrArg (fun b : Bytes => b.tail.head?) h
    simp only [hsecond] at hbyte
    revert hbyte
    cases s <;> cases s' <;> decide
  subst hset
  exact ⟨rfl, List.append_cancel_left h⟩

theorem analyze_eq (s : RuleSet) (t : FileTree) (i : AnalysisInput) (o : RuleOptions) :
    s.analyze t i o = (analyzeBases t i o).map (·.map (s.word i.lang)) := by
  cases s with
  | misra =>
    have hword : misra.word i.lang = id := rfl
    cases hbases : analyzeBases t i o <;> simp [analyze, hbases, hword, Except.map]
  | autosar => rfl

end RuleSet

/-- A rule that is selected, with its options. -/
structure Choice where
  set : RuleSet
  options : RuleOptions

/-- What the runner receives from a selected rule. -/
def Choice.arrival (c : Choice) (t : FileTree) (i : AnalysisInput) : Arrival where
  id := 0
  rule := c.set.title
  severity := c.options.severity.getD ""
  outcome :=
    match c.set.analyze t i c.options with
    | .ok rs => .found rs
    | .error e => .failed e.message

/-- The results of the selected rules, tagged and joined. -/
def joinedResults (t : FileTree) (i : AnalysisInput) (cs : List Choice) : Results :=
  cs.flatMap fun c => (c.arrival t i).results

/-- The final list of results for the selected rules. -/
def selectedResults (t : FileTree) (i : AnalysisInput) (cs : List Choice) : Results :=
  finalResults (joinedResults t i cs)

namespace Finding

/-- The result stands for the finding in the final list, as an entry of the rule. -/
structure IsEntry (lang : Language) (srcDir : String) (s : RuleSet) (f : Finding) (r : Result) : Prop where
  reported : f.IsReportedAs srcDir r
  ruleset : r.ruleset = Bytes.ofString s.name
  message : r.message = Bytes.ofString s.tagText ++ Bytes.ofString (s.say lang f)

variable {lang : Language} {srcDir : String} {s s' : RuleSet} {f g : Finding} {r r' : Result}

theorem IsEntry.hasVerdict (h : f.IsEntry lang srcDir s r) : r.HasVerdict := by
  rw [Result.HasVerdict, h.reported.verdict]
  split
  · exact .inr rfl
  · exact .inl rfl

theorem IsEntry.nonCompliant_iff (h : f.IsEntry lang srcDir s r) :
    r.verdict = Result.nonCompliantText ↔ f.verdict = .nonCompliant := by
  rw [h.reported.verdict]
  split
  · exact iff_of_true rfl ‹_›
  · exact iff_of_false Result.compliantText_ne_nonCompliantText ‹_›

/-- Entries of one rule for the same use have the same key, if they name the same base. -/
theorem IsEntry.key_eq (h : f.IsEntry lang srcDir s r) (h' : g.IsEntry lang srcDir s' r') (huse : r.SameUse r')
    (hset : r.ruleset = r'.ruleset) (hbase : r.baseClass = r'.baseClass) : r.key = r'.key := by
  rw [h.ruleset, h'.ruleset, Bytes.ofString_inj, RuleSet.name_inj] at hset
  subst hset
  have hname := huse.name
  rw [h.reported.name, h'.reported.name, Bytes.ofString_inj] at hname
  have hbad : f.verdict = .nonCompliant ↔ g.verdict = .nonCompliant := by
    rw [← h.nonCompliant_iff, ← h'.nonCompliant_iff, huse.verdict]
  have hsay : s.say lang f = s.say lang g := by
    by_cases hf : f.verdict = .nonCompliant
    · have hg := hbad.mp hf
      rw [h.reported.baseClass, h'.reported.baseClass, if_pos hf, if_pos hg, Bytes.ofString_inj] at hbase
      simp only [RuleSet.say, hf, hg, if_true, hname, hbase]
    · have hg : ¬ g.verdict = .nonCompliant := fun hg => hf (hbad.mpr hg)
      simp only [RuleSet.say, hf, hg, if_false, hname]
  simp only [Result.key, huse.path, huse.line, huse.column, h.message, h'.message, hsay]

end Finding

namespace RuleSet

variable {s : RuleSet} {f g : Finding} {lang : Language} {srcDir : String}

theorem word_eq (s : RuleSet) (lang : Language) (r : Result) :
    s.word lang r = { r with message := (s.word lang r).message } := by
  cases s with
  | misra => rfl
  | autosar => exact r.autosarWording_eq lang

theorem word_message (s : RuleSet) (f : Finding) (lang : Language) (srcDir : String) :
    (s.word lang (f.result lang srcDir)).message = Bytes.ofString (s.say lang f) := by
  cases s with
  | misra => exact f.result_message lang srcDir
  | autosar => exact f.autosarWording_message lang srcDir

theorem key_eq_of_word_key_eq
    (h : (s.word lang (f.result lang srcDir)).key = (s.word lang (g.result lang srcDir)).key) :
    (f.result lang srcDir).key = (g.result lang srcDir).key := by
  cases s with
  | misra => exact h
  | autosar => exact Finding.key_eq_of_autosarWording_key_eq h

end RuleSet

variable {t : FileTree} {i : AnalysisInput} {cs : List Choice} {r : Result}

/-- What becomes of a result of the analysis under a selected rule. -/
def Choice.entry (c : Choice) (t : FileTree) (i : AnalysisInput) (x : Result) : Result :=
  (c.arrival t i).report (c.set.word i.lang x)

theorem Choice.entry_eq (c : Choice) (t : FileTree) (i : AnalysisInput) (x : Result) : ∃ n : Int32,
    c.entry t i x = { x with
      message := Bytes.ofString c.set.tagText ++ (c.set.word i.lang x).message
      ruleset := Bytes.ofString c.set.name
      ruleId := Bytes.ofString c.set.rule
      severity := n } := by
  obtain ⟨n, hn⟩ : ∃ n, c.entry t i x = { (c.set.word i.lang x).tag c.set.title with severity := n } := ⟨_, rfl⟩
  refine ⟨n, ?_⟩
  rw [hn, RuleSet.tag_title, c.set.word_eq i.lang x]

theorem Choice.isEntry_entry (c : Choice) (t : FileTree) (i : AnalysisInput) (f : Finding) :
    f.IsEntry i.lang i.srcDir c.set (c.entry t i (f.result i.lang i.srcDir)) := by
  obtain ⟨n, hentry⟩ := c.entry_eq t i (f.result i.lang i.srcDir)
  obtain ⟨hpath, hline, hcolumn, hname, hbase, hverdict, hid⟩ := f.isReportedAs_result i.lang i.srcDir
  rw [hentry, RuleSet.word_message]
  exact ⟨⟨hpath, hline, hcolumn, hname, hbase, hverdict, hid⟩, rfl, rfl⟩

theorem mem_joinedResults : r ∈ joinedResults t i cs ↔
    ∃ c ∈ cs, ∃ rs, analyzeBases t i c.options = .ok rs ∧ ∃ x ∈ rs, c.entry t i x = r := by
  have hreported (c : Choice) : r ∈ (c.arrival t i).results ↔
      ∃ rs, analyzeBases t i c.options = .ok rs ∧ ∃ x ∈ rs, c.entry t i x = r := by
    rw [Arrival.results_eq, Arrival.reported]
    cases hbases : analyzeBases t i c.options with
    | error e =>
      have houtcome : (c.arrival t i).outcome = .failed e.message := by
        simp [Choice.arrival, RuleSet.analyze_eq, hbases, Except.map]
      simp [houtcome]
    | ok rs =>
      have houtcome : (c.arrival t i).outcome = .found (rs.map (c.set.word i.lang)) := by
        simp [Choice.arrival, RuleSet.analyze_eq, hbases, Except.map]
      simp [houtcome, Choice.entry]
  simp only [joinedResults, List.mem_flatMap, hreported]

theorem exists_isEntry (hr : r ∈ joinedResults t i cs) : ∃ s f, Finding.IsEntry i.lang i.srcDir s f r := by
  obtain ⟨c, -, rs, hrs, x, hx, rfl⟩ := mem_joinedResults.mp hr
  obtain ⟨all, hperm, rfl⟩ := analyzeBases_eq_ok hrs
  obtain ⟨f, rfl⟩ := exists_result_eq_of_perm hperm x hx
  exact ⟨c.set, f, c.isEntry_entry t i f⟩

/-! ### The final list -/

theorem Uuid.ofName_ne_empty (space name : Bytes) : ofName space name ≠ "" := by
  intro h
  have hchars := congrArg String.toList h
  simp [ofName, text] at hchars

theorem Results.identified_eq_self {rs : Results} (h : ∀ r ∈ rs, r.id ≠ []) : rs.identified = rs := by
  refine (List.map_congr_left fun r hr => ?_).trans (List.map_id rs)
  rw [if_neg (h r hr), id]

/-- Every result has its identity before the final list is made. -/
theorem selectedResults_eq (t : FileTree) (i : AnalysisInput) (cs : List Choice) :
    selectedResults t i cs = (joinedResults t i cs).unique.sorted := by
  refine Results.identified_eq_self fun r hr => ?_
  have hmem := List.mem_of_find?_eq_some (Results.mem_unique.mp ((Results.sorted_perm _).mem_iff.mp hr))
  obtain ⟨s, f, hentry⟩ := exists_isEntry hmem
  rw [hentry.reported.id]
  intro hempty
  exact Uuid.ofName_ne_empty _ _ (Bytes.ofString_injective hempty)

theorem mem_joinedResults_of_mem (hr : r ∈ selectedResults t i cs) : r ∈ joinedResults t i cs := by
  rw [selectedResults_eq] at hr
  exact List.mem_of_find?_eq_some (Results.mem_unique.mp ((Results.sorted_perm _).mem_iff.mp hr))

theorem selectedResults_distinct (t : FileTree) (i : AnalysisInput) (cs : List Choice) :
    (selectedResults t i cs).Distinct := by
  rw [selectedResults_eq]
  exact (Results.sorted_increasing (Results.unique_distinct _)).distinct

/-- If no rule is selected twice, then nothing is dropped from the final list. -/
theorem mem_selectedResults (hsets : (cs.map Choice.set).Nodup) :
    r ∈ selectedResults t i cs ↔ r ∈ joinedResults t i cs := by
  rw [selectedResults_eq, (Results.sorted_perm _).mem_iff]
  refine Results.mem_unique_of_key fun a ha b hb hkey => ?_
  obtain ⟨c, hc, rs, hrs, x, hx, rfl⟩ := mem_joinedResults.mp ha
  obtain ⟨c', hc', rs', hrs', x', hx', rfl⟩ := mem_joinedResults.mp hb
  obtain ⟨n, hentry⟩ := c.entry_eq t i x
  obtain ⟨n', hentry'⟩ := c'.entry_eq t i x'
  rw [hentry, hentry'] at hkey
  obtain ⟨hpath, hline, hcolumn, hmessage⟩ := Result.Key.mk.inj hkey
  obtain ⟨hset, hmessage⟩ := RuleSet.eq_of_tagText_append hmessage
  obtain rfl : c = c' := List.inj_on_of_nodup_map hsets hc hc' hset
  obtain rfl : rs = rs' := Except.ok.inj (hrs.symm.trans hrs')
  obtain ⟨all, hperm, rfl⟩ := analyzeBases_eq_ok hrs
  obtain ⟨f, rfl⟩ := exists_result_eq_of_perm hperm x hx
  obtain ⟨g, rfl⟩ := exists_result_eq_of_perm hperm x' hx'
  have hword : (c.set.word i.lang (f.result i.lang i.srcDir)).key =
      (c.set.word i.lang (g.result i.lang i.srcDir)).key := by
    rw [RuleSet.word_eq, c.set.word_eq i.lang (g.result i.lang i.srcDir)]
    simp only [Result.key, Result.Key.mk.injEq]
    exact ⟨hpath, hline, hcolumn, hmessage⟩
  have hdistinct := (Results.sorted_increasing (Results.unique_distinct all)).distinct
  rw [List.inj_on_of_nodup_map hdistinct hx hx' (RuleSet.key_eq_of_word_key_eq hword)]

/-- With both rules selected under the same options, each entry has a counterpart of the other rule with the same
identity. -/
theorem exists_counterpart (hsets : (cs.map Choice.set).Nodup) {o : RuleOptions} (hmisra : ⟨.misra, o⟩ ∈ cs)
    (hautosar : ⟨.autosar, o⟩ ∈ cs) (hr : r ∈ selectedResults t i cs) :
    ∃ r' ∈ selectedResults t i cs, r ≠ r' ∧ r.id = r'.id := by
  obtain ⟨c, hc, rs, hrs, x, hx, rfl⟩ := mem_joinedResults.mp (mem_joinedResults_of_mem hr)
  obtain ⟨c', hc', hoptions, hset⟩ : ∃ c' ∈ cs, c'.options = c.options ∧ c'.set ≠ c.set := by
    cases hset : c.set with
    | misra =>
      obtain rfl : c = ⟨.misra, o⟩ := List.inj_on_of_nodup_map hsets hc hmisra hset
      exact ⟨_, hautosar, rfl, nofun⟩
    | autosar =>
      obtain rfl : c = ⟨.autosar, o⟩ := List.inj_on_of_nodup_map hsets hc hautosar hset
      exact ⟨_, hmisra, rfl, nofun⟩
  have hmem : c'.entry t i x ∈ joinedResults t i cs :=
    mem_joinedResults.mpr ⟨c', hc', rs, hoptions ▸ hrs, x, hx, rfl⟩
  obtain ⟨n, hentry⟩ := c.entry_eq t i x
  obtain ⟨n', hentry'⟩ := c'.entry_eq t i x
  refine ⟨_, (mem_selectedResults hsets).mpr hmem, fun heq => ?_, ?_⟩
  · rw [hentry, hentry'] at heq
    have hname := congrArg Result.ruleset heq
    exact hset (RuleSet.name_inj.mp (Bytes.ofString_injective hname)).symm
  · rw [hentry, hentry']

/-- The keys that occur have different digests. -/
def CollisionFree (rs : Results) : Prop :=
  ∀ r ∈ rs, ∀ s ∈ rs, Uuid.ofName Uuid.oidSpace (Finding.resultKey r) =
    Uuid.ofName Uuid.oidSpace (Finding.resultKey s) → Finding.resultKey r = Finding.resultKey s

/-- **Which entries of a final list share an identity.** As long as no two keys have the same digest, two
entries have the same identity exactly if they have the same key. Entries that report the same use do; they
are entries of different rules, or name different bases. Without zero bytes in paths and names there are no
others. If both rules are selected under the same options, then no identity occurs only once. -/
theorem selectedResults_id_eq_iff (t : FileTree) (i : AnalysisInput) (cs : List Choice)
    (hfree : CollisionFree (selectedResults t i cs)) :
    (∀ r ∈ selectedResults t i cs, ∀ s ∈ selectedResults t i cs, r ≠ s →
      (r.id = s.id ↔ Finding.resultKey r = Finding.resultKey s) ∧
      (r.SameUse s → r.id = s.id ∧ (r.ruleset ≠ s.ruleset ∨ r.baseClass ≠ s.baseClass)) ∧
      (r.ZeroFree → s.ZeroFree → (r.id = s.id ↔ r.SameUse s))) ∧
    ((cs.map Choice.set).Nodup → ∀ o, ⟨.misra, o⟩ ∈ cs → ⟨.autosar, o⟩ ∈ cs →
      ∀ r ∈ selectedResults t i cs, ∃ s ∈ selectedResults t i cs, r ≠ s ∧ r.id = s.id) := by
  refine ⟨fun r hr s hs hne => ?_, fun hsets o hmisra hautosar r hr => ?_⟩
  · obtain ⟨set, f, hf⟩ := exists_isEntry (mem_joinedResults_of_mem hr)
    obtain ⟨set', g, hg⟩ := exists_isEntry (mem_joinedResults_of_mem hs)
    have hkey : r.id = s.id ↔ Finding.resultKey r = Finding.resultKey s := by
      rw [hf.reported.id, hg.reported.id, Bytes.ofString_inj]
      exact ⟨hfree r hr s hs, congrArg _⟩
    refine ⟨hkey, fun huse => ⟨hkey.mpr huse.resultKey_eq, ?_⟩, fun hzr hzs => ?_⟩
    · -- Otherwise their keys in the list agree, and the list holds each of them once.
      by_contra hsame
      simp only [not_or, not_not] at hsame
      exact hne (List.inj_on_of_nodup_map (selectedResults_distinct t i cs) hr hs
        (hf.key_eq hg huse hsame.1 hsame.2))
    · rw [hkey]
      exact ⟨Result.sameUse_of_resultKey_eq hzr hzs hf.hasVerdict hg.hasVerdict, Result.SameUse.resultKey_eq⟩
  · exact exists_counterpart hsets hmisra hautosar hr

/-- A dump in which a class uses a member of its dependent base, as both rules report it. -/
theorem selectedResults_id_eq_iff_sample :
    let t : FileTree := { here := [], entries := (sampleTree "B<T>").entries.take 1 }
    let i : AnalysisInput := { srcDir := "/src", dumpDir := "/", lang := .english }
    let o : RuleOptions := { follow := some false }
    let final := selectedResults t i [⟨.misra, o⟩, ⟨.autosar, o⟩]
    CollisionFree final ∧ ∃ r ∈ final, ∃ s ∈ final, r ≠ s ∧ r.id = s.id := by
  intro t i o final
  have hlength : (checkDumps t o i.lang i.srcDir (t.dumps i.dumpDir)).length = 1 := by decide +kernel
  obtain ⟨x, hx⟩ := List.length_eq_one_iff.mp hlength
  have hbases : analyzeBases t i o = .ok [x] := by
    have hstat : t.stat i.dumpDir = .ok .directory := by decide +kernel
    rw [analyzeBases, hstat, hx]
  have hfinal : ∀ r ∈ final, Finding.resultKey r = Finding.resultKey x := by
    intro r hr
    obtain ⟨c, hc, rs, hrs, y, hy, rfl⟩ := mem_joinedResults.mp (mem_joinedResults_of_mem hr)
    have hoptions : c.options = o := by
      simp only [List.mem_cons, List.not_mem_nil, or_false] at hc
      rcases hc with rfl | rfl <;> rfl
    rw [hoptions, hbases] at hrs
    cases hrs
    obtain ⟨n, hentry⟩ := c.entry_eq t i y
    rw [hentry, List.mem_singleton.mp hy]
    rfl
  have hfree : CollisionFree final := fun r hr s hs _ => (hfinal r hr).trans (hfinal s hs).symm
  have hsets : ([⟨.misra, o⟩, ⟨.autosar, o⟩].map Choice.set).Nodup := by
    simp
  have hmem : Choice.entry ⟨.misra, o⟩ t i x ∈ final :=
    (mem_selectedResults hsets).mpr
      (mem_joinedResults.mpr ⟨_, List.mem_cons_self, [x], hbases, x, List.mem_cons_self, rfl⟩)
  obtain ⟨-, htwins⟩ := selectedResults_id_eq_iff t i [⟨.misra, o⟩, ⟨.autosar, o⟩] hfree
  exact ⟨hfree, _, hmem, htwins hsets o (by simp) (by simp) _ hmem⟩

end TwoPhase
