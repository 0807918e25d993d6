import TwoPhase.Proofs.ReportContent
import Mathlib.Logic.Relation

/-!
# Workers side by side

Each dump is judged by a worker of its own, and the workers append what they have found in any order.
Nothing of the outcome depends on that order: along a run, what has been appended and what the pending dumps
will add make up the findings of all dumps together.
-/

namespace TwoPhase

/-- A check that is under way: the dumps that are still pending, and the results and log entries that have
been appended. -/
structure Gathering where
  pending : List String
  results : Results := []
  entries : List String := []

namespace Gathering

variable (t : FileTree) (o : RuleOptions) (lang : Language) (srcDir : String)

/-- One of the workers is done. A dump that cannot be read contributes nothing. -/
inductive Step : Gathering → Gathering → Prop
  | judged : t.loadDump d = .ok u →
    Step ⟨before ++ d :: after, rs, es⟩
      ⟨before ++ after, rs ++ checkUnit o lang srcDir u, es ++ unitLog o srcDir u⟩
  | unreadable : t.loadDump d = .error e →
    Step ⟨before ++ d :: after, rs, es⟩ ⟨before ++ after, rs, es⟩

abbrev Run : Gathering → Gathering → Prop :=
  Relation.ReflTransGen (Step t o lang srcDir)

/-- What has been appended and what is pending make up what `dumps` have to say. -/
structure Accounts (dumps : List String) (g : Gathering) : Prop where
  results : (g.results ++ (t.units g.pending).flatMap (checkUnit o lang srcDir)).Perm
    ((t.units dumps).flatMap (checkUnit o lang srcDir))
  entries : (g.entries ++ (t.units g.pending).flatMap (unitLog o srcDir)).Perm
    ((t.units dumps).flatMap (unitLog o srcDir))

variable {t o lang srcDir} {g g' : Gathering}

theorem append_middle_perm (a b c d : List α) :
    ((a ++ b) ++ (c ++ d)).Perm (a ++ (c ++ (b ++ d))) := by
  rw [List.append_assoc]
  exact List.perm_append_comm_assoc b c d |>.append_left a

theorem Step.accounts (h : Step t o lang srcDir g g') (H : Accounts t o lang srcDir dumps g) :
    Accounts t o lang srcDir dumps g' := by
  cases h with
  | @judged d u before after rs es hload =>
    have hunits : t.units (before ++ d :: after) = t.units before ++ u :: t.units after := by
      simp [FileTree.units, hload]
    have hrest : t.units (before ++ after) = t.units before ++ t.units after := by
      simp [FileTree.units]
    obtain ⟨hresults, hentries⟩ := H
    simp only [hunits, List.flatMap_append, List.flatMap_cons] at hresults hentries
    constructor
    · simp only [hrest, List.flatMap_append]
      exact (append_middle_perm _ _ _ _).trans hresults
    · simp only [hrest, List.flatMap_append]
      exact (append_middle_perm _ _ _ _).trans hentries
  | @unreadable d e before after rs es hload =>
    have hunits : t.units (before ++ d :: after) = t.units (before ++ after) := by
      simp [FileTree.units, hload]
    exact ⟨hunits ▸ H.results, hunits ▸ H.entries⟩

theorem Run.accounts (h : Run t o lang srcDir g g') (H : Accounts t o lang srcDir dumps g) :
    Accounts t o lang srcDir dumps g' := by
  induction h with
  | refl => exact H
  | tail _ hstep ih => exact hstep.accounts ih

theorem accounts_start (dumps : List String) :
    Accounts t o lang srcDir dumps { pending := dumps } :=
  ⟨.rfl, .rfl⟩

/-- When no dump is pending, the findings of all dumps have been appended. -/
theorem Run.results_perm (h : Run t o lang srcDir { pending := dumps } g) (hdone : g.pending = []) :
    g.results.Perm ((t.units dumps).flatMap (checkUnit o lang srcDir)) := by
  simpa [hdone, FileTree.units] using (h.accounts (accounts_start dumps)).results

theorem Run.entries_perm (h : Run t o lang srcDir { pending := dumps } g) (hdone : g.pending = []) :
    g.entries.Perm ((t.units dumps).flatMap (unitLog o srcDir)) := by
  simpa [hdone, FileTree.units] using (h.accounts (accounts_start dumps)).entries

/-- The workers never wait for each other: a check can always be completed. -/
theorem exists_complete (g : Gathering) : ∃ g', Run t o lang srcDir g g' ∧ g'.pending = [] := by
  obtain ⟨pending, rs, es⟩ := g
  induction pending generalizing rs es with
  | nil => exact ⟨_, .refl, rfl⟩
  | cons d pending ih =>
    cases hload : t.loadDump d with
    | ok u =>
      have hstep : Step t o lang srcDir ⟨[] ++ d :: pending, rs, es⟩ _ := .judged hload
      obtain ⟨g', hrun, hdone⟩ := ih (rs ++ checkUnit o lang srcDir u) (es ++ unitLog o srcDir u)
      exact ⟨g', .head hstep hrun, hdone⟩
    | error e =>
      have hstep : Step t o lang srcDir ⟨[] ++ d :: pending, rs, es⟩ _ := .unreadable hload
      obtain ⟨g', hrun, hdone⟩ := ih rs es
      exact ⟨g', .head hstep hrun, hdone⟩

end Gathering

open Gathering in
/-- **The outcome of a check does not depend on the order in which the workers append their findings.** A check
can always be completed, and then gives the report on the dumps that can be read and the log of their
verdicts. The log consists of one entry for each use, which tells its finding, and has one line for each exactly
if no path and no base in it contains a line feed. -/
theorem checkDumps_any_order (t : FileTree) (o : RuleOptions) (lang : Language) (srcDir : String)
    (dumps : List String) (hnames : NamesOnOneLine (t.units dumps)) :
    (∀ g, Run t o lang srcDir { pending := dumps } g →
      ∃ g', Run t o lang srcDir g g' ∧ g'.pending = []) ∧
    (∀ g, Run t o lang srcDir { pending := dumps } g → g.pending = [] →
      g.results.unique.sorted = checkDumps t o lang srcDir dumps ∧
      g.entries.Perm ((t.units dumps).flatMap (unitLog o srcDir)) ∧
      logText g.entries = verdictLog o srcDir (t.units dumps)) ∧
    IsReport o lang srcDir (t.units dumps) (checkDumps t o lang srcDir dumps) ∧
    (∀ u ∈ t.units dumps, List.Forall₂ (fun x l =>
      ∃ f, (u.model.evaluator o.thePolicy o.follows).evaluate? x = some f ∧ l = f.logLine srcDir)
      u.model.uses (unitLog o srcDir u)) ∧
    ((t.units dumps).flatMap (unitLog o srcDir)).length = ((t.units dumps).flatMap (·.model.uses)).length ∧
    ((∀ u ∈ t.units dumps, ∀ f ∈ unitFindings o u, f.OnOneLine srcDir) →
      ∃ lines, HasLines (verdictLog o srcDir (t.units dumps)) lines ∧
        lines.Perm ((t.units dumps).flatMap (unitLog o srcDir)) ∧
        lines.length = ((t.units dumps).flatMap (·.model.uses)).length) ∧
    ((∃ lines, HasLines (verdictLog o srcDir (t.units dumps)) lines ∧
        lines.length = ((t.units dumps).flatMap (·.model.uses)).length) →
      ∀ u ∈ t.units dumps, ∀ f ∈ unitFindings o u, f.OnOneLine srcDir) := by
  have hreport : IsReport o lang srcDir (t.units dumps) (checkDumps t o lang srcDir dumps) := by
    refine isReport_of_perm hnames ?_
    rw [← List.flatMap_def]
  refine ⟨fun g _ => exists_complete g, fun g hrun hdone => ?_, hreport,
    fun u _ => unitLog_forall₂ o srcDir u, length_unitLog o srcDir (t.units dumps),
    verdictLog_lines o srcDir (t.units dumps)⟩
  have hresults := Run.results_perm hrun hdone
  have hentries := Run.entries_perm hrun hdone
  exact ⟨(isReport_of_perm hnames hresults).eq hreport, hentries, logText_perm hentries⟩

/-- A dump in which class `D` uses a member of its base, which is spelled as given, and a file that is no
dump. -/
def sampleTree (spelling : String) : FileTree where
  here := []
  entries := [
    (["a.scope.yaml"], .file (Bytes.ofString (String.intercalate "\n" [
      "file: a.cpp", "decls:",
      "- kind: class", "  name: B", "  members:", "  - kind: variable", "    name: x",
      "- kind: class", "  name: D", "  template: true", "  template_params: [T]", "  bases:",
      "  - type:", "      name: B", "      spelling: \"" ++ spelling ++ "\"", "  uses:",
      "  - name: x", "    loc:", "      line: 3"])) false),
    (["b.scope.yaml"], .file (Bytes.ofString "[") false)]

open Gathering in
theorem checkDumps_any_order_sample :
    NamesOnOneLine ((sampleTree "B<T>").units ["a.scope.yaml", "b.scope.yaml"]) ∧
    ∃ g, Run (sampleTree "B<T>") { follow := some false } .english "/src"
        { pending := ["a.scope.yaml", "b.scope.yaml"] } g ∧
      g.results.unique.sorted = checkDumps (sampleTree "B<T>") { follow := some false } .english "/src"
        ["a.scope.yaml", "b.scope.yaml"] := by
  have hnames : NamesOnOneLine
      ((sampleTree "B<T>").units ["a.scope.yaml", "b.scope.yaml"]) := by
    decide +kernel
  obtain ⟨hcomplete, horder, _⟩ := checkDumps_any_order (sampleTree "B<T>") { follow := some false }
    .english "/src" ["a.scope.yaml", "b.scope.yaml"] hnames
  obtain ⟨g, hrun, hdone⟩ := hcomplete _ .refl
  exact ⟨hnames, g, hrun, (horder g hrun hdone).1⟩

/-- A base that is spelled on two lines takes two lines of the log. -/
theorem verdictLog_base_on_two_lines :
    NamesOnOneLine ((sampleTree "B<\\nT>").units ["a.scope.yaml"]) ∧
    ¬ ∃ lines, HasLines (verdictLog { follow := some false } ""
        ((sampleTree "B<\\nT>").units ["a.scope.yaml"])) lines ∧
      lines.length = (((sampleTree "B<\\nT>").units ["a.scope.yaml"]).flatMap (·.model.uses)).length := by
  refine ⟨by decide +kernel, fun h => ?_⟩
  exact absurd ((verdictLog_lines _ _ _).2 h) (by decide +kernel)

end TwoPhase
