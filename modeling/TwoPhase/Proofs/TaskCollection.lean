import TwoPhase.TaskRun

/-!
# Collecting the outcomes of tasks

`Collection.Collects` says what a list of outcomes comes to, without the collector's steps: the results in the order
of the outcomes, and the error of each task in its place. `TaskRun.Tracks` says how much of what has reached the
collector it has taken up: everything, or everything but the outcome at which it noticed an interrupt.
-/

namespace TwoPhase

/-! ## Collecting -/

/-- A result as its task reports it: tagged with the rule, and of the lowest severity if it documents a
compliant use. -/
def Arrival.report (a : Arrival) (r : Result) : Result :=
  { r.tag a.rule with
    severity := (if r.verdict = Result.compliantText then .lowest
      else Severity.forRule a.rule a.severity : Severity).toInt32 }

theorem Result.tag_verdict (rule : String) (r : Result) : (r.tag rule).verdict = r.verdict := by
  unfold Result.tag
  split <;> rfl

/-- What a task reports: the results that it has found, if it has come to its end without an error. -/
def Arrival.reported (a : Arrival) : Results :=
  match a.outcome with
  | .found rs => rs.map a.report
  | .crashed | .failed _ | .nothing => []

theorem Arrival.results_eq (a : Arrival) : a.results = a.reported := by
  unfold Arrival.results Arrival.reported
  cases a.outcome with
  | found rs => simp [Results.addSeverity, Arrival.report, Result.tag_verdict]
  | _ => rfl

namespace Collection

/-- What has been collected is what the outcomes `as` come to: the reported results in order, and in the place
of each task its error, if the task is among them and has one. -/
structure Collects (total : Nat) (as : List Arrival) (c : Collection) : Prop where
  results : c.results = as.flatMap Arrival.reported
  length : c.errors.length = total
  error_of : ∀ a ∈ as, c.errors[a.id.toNat]? = some a.outcome.error?
  crash_of : ∀ a ∈ as, a.outcome = .crashed → c.errors[a.id.toNat]? = some (some "panic in analyze rule")
  none_of : ∀ i < total, (∀ a ∈ as, a.id ≠ i) → c.errors[i]? = some none

variable {total : Nat} {as : List Arrival} {c : Collection}

theorem Collects.intro (hresults : c.results = as.flatMap Arrival.results) (hlength : c.errors.length = total)
    (herror : ∀ a ∈ as, c.errors[a.id.toNat]? = some a.outcome.error?)
    (hnone : ∀ i < total, (∀ a ∈ as, a.id ≠ i) → c.errors[i]? = some none) : Collects total as c where
  results := by rw [hresults, funext Arrival.results_eq]
  length := hlength
  error_of := herror
  crash_of a ha hcrashed := by
    rw [herror a ha, hcrashed]
    rfl
  none_of := hnone

theorem collects_ofSize (total : Nat) : Collects total [] (ofSize total) :=
  .intro rfl List.length_replicate (fun _ ha => nomatch ha) fun i hi _ => by simp [ofSize, hi]

/-- One more outcome of a task that has not been heard of. -/
theorem Collects.add (h : Collects total as c) {a : Arrival} (hnonneg : 0 ≤ a.id) (hlt : a.id < total)
    (hnew : ∀ b ∈ as, b.id ≠ a.id) (hrange : ∀ b ∈ as, 0 ≤ b.id) : Collects total (as ++ [a]) (c.add a) := by
  have herrors : (c.add a).errors = c.errors.set a.id.toNat a.outcome.error? := if_neg (by omega)
  refine .intro ?_ ?_ ?_ ?_
  · rw [funext Arrival.results_eq, List.flatMap_append, List.flatMap_singleton, ← h.results,
      ← Arrival.results_eq]
    rfl
  · rw [herrors, List.length_set, h.length]
  · intro b hb
    rw [herrors]
    rcases List.mem_append.mp hb with hb | hb
    · have hne : a.id.toNat ≠ b.id.toNat := by
        have := hnew b hb
        have := hrange b hb
        omega
      rw [List.getElem?_set_ne hne, h.error_of b hb]
    · cases List.mem_singleton.mp hb
      have hplace : a.id.toNat < c.errors.length := by
        rw [h.length]
        omega
      rw [List.getElem?_set_self hplace]
  · intro i hi hnone
    have hne : a.id.toNat ≠ i := by
      have := hnone a (List.mem_append_right _ List.mem_cons_self)
      omega
    rw [herrors, List.getElem?_set_ne hne]
    exact h.none_of i hi fun b hb => hnone b (List.mem_append_left _ hb)

/-- **The collection after any outcomes of different tasks.** -/
theorem collects_foldl (hdistinct : (as.map (·.id)).Nodup) (hrange : ∀ a ∈ as, 0 ≤ a.id ∧ a.id < total) :
    Collects total as (as.foldl Collection.add (ofSize total)) := by
  have hrun : ∀ before after c, as = before ++ after → Collects total before c →
      Collects total as (after.foldl Collection.add c) := by
    intro before after
    induction after generalizing before with
    | nil =>
      rintro c has h
      rwa [has, List.append_nil]
    | cons a after ih =>
      intro c has h
      have hmem : ∀ b ∈ before, b ∈ as := fun b hb => has ▸ List.mem_append_left _ hb
      have hrangea := hrange a (has ▸ List.mem_append_right _ List.mem_cons_self)
      refine ih (before ++ [a]) (c.add a) (by rw [has, List.append_assoc, List.singleton_append]) ?_
      refine h.add hrangea.1 hrangea.2 (fun b hb hid => ?_) fun b hb => (hrange b (hmem b hb)).1
      rw [has, List.map_append, List.map_cons] at hdistinct
      exact (List.nodup_append.mp hdistinct).2.2 b.id (List.mem_map_of_mem hb) a.id List.mem_cons_self hid
  exact hrun [] as (ofSize total) rfl (collects_ofSize total)

theorem ofArrivals_append_of_le {arrived : List Arrival} {k : Nat} (hk : k ≤ arrived.length) (a : Arrival) :
    ofArrivals total (arrived ++ [a]) (some k) = ofArrivals total arrived (some k) := by
  simp only [ofArrivals, List.take_append_of_le_length hk]

theorem ofArrivals_append_length (arrived : List Arrival) (a : Arrival) :
    ofArrivals total (arrived ++ [a]) (some (arrived ++ [a]).length) =
      (ofArrivals total arrived (some arrived.length)).add a := by
  simp only [ofArrivals, List.take_length, List.foldl_append, List.foldl_cons, List.foldl_nil]

/-- The order of the outcomes has no part in the errors, and none in the results but their order. -/
theorem Collects.perm (h : Collects total as c) {bs : List Arrival} {d : Collection}
    (h' : Collects total bs d) (hperm : as.Perm bs) :
    c.errors = d.errors ∧ c.results.Perm d.results := by
  refine ⟨List.ext_getElem? fun i => ?_, ?_⟩
  · by_cases hi : i < total
    · by_cases hsome : ∃ a ∈ as, a.id = i
      · obtain ⟨a, ha, hid⟩ := hsome
        have hplace : a.id.toNat = i := by omega
        rw [← hplace, h.error_of a ha, h'.error_of a (hperm.mem_iff.mp ha)]
      · have hnone : ∀ a ∈ as, a.id ≠ i := fun a ha hid => hsome ⟨a, ha, hid⟩
        rw [h.none_of i hi hnone, h'.none_of i hi fun b hb => hnone b (hperm.mem_iff.mpr hb)]
    · rw [List.getElem?_eq_none (by rw [h.length]; omega), List.getElem?_eq_none (by rw [h'.length]; omega)]
  · rw [h.results, h'.results]
    exact hperm.flatMap_right Arrival.reported

end Collection

/-! ## One collector -/

namespace TaskRun

variable (w : Workspace) (r : TaskRun)

@[simp] theorem begin_run (rule : String) : (r.begin w rule).2 = { r with started := r.started + 1 } := by
  cases hprogress : r.display.progress <;> simp [TaskRun.begin, hprogress]

@[simp] theorem finish_run (a : Arrival) : (r.finish w a).2 = { r with finished := r.finished + 1 } := by
  cases hprogress : r.display.progress with
  | false => simp [TaskRun.finish, hprogress]
  | true => cases houtcome : a.outcome <;> simp [TaskRun.finish, hprogress, houtcome]

@[simp] theorem start_run (d : TaskDisplay) (total : Nat) (workers processors : Int) :
    (TaskRun.start w d total workers processors).2 =
      { display := d, total, collected := Collection.ofSize total } := by
  by_cases hopen : workers = 0 ∧ d.progress <;> simp [TaskRun.start, hopen]

theorem deliver_of_none (h : r.interrupt = .none) (a : Arrival) :
    (r.deliver w a).2 = { r with collected := r.collected.add a } := by
  rw [TaskRun.deliver, h]

theorem deliver_of_pending (h : r.interrupt = .pending) (a : Arrival) :
    (r.deliver w a).2 = { r with interrupt := .noticed } := by
  rw [TaskRun.deliver, h]

theorem isStopping_begin (rule : String) : (r.begin w rule).2.isStopping = r.isStopping := by
  rw [begin_run]
  rfl

theorem isStopping_finish (a : Arrival) : (r.finish w a).2.isStopping = r.isStopping := by
  rw [finish_run]
  rfl

theorem isStopping_requestStop : r.requestStop.isStopping = r.isStopping := by
  unfold TaskRun.requestStop TaskRun.isStopping
  split
  next hnone => rw [hnone]; rfl
  next => rfl

/-- Of the outcomes that have reached the collector the run has collected the first `k`: all of them, or all but the
one at which the collector has noticed an interrupt. -/
structure Tracks (total : Nat) (arrived : List Arrival) (k : Nat) (r : TaskRun) : Prop where
  length_eq : arrived.length = if r.isStopping then k + 1 else k
  collected : r.collected = Collection.ofArrivals total arrived (some k)

variable {w r} {total k : Nat} {arrived : List Arrival}

theorem Tracks.congr (h : Tracks total arrived k r) {r' : TaskRun} (hcollected : r'.collected = r.collected)
    (hstopping : r'.isStopping = r.isStopping) : Tracks total arrived k r' :=
  ⟨by rw [hstopping, h.length_eq], hcollected.trans h.collected⟩

theorem Tracks.requestStop (h : Tracks total arrived k r) : Tracks total arrived k r.requestStop := by
  refine h.congr ?_ r.isStopping_requestStop
  unfold TaskRun.requestStop
  split <;> rfl

theorem Tracks.deliver_of_none (h : Tracks total arrived k r) (hr : r.interrupt = .none) (a : Arrival) :
    Tracks total (arrived ++ [a]) (arrived ++ [a]).length (r.deliver w a).2 := by
  have hk : arrived.length = k := by simpa [TaskRun.isStopping, hr] using h.length_eq
  rw [TaskRun.deliver_of_none w r hr]
  refine ⟨by simp [TaskRun.isStopping, hr], ?_⟩
  rw [Collection.ofArrivals_append_length, hk, ← h.collected]

theorem Tracks.deliver_of_pending (h : Tracks total arrived k r) (hr : r.interrupt = .pending) (a : Arrival) :
    Tracks total (arrived ++ [a]) k (r.deliver w a).2 := by
  have hk : arrived.length = k := by simpa [TaskRun.isStopping, hr] using h.length_eq
  rw [TaskRun.deliver_of_pending w r hr]
  refine ⟨by simp [TaskRun.isStopping, hk], ?_⟩
  rw [Collection.ofArrivals_append_of_le (Nat.le_of_eq hk.symm)]
  exact h.collected

/-- As long as the collector is there it tracks what arrives. -/
theorem Tracks.deliver (h : Tracks total arrived k r) (hgoing : r.isStopping = false) (a : Arrival) :
    ∃ k', Tracks total (arrived ++ [a]) k' (r.deliver w a).2 := by
  cases hr : r.interrupt with
  | none => exact ⟨_, h.deliver_of_none hr a⟩
  | pending => exact ⟨k, h.deliver_of_pending hr a⟩
  | noticed => simp [TaskRun.isStopping, hr] at hgoing

theorem Tracks.finish (h : Tracks total arrived k r) (a : Arrival) : Tracks total arrived k (r.finish w a).2 :=
  h.congr (by rw [finish_run]) (r.isStopping_finish w a)

theorem Tracks.complete_of_none (h : Tracks total arrived k r) (hr : r.interrupt = .none) (a : Arrival) :
    Tracks total (arrived ++ [a]) (arrived ++ [a]).length (r.complete w a).2 ∧
      (r.complete w a).2.interrupt = .none := by
  have hr' : (r.finish w a).2.interrupt = .none := by rw [finish_run, hr]
  refine ⟨(h.finish a).deliver_of_none hr' a, ?_⟩
  change ((r.finish w a).2.deliver (r.finish w a).1 a).2.interrupt = .none
  rw [TaskRun.deliver_of_none _ _ hr', hr']

theorem Tracks.complete_of_pending (h : Tracks total arrived k r) (hr : r.interrupt = .pending) (a : Arrival) :
    Tracks total (arrived ++ [a]) k (r.complete w a).2 ∧ (r.complete w a).2.isStopping = true := by
  have hr' : (r.finish w a).2.interrupt = .pending := by rw [finish_run, hr]
  refine ⟨(h.finish a).deliver_of_pending hr' a, ?_⟩
  change ((r.finish w a).2.deliver (r.finish w a).1 a).2.isStopping = true
  rw [TaskRun.deliver_of_pending _ _ hr']
  rfl

theorem Tracks.collects (h : Tracks total arrived k r) (hdistinct : (arrived.map (·.id)).Nodup)
    (hrange : ∀ a ∈ arrived, 0 ≤ a.id ∧ a.id < total) :
    Collection.Collects total (arrived.take k) r.collected := by
  have hsub : (arrived.take k).Sublist arrived := List.take_sublist k arrived
  rw [h.collected]
  exact Collection.collects_foldl (hdistinct.sublist (hsub.map _)) fun a ha => hrange a (hsub.mem ha)

theorem tracks_start (w : Workspace) (d : TaskDisplay) (total : Nat) (workers processors : Int) :
    Tracks total [] 0 (TaskRun.start w d total workers processors).2 :=
  ⟨by simp [TaskRun.isStopping], by simp [Collection.ofArrivals]⟩

end TaskRun

end TwoPhase
