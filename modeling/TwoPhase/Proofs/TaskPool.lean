import TwoPhase.Proofs.TaskCollection
import Mathlib.Logic.Relation

/-!
# Tasks side by side

`TaskPool.Step` says what can happen next while tasks run on several workers. The caller hands tasks over through a
queue, workers take them from there and send their outcomes through a channel, and a collector receives them; queue
and channel have one place for each worker. The collector stops for good when it notices an interrupt. The caller
has two ways to end a run: it sees that the run is interrupted, and then receives what is still sent itself, or it
has handed over all tasks, and then waits for the collector alone. What is shown on the way plays no part: a worker
shows the end of its task after it has sent the outcome, and here at the same time.

Each task is in exactly one place at any time, and the collector has taken up what has reached it
(`TaskPool.Accounts`). Main statement: `TaskPool.collects_in_any_order`.
-/

namespace TwoPhase

/-- Where the caller of a run stands. -/
inductive Caller where
  /-- Between two calls. -/
  | free
  /-- Handing a task over, for which the queue needs a free place. -/
  | adding
  /-- Has seen that the run is interrupted, and receives what the workers still send. -/
  | leaving
  | left
  /-- Has handed over all tasks, and waits for the collector. -/
  | collecting
  | returned
  deriving DecidableEq

/-- How far the caller may still be from its end. -/
def Caller.rank : Caller → Nat
  | free => 3
  | adding => 2
  | leaving | collecting => 1
  | left | returned => 0

/-- Tasks under way, each with the outcome that it will have: those that have not been handed over, those that wait
for a worker, those at work, the outcomes on their way to the collector, those that have reached it, and those that
the caller has received in its place. -/
structure TaskPool where
  caller : Caller := .free
  waiting : List Arrival
  queued : List Arrival := []
  running : List Arrival := []
  sent : List Arrival := []
  arrived : List Arrival := []
  dropped : List Arrival := []
  space : Workspace
  run : TaskRun

namespace TaskPool

/-- A pool of `total` tasks that have not been handed over. -/
def start (w : Workspace) (d : TaskDisplay) (total : Nat) (workers processors : Int) (tasks : List Arrival) :
    TaskPool where
  waiting := tasks
  space := (TaskRun.start w d total workers processors).1
  run := (TaskRun.start w d total workers processors).2

/-- All tasks, each in its place. -/
def all (g : TaskPool) : List Arrival :=
  g.waiting ++ (g.queued ++ (g.running ++ (g.sent ++ (g.arrived ++ g.dropped))))

/-- The workers have come to their end, and nothing is on its way from them. -/
structure Cleared (g : TaskPool) : Prop where
  queued : g.queued = []
  running : g.running = []
  sent : g.sent = []

variable (crew : Nat)

/-- What can happen next if there are `crew` workers. A worker whose task crashes sends an outcome like any other. -/
inductive Step : TaskPool → TaskPool → Prop
  | offers {g : TaskPool} : g.caller = .free → g.waiting ≠ [] → Step g { g with caller := .adding }
  | adds {g : TaskPool} {a : Arrival} {waiting : List Arrival} :
    g.caller = .adding → g.waiting = a :: waiting → g.queued.length < crew →
    Step g { g with caller := .free, waiting, queued := g.queued ++ [a] }
  | begins {g : TaskPool} {a : Arrival} {queued : List Arrival} :
    g.queued = a :: queued → g.running.length < crew →
    Step g { g with
      queued, running := a :: g.running
      space := (g.run.begin g.space a.rule).1, run := (g.run.begin g.space a.rule).2 }
  | sends {g : TaskPool} {a : Arrival} {before after : List Arrival} :
    g.running = before ++ a :: after → g.sent.length < crew →
    Step g { g with
      running := before ++ after, sent := g.sent ++ [a]
      space := (g.run.finish g.space a).1, run := (g.run.finish g.space a).2 }
  -- a collector that has noticed an interrupt receives nothing
  | arrives {g : TaskPool} {a : Arrival} {sent : List Arrival} : g.run.isStopping = false → g.sent = a :: sent →
    Step g { g with
      sent, arrived := g.arrived ++ [a]
      space := (g.run.deliver g.space a).1, run := (g.run.deliver g.space a).2 }
  | leaves {g : TaskPool} : g.caller = .free → g.run.isStopping = true → Step g { g with caller := .leaving }
  | drains {g : TaskPool} {a : Arrival} {sent : List Arrival} : g.caller = .leaving → g.sent = a :: sent →
    Step g { g with sent, dropped := g.dropped ++ [a] }
  | isLeft {g : TaskPool} : g.caller = .leaving → g.Cleared → Step g { g with caller := .left }
  | closes {g : TaskPool} : g.caller = .free → g.waiting = [] → Step g { g with caller := .collecting }
  -- the collector ends at an interrupt, or when the workers have come to their end
  | returns {g : TaskPool} : g.caller = .collecting → g.run.isStopping = true ∨ g.Cleared →
    Step g { g with caller := .returned }

/-- A step, or an interrupt at any time. -/
inductive Event : TaskPool → TaskPool → Prop
  | step {g g' : TaskPool} : Step crew g g' → Event g g'
  | interrupted {g : TaskPool} : Event g { g with run := g.run.requestStop }

abbrev Run : TaskPool → TaskPool → Prop :=
  Relation.ReflTransGen (Event crew)

/-- Nothing more can happen. -/
def Halted (g : TaskPool) : Prop :=
  ∀ g', ¬Step crew g g'

variable {crew} {total : Nat} {tasks : List Arrival} {g g' : TaskPool}

/-! ## Every run comes to an end -/

/-- The steps that may still be made. -/
def ahead (g : TaskPool) : Nat :=
  5 * g.waiting.length + 3 * g.queued.length + 2 * g.running.length + g.sent.length + g.caller.rank

theorem Step.ahead_lt (h : Step crew g g') : g'.ahead < g.ahead := by
  cases h with
  | offers hcaller | leaves hcaller | closes hcaller => simp [ahead, hcaller, Caller.rank]
  | isLeft hcaller | returns hcaller => simp [ahead, hcaller, Caller.rank]
  | adds hcaller hwaiting =>
    simp only [ahead, hcaller, hwaiting, Caller.rank, List.length_cons, List.length_append, List.length_nil]
    omega
  | begins hqueued =>
    simp only [ahead, hqueued, List.length_cons]
    omega
  | sends hrunning =>
    simp only [ahead, hrunning, List.length_cons, List.length_append, List.length_nil]
    omega
  | arrives _ hsent | drains _ hsent =>
    simp only [ahead, hsent, List.length_cons]
    omega

theorem step_wellFounded (crew : Nat) : WellFounded fun g' g => Step crew g g' :=
  Subrelation.wf Step.ahead_lt (measure ahead).wf

/-! ## What every run keeps -/

/-- What the place of the caller tells about the rest. -/
structure Ordered (g : TaskPool) : Prop where
  adding : g.caller = .adding → g.waiting ≠ []
  stopping : g.caller = .leaving ∨ g.caller = .left → g.run.isStopping = true
  closed : g.caller = .collecting ∨ g.caller = .returned → g.waiting = []
  left : g.caller = .left → g.Cleared
  returned : g.caller = .returned → g.run.isStopping = true ∨ g.Cleared
  dropped : g.caller ≠ .leaving → g.caller ≠ .left → g.dropped = []

/-- Each of the tasks is in exactly one place, no place holds more than it can, and the collector has taken up what
has reached it until it noticed an interrupt. -/
structure Accounts (crew total : Nat) (tasks : List Arrival) (g : TaskPool) : Prop extends Ordered g where
  outcomes : g.all.Perm tasks
  waiting_suffix : g.waiting <:+ tasks
  queued_le : g.queued.length ≤ crew
  running_le : g.running.length ≤ crew
  sent_le : g.sent.length ≤ crew
  tracks : ∃ k, g.run.Tracks total g.arrived k

theorem Ordered.dropped_of_going (H : g.Ordered) (hgoing : g.run.isStopping = false) : g.dropped = [] := by
  refine H.dropped (fun hcaller => ?_) fun hcaller => ?_
  · simp [H.stopping (.inl hcaller)] at hgoing
  · simp [H.stopping (.inr hcaller)] at hgoing

theorem Step.ordered (h : Step crew g g') (H : g.Ordered) : g'.Ordered := by
  obtain ⟨hadding, hstopping, hclosed, hleft, hreturned, hdropped⟩ := H
  -- most facts are about a place where the caller is not; a step of the others changes no place that is cleared
  cases h with
  | offers hcaller hwaiting => constructor <;> grind
  | adds hcaller hwaiting => constructor <;> grind
  | begins hqueued => constructor <;> grind [TaskRun.isStopping_begin, Cleared]
  | sends hrunning => constructor <;> grind [TaskRun.isStopping_finish, Cleared]
  | arrives hgoing hsent => constructor <;> grind [Cleared]
  | leaves hcaller hstops => constructor <;> grind
  | drains hcaller hsent => constructor <;> grind
  | isLeft hcaller hcleared => constructor <;> grind [Cleared]
  | closes hcaller hwaiting => constructor <;> grind
  | returns hcaller hend => constructor <;> grind [Cleared]

/-- No step makes or loses a task. -/
theorem Step.all_perm (h : Step crew g g') : g'.all.Perm g.all := by
  classical
  rw [List.perm_iff_count]
  intro x
  cases h with
  | offers | leaves | isLeft | closes | returns => rfl
  | adds _ hwaiting =>
    simp only [all, hwaiting, List.count_append, List.count_cons, List.count_nil]
    omega
  | begins hqueued =>
    simp only [all, hqueued, List.count_append, List.count_cons]
    omega
  | sends hrunning =>
    simp only [all, hrunning, List.count_append, List.count_cons, List.count_nil]
    omega
  | arrives _ hsent | drains _ hsent =>
    simp only [all, hsent, List.count_append, List.count_cons, List.count_nil]
    omega

theorem Step.tracks (h : Step crew g g') (H : ∃ k, g.run.Tracks total g.arrived k) :
    ∃ k, g'.run.Tracks total g'.arrived k := by
  obtain ⟨k, htracks⟩ := H
  cases h with
  | offers | adds | leaves | drains | isLeft | closes | returns => exact ⟨k, htracks⟩
  | begins => exact ⟨k, htracks.congr (by simp) (TaskRun.isStopping_begin ..)⟩
  | sends => exact ⟨k, htracks.congr (by simp) (TaskRun.isStopping_finish ..)⟩
  | arrives hgoing => exact htracks.deliver hgoing _

theorem Step.accounts (h : Step crew g g') (H : Accounts crew total tasks g) : Accounts crew total tasks g' := by
  refine ⟨h.ordered H.toOrdered, h.all_perm.trans H.outcomes, ?_, ?_, ?_, ?_, h.tracks H.tracks⟩
  · cases h with
    | adds _ hwaiting => exact (List.suffix_cons _ _).trans (hwaiting ▸ H.waiting_suffix)
    | _ => exact H.waiting_suffix
  · have := H.queued_le
    cases h with
    | adds _ _ hroom => simpa using Nat.succ_le_of_lt hroom
    | begins hqueued => simp_all; omega
    | _ => exact H.queued_le
  · have := H.running_le
    cases h with
    | begins _ hroom => simpa using Nat.succ_le_of_lt hroom
    | sends hrunning => simp_all; omega
    | _ => exact H.running_le
  · have := H.sent_le
    cases h with
    | sends _ hroom => simpa using Nat.succ_le_of_lt hroom
    | arrives _ hsent | drains _ hsent => simp_all; omega
    | _ => exact H.sent_le

theorem Event.accounts (h : Event crew g g') (H : Accounts crew total tasks g) : Accounts crew total tasks g' := by
  cases h with
  | step hstep => exact hstep.accounts H
  | interrupted =>
    obtain ⟨k, htracks⟩ := H.tracks
    have hordered : Ordered { g with run := g.run.requestStop } := by
      refine ⟨H.adding, fun hcaller => ?_, H.closed, fun hcaller => ?_, fun hcaller => ?_, H.dropped⟩
      · rw [TaskRun.isStopping_requestStop, H.stopping hcaller]
      · obtain ⟨hqueued, hrunning, hsent⟩ := H.left hcaller
        exact ⟨hqueued, hrunning, hsent⟩
      · rw [TaskRun.isStopping_requestStop]
        exact (H.returned hcaller).imp_right fun ⟨hqueued, hrunning, hsent⟩ => ⟨hqueued, hrunning, hsent⟩
    exact ⟨hordered, H.outcomes, H.waiting_suffix, H.queued_le, H.running_le, H.sent_le, k, htracks.requestStop⟩

theorem Run.accounts (h : Run crew g g') (H : Accounts crew total tasks g) : Accounts crew total tasks g' := by
  induction h with
  | refl => exact H
  | tail _ hevent ih => exact hevent.accounts ih

theorem accounts_start (w : Workspace) (d : TaskDisplay) (total : Nat) (workers processors : Int)
    (tasks : List Arrival) : Accounts crew total tasks (start w d total workers processors tasks) where
  adding := nofun
  stopping := by simp [start]
  closed := by simp [start]
  left := nofun
  returned := nofun
  dropped _ _ := rfl
  outcomes := by simp [start, all]
  waiting_suffix := List.suffix_refl _
  queued_le := Nat.zero_le _
  running_le := Nat.zero_le _
  sent_le := Nat.zero_le _
  tracks := ⟨0, TaskRun.tracks_start w d total workers processors⟩

/-! ## What the collector has taken up -/

theorem Accounts.collects (H : Accounts crew total tasks g) (hdistinct : (tasks.map (·.id)).Nodup)
    (hrange : ∀ a ∈ tasks, 0 ≤ a.id ∧ a.id < total) {k : Nat} (htracks : g.run.Tracks total g.arrived k) :
    Collection.Collects total (g.arrived.take k) g.run.collected := by
  have hsub : g.arrived.Sublist g.all := by
    refine .trans ?_ (List.sublist_append_right _ _)
    refine .trans ?_ (List.sublist_append_right _ _)
    refine .trans ?_ (List.sublist_append_right _ _)
    exact (List.sublist_append_left _ _).trans (List.sublist_append_right _ _)
  have hdistinct' := (H.outcomes.map (·.id)).nodup_iff.mpr hdistinct
  refine htracks.collects (hdistinct'.sublist (hsub.map _)) fun a ha => ?_
  exact hrange a (H.outcomes.mem_iff.mp (hsub.mem ha))

/-- When the caller returns and no interrupt has been noticed, every outcome has reached the collector. -/
theorem Accounts.arrived_perm (H : Accounts crew total tasks g) (hgoing : g.run.isStopping = false)
    (hcaller : g.caller = .returned) : g.arrived.Perm tasks := by
  have hwaiting := H.closed (.inr hcaller)
  have hdropped := H.dropped_of_going hgoing
  have houtcomes := H.outcomes
  rcases H.returned hcaller with hstops | ⟨hqueued, hrunning, hsent⟩
  · simp [hstops] at hgoing
  · simpa [all, hwaiting, hqueued, hrunning, hsent, hdropped] using houtcomes

theorem Accounts.collects_all (H : Accounts crew total tasks g) (hdistinct : (tasks.map (·.id)).Nodup)
    (hrange : ∀ a ∈ tasks, 0 ≤ a.id ∧ a.id < total) (hgoing : g.run.isStopping = false) :
    Collection.Collects total g.arrived g.run.collected := by
  obtain ⟨k, htracks⟩ := H.tracks
  have hlength : g.arrived.length = k := by simpa [hgoing] using htracks.length_eq
  have hcollects := H.collects hdistinct hrange htracks
  rwa [← hlength, List.take_length] at hcollects

/-! ## No task is held up -/

/-- Where nothing more can happen and the collector is there, or the caller receives in its place, the workers have
come to their end. -/
theorem cleared_of_halted (hcrew : 0 < crew) (h : Halted crew g) (hsent : g.sent = []) : g.Cleared := by
  have hrunning : g.running = [] := by
    cases hr : g.running with
    | nil => rfl
    | cons a running => exact absurd (.sends (hr.trans (List.nil_append _).symm) (by simpa [hsent] using hcrew)) (h _)
  refine ⟨?_, hrunning, hsent⟩
  cases hq : g.queued with
  | nil => rfl
  | cons a queued => exact absurd (.begins hq (by simpa [hrunning] using hcrew)) (h _)

/-- Without an interrupt nothing is left to happen only when the caller has returned. -/
theorem Accounts.returned_of_halted (H : Accounts crew total tasks g) (hcrew : 0 < crew) (h : Halted crew g)
    (hgoing : g.run.isStopping = false) : g.caller = .returned := by
  have hsent : g.sent = [] := by
    cases hs : g.sent with
    | nil => rfl
    | cons a sent => exact absurd (.arrives hgoing hs) (h _)
  have hcleared := cleared_of_halted hcrew h hsent
  cases hcaller : g.caller with
  | free =>
    by_cases hwaiting : g.waiting = []
    · exact absurd (.closes hcaller hwaiting) (h _)
    · exact absurd (.offers hcaller hwaiting) (h _)
  | adding =>
    obtain ⟨a, waiting, hwaiting⟩ := List.exists_cons_of_ne_nil (H.adding hcaller)
    exact absurd (.adds hcaller hwaiting (by simpa [hcleared.queued] using hcrew)) (h _)
  | leaving => simp [H.stopping (.inl hcaller)] at hgoing
  | left => simp [H.stopping (.inr hcaller)] at hgoing
  | collecting => exact absurd (.returns hcaller (.inr hcleared)) (h _)
  | returned => rfl

/-- A caller that leaves does not wait for ever. -/
theorem not_halted_of_leaving (hcrew : 0 < crew) (hcaller : g.caller = .leaving) : ¬Halted crew g := by
  intro h
  have hsent : g.sent = [] := by
    cases hs : g.sent with
    | nil => rfl
    | cons a sent => exact absurd (.drains hcaller hs) (h _)
  exact h _ (.isLeft hcaller (cleared_of_halted hcrew h hsent))

/-! ## A caller that leaves -/

theorem Event.gone (h : Event crew g g') (hcaller : g.caller = .leaving ∨ g.caller = .left) :
    (g'.caller = .leaving ∨ g'.caller = .left) ∧ g'.waiting = g.waiting := by
  cases h with
  | interrupted => exact ⟨hcaller, rfl⟩
  | step hstep =>
    cases hstep with
    | begins | sends | arrives | drains => exact ⟨hcaller, rfl⟩
    | isLeft => exact ⟨.inr rfl, rfl⟩
    | offers hc | adds hc | leaves hc | closes hc | returns hc => simp [hc] at hcaller

/-- Once the caller leaves, no further task is handed over. -/
theorem Run.waiting_eq (h : Run crew g g') (hcaller : g.caller = .leaving ∨ g.caller = .left) :
    g'.waiting = g.waiting := by
  suffices (g'.caller = .leaving ∨ g'.caller = .left) ∧ g'.waiting = g.waiting from this.2
  induction h with
  | refl => exact ⟨hcaller, rfl⟩
  | tail _ hevent ih =>
    obtain ⟨hcaller', hwaiting⟩ := hevent.gone ih.1
    exact ⟨hcaller', hwaiting.trans ih.2⟩

/-- When the caller has left, every task that was handed over has had its outcome. -/
theorem Accounts.left_perm (H : Accounts crew total tasks g) (hcaller : g.caller = .left) :
    (g.waiting ++ (g.arrived ++ g.dropped)).Perm tasks := by
  obtain ⟨hqueued, hrunning, hsent⟩ := H.left hcaller
  simpa [all, hqueued, hrunning, hsent] using H.outcomes

/-! ## How far a run gets after an interrupt -/

theorem Accounts.length_le (H : Accounts crew total tasks g) (hdropped : g.dropped = []) :
    tasks.length ≤ g.waiting.length + g.arrived.length + 3 * crew := by
  have hlength := H.outcomes.length_eq
  have := H.queued_le
  have := H.running_le
  have := H.sent_le
  simp only [all, hdropped, List.length_append, List.length_nil] at hlength
  omega

/-- The collector has noticed no interrupt, or at most `3 * crew` tasks are handed over beyond those that reach it. -/
def Held (crew : Nat) (tasks : List Arrival) (g : TaskPool) : Prop :=
  g.run.isStopping = true → tasks.length ≤ g.waiting.length + g.arrived.length + 3 * crew

theorem Event.held (h : Event crew g g') (H : Accounts crew total tasks g) (hheld : Held crew tasks g) :
    Held crew tasks g' := by
  intro hstops
  have H' := h.accounts H
  cases h with
  | interrupted => exact hheld (by rwa [TaskRun.isStopping_requestStop] at hstops)
  | step hstep =>
    cases hstep with
    | offers | leaves | drains | isLeft | closes | returns => exact hheld hstops
    | begins => exact hheld (by rwa [TaskRun.isStopping_begin] at hstops)
    | sends => exact hheld (by rwa [TaskRun.isStopping_finish] at hstops)
    | adds => exact H'.length_le (H'.dropped nofun nofun)
    | arrives hgoing => exact H'.length_le (H.dropped_of_going hgoing)

theorem Run.held (h : Run crew g g') (H : Accounts crew total tasks g) (hheld : Held crew tasks g) :
    Held crew tasks g' := by
  induction h with
  | refl => exact hheld
  | tail hrun hevent ih => exact hevent.held (Run.accounts hrun H) ih

/-- So the last task stays where it is, if there are more than the workers, the queue and the channel can hold. -/
theorem Accounts.getLast_mem_waiting (H : Accounts crew total tasks g)
    (hlength : tasks.length ≤ g.waiting.length + g.arrived.length + 3 * crew)
    (hmany : g.arrived.length + 3 * crew < tasks.length) (hne : tasks ≠ []) : tasks.getLast hne ∈ g.waiting := by
  obtain ⟨handed, rfl⟩ := H.waiting_suffix
  have hwaiting : g.waiting ≠ [] := List.ne_nil_of_length_pos (by omega)
  rw [List.getLast_append_of_ne_nil _ hwaiting]
  exact List.getLast_mem hwaiting

/-! ## Every order is possible -/

/-- An idle crew runs the next task from its beginning to its end. -/
theorem run_perform (hcrew : 0 < crew) {r : TaskRun} (hgoing : r.isStopping = false) (a : Arrival)
    (waiting arrived : List Arrival) (w : Workspace) :
    Run crew ⟨.free, a :: waiting, [], [], [], arrived, [], w, r⟩
      ⟨.free, waiting, [], [], [], arrived ++ [a], [], (r.perform w a).1, (r.perform w a).2⟩ := by
  have hbegun : (r.begin w a.rule).2.isStopping = false := by rw [TaskRun.isStopping_begin, hgoing]
  refine .head (.step (.offers rfl (List.cons_ne_nil _ _))) ?_
  refine .head (.step (.adds rfl rfl hcrew)) ?_
  refine .head (.step (.begins rfl hcrew)) ?_
  refine .head (.step (.sends (List.nil_append [a]).symm hcrew)) ?_
  exact .single (.step (.arrives (by rw [TaskRun.isStopping_finish, hbegun]) rfl))

/-- All tasks are handed over, if the queue has a place for each. -/
theorem run_handOver (waiting queued : List Arrival) (hroom : queued.length + waiting.length ≤ crew)
    (w : Workspace) (r : TaskRun) :
    Run crew ⟨.free, waiting, queued, [], [], [], [], w, r⟩
      ⟨.collecting, [], queued ++ waiting, [], [], [], [], w, r⟩ := by
  induction waiting generalizing queued with
  | nil =>
    rw [List.append_nil]
    exact .single (.step (.closes rfl rfl))
  | cons a waiting ih =>
    rw [List.length_cons] at hroom
    have hrest := ih (queued ++ [a]) (by rw [List.length_append, List.length_singleton]; omega)
    rw [List.append_assoc, List.singleton_append] at hrest
    refine .head (.step (.offers rfl (List.cons_ne_nil _ _))) ?_
    exact .head (.step (.adds rfl rfl (by dsimp only; omega))) hrest

/-- All tasks begin, if there is a worker for each. -/
theorem exists_begun (queued running : List Arrival) (hroom : running.length + queued.length ≤ crew)
    (w : Workspace) (r : TaskRun) : ∃ running' w' r',
      Run crew ⟨.collecting, [], queued, running, [], [], [], w, r⟩
        ⟨.collecting, [], [], running', [], [], [], w', r'⟩ ∧
      running'.Perm (queued ++ running) ∧ r'.collected = r.collected ∧ r'.interrupt = r.interrupt := by
  induction queued generalizing running w r with
  | nil => exact ⟨running, w, r, .refl, .rfl, rfl, rfl⟩
  | cons a queued ih =>
    rw [List.length_cons] at hroom
    have hroom' : (a :: running).length + queued.length ≤ crew := by
      rw [List.length_cons]
      omega
    obtain ⟨running', w', r', hrun, hperm, hcollected, hinterrupt⟩ :=
      ih (a :: running) hroom' (r.begin w a.rule).1 (r.begin w a.rule).2
    refine ⟨running', w', r', .head (.step (.begins rfl (by dsimp only; omega))) hrun,
      hperm.trans List.perm_middle, ?_, ?_⟩
    · rw [hcollected, TaskRun.begin_run]
    · rw [hinterrupt, TaskRun.begin_run]

/-- One of the tasks at work ends, and its outcome reaches the collector. -/
theorem run_arrival (hcrew : 0 < crew) {r : TaskRun} (hgoing : r.isStopping = false) (a : Arrival)
    (before after arrived : List Arrival) (w : Workspace) :
    Run crew ⟨.collecting, [], [], before ++ a :: after, [], arrived, [], w, r⟩
      ⟨.collecting, [], [], before ++ after, [], arrived ++ [a], [], (r.complete w a).1, (r.complete w a).2⟩ := by
  refine .head (.step (.sends rfl hcrew)) ?_
  exact .single (.step (.arrives (by rw [TaskRun.isStopping_finish, hgoing]) rfl))

/-- Tasks at work end in any order, and without an interrupt all that reaches the collector is taken up. -/
theorem exists_ended (hcrew : 0 < crew) {running order rest arrived : List Arrival} {w : Workspace} {r : TaskRun}
    (hperm : running.Perm (order ++ rest)) (hnone : r.interrupt = .none)
    (htracks : r.Tracks total arrived arrived.length) : ∃ running' w' r',
      Run crew ⟨.collecting, [], [], running, [], arrived, [], w, r⟩
        ⟨.collecting, [], [], running', [], arrived ++ order, [], w', r'⟩ ∧
      running'.Perm rest ∧ r'.interrupt = .none ∧ r'.Tracks total (arrived ++ order) (arrived ++ order).length := by
  induction order generalizing running arrived w r with
  | nil => exact ⟨running, w, r, by rw [List.append_nil], hperm, hnone, by rwa [List.append_nil]⟩
  | cons a order ih =>
    obtain ⟨before, after, rfl⟩ := List.append_of_mem (hperm.mem_iff.mpr List.mem_cons_self)
    have hothers : (before ++ after).Perm (order ++ rest) := (List.perm_middle.symm.trans hperm).cons_inv
    have hgoing : r.isStopping = false := by simp [TaskRun.isStopping, hnone]
    obtain ⟨htracks', hnone'⟩ := htracks.complete_of_none (w := w) hnone a
    obtain ⟨running', w', r', hrun, hrest⟩ := ih hothers hnone' htracks'
    rw [List.append_assoc, List.singleton_append] at hrun hrest
    exact ⟨running', w', r', .trans (run_arrival hcrew hgoing a before after arrived w) hrun, hrest⟩

/-- With a worker for each task, any of the outcomes may be the first to reach the collector, in any order. -/
theorem exists_taken_up (w : Workspace) (d : TaskDisplay) (total : Nat) (workers processors : Int)
    (hcrew : 0 < crew) (hroom : tasks.length ≤ crew) {order rest : List Arrival}
    (hperm : tasks.Perm (order ++ rest)) : ∃ running w' r',
      Run crew (start w d total workers processors tasks)
        ⟨.collecting, [], [], running, [], order, [], w', r'⟩ ∧
      running.Perm rest ∧ r'.interrupt = .none ∧ r'.Tracks total order order.length := by
  have hhanded : Run crew (start w d total workers processors tasks) _ := run_handOver tasks []
    (by simpa using hroom) (TaskRun.start w d total workers processors).1
    (TaskRun.start w d total workers processors).2
  obtain ⟨running, w', r', hbegun, hrunning, hcollected, hinterrupt⟩ := exists_begun tasks []
    (by simpa using hroom) (TaskRun.start w d total workers processors).1
    (TaskRun.start w d total workers processors).2
  have hnone : r'.interrupt = .none := by rw [hinterrupt, TaskRun.start_run]
  have htracks : r'.Tracks total [] 0 := (TaskRun.tracks_start w d total workers processors).congr hcollected
    (by rw [TaskRun.isStopping, hinterrupt, TaskRun.isStopping])
  rw [List.append_nil] at hrunning
  obtain ⟨running', w'', r'', hended, hrest⟩ := exists_ended hcrew (hrunning.trans hperm) hnone htracks
  exact ⟨running', w'', r'', hhanded.trans (hbegun.trans hended), hrest⟩

/-- **With a worker for each task, the outcomes may reach the collector in any order, and an interrupt may be noticed
after any number of them.** -/
theorem exists_run_in_order (w : Workspace) (d : TaskDisplay) (total : Nat) (workers processors : Int)
    (hcrew : 0 < crew) (hroom : tasks.length ≤ crew) {order : List Arrival} (horder : order.Perm tasks)
    {k : Nat} (hk : k ≤ order.length) : ∃ g,
      Run crew (start w d total workers processors tasks) g ∧ g.caller = .returned ∧
        g.arrived = order.take (k + 1) ∧ (g.run.isStopping = true ↔ k < order.length) ∧
        g.run.Tracks total g.arrived k := by
  have hperm : tasks.Perm (order.take k ++ order.drop k) := by
    rw [List.take_append_drop]
    exact horder.symm
  obtain ⟨running, w', r', hrun, hrest, hnone, htracks⟩ :=
    exists_taken_up w d total workers processors hcrew hroom hperm
  rcases Nat.eq_or_lt_of_le hk with rfl | hlt
  · rw [List.drop_length] at hrest
    cases hrest.eq_nil
    rw [List.take_length] at htracks hrun
    refine ⟨_, hrun.tail (.step (.returns rfl (.inr ⟨rfl, rfl, rfl⟩))), rfl, ?_, ?_, htracks⟩
    · exact (List.take_of_length_le (Nat.le_succ _)).symm
    · simp [TaskRun.isStopping, hnone]
  · -- the next outcome is the one at which the collector notices the interrupt
    rw [List.drop_eq_getElem_cons hlt] at hrest
    obtain ⟨before, after, rfl⟩ := List.append_of_mem (hrest.mem_iff.mpr List.mem_cons_self)
    have hpending : r'.requestStop.interrupt = .pending := by simp [TaskRun.requestStop, hnone]
    have hgoing : r'.requestStop.isStopping = false := by simp [TaskRun.isStopping, hpending]
    rw [List.length_take_of_le hk] at htracks
    obtain ⟨htracks', hstops⟩ := htracks.requestStop.complete_of_pending (w := w') hpending order[k]
    have hlast := run_arrival hcrew hgoing order[k] before after (order.take k) w'
    refine ⟨_, (hrun.tail .interrupted).trans (hlast.tail (.step (.returns rfl (.inl hstops)))), rfl, ?_, ?_,
      htracks'⟩
    · exact List.take_append_getElem hlt
    · exact iff_of_true hstops hlt

/-- **The collector takes up the outcomes in the order in which they reach it, until it notices an interrupt.** Each
task is in one place all the time, so it has one outcome at most, and a crash is an error of its task alone. No run
goes on for ever. As long as no interrupt is noticed nothing is held up: a run ends when its caller has returned, and
every outcome has reached the collector by then. A caller that sees an interrupt does not wait for ever either: when
it has left, each task that was handed over has had its outcome, and the others never begin. With a worker for each
task every order is possible, with an interrupt at any point. Without one, neither the errors nor the results, but
for their order, depend on the order of the outcomes. -/
theorem collects_in_any_order (w : Workspace) (d : TaskDisplay) (total : Nat) (workers processors : Int)
    {tasks : List Arrival} (hdistinct : (tasks.map (·.id)).Nodup)
    (hrange : ∀ a ∈ tasks, 0 ≤ a.id ∧ a.id < total) {crew : Nat} (hcrew : 0 < crew) :
    (WellFounded fun g' g => Step crew g g') ∧
    (∀ g, Run crew (start w d total workers processors tasks) g →
      g.all.Perm tasks ∧
      (∃ k, g.arrived.length = (if g.run.isStopping then k + 1 else k) ∧
        Collection.Collects total (g.arrived.take k) g.run.collected) ∧
      (g.run.isStopping = false → Halted crew g → g.caller = .returned) ∧
      (g.run.isStopping = false → g.caller = .returned → g.arrived.Perm tasks) ∧
      (g.caller = .leaving → ¬Halted crew g) ∧
      (g.caller = .left → (g.waiting ++ (g.arrived ++ g.dropped)).Perm tasks ∧
        ∀ g', Run crew g g' → g'.waiting = g.waiting)) ∧
    (tasks.length ≤ crew → ∀ order : List Arrival, order.Perm tasks → ∀ k ≤ order.length,
      ∃ g, Run crew (start w d total workers processors tasks) g ∧ g.caller = .returned ∧
        g.arrived = order.take (k + 1) ∧ (g.run.isStopping = true ↔ k < order.length) ∧
        Collection.Collects total (order.take k) g.run.collected) ∧
    ∀ g g', Run crew (start w d total workers processors tasks) g →
      Run crew (start w d total workers processors tasks) g' → g.caller = .returned → g'.caller = .returned →
      g.run.isStopping = false → g'.run.isStopping = false →
      g.run.collected.errors = g'.run.collected.errors ∧
        g.run.collected.results.Perm g'.run.collected.results := by
  have haccounts : ∀ g, Run crew (start w d total workers processors tasks) g → Accounts crew total tasks g :=
    fun g hrun => hrun.accounts (accounts_start w d total workers processors tasks)
  refine ⟨step_wellFounded crew, fun g hrun => ?_, fun hroom order horder k hk => ?_, ?_⟩
  · have H := haccounts g hrun
    obtain ⟨k, htracks⟩ := H.tracks
    refine ⟨H.outcomes, ⟨k, htracks.length_eq, H.collects hdistinct hrange htracks⟩, fun hgoing hhalted => ?_,
      fun hgoing hcaller => ?_, not_halted_of_leaving hcrew, fun hcaller => ?_⟩
    · exact H.returned_of_halted hcrew hhalted hgoing
    · exact H.arrived_perm hgoing hcaller
    · exact ⟨H.left_perm hcaller, fun g' hrun' => hrun'.waiting_eq (.inr hcaller)⟩
  · obtain ⟨g, hrun, hcaller, harrived, hstops, htracks⟩ :=
      exists_run_in_order w d total workers processors hcrew hroom horder hk
    have hcollects := (haccounts g hrun).collects hdistinct hrange htracks
    rw [harrived, List.take_take, Nat.min_eq_left (Nat.le_succ k)] at hcollects
    exact ⟨g, hrun, hcaller, harrived, hstops, hcollects⟩
  · intro g g' hrun hrun' hcaller hcaller' hgoing hgoing'
    have H := haccounts g hrun
    have H' := haccounts g' hrun'
    exact (H.collects_all hdistinct hrange hgoing).perm (H'.collects_all hdistinct hrange hgoing')
      ((H.arrived_perm hgoing hcaller).trans (H'.arrived_perm hgoing' hcaller').symm)

/-- Four tasks, one for each kind of outcome; there is a fifth place for errors. -/
def sampleTasks : List Arrival :=
  [{ id := 0, rule := "autosar/rule_M14_6_1", outcome := .failed "no dumps" },
    { id := 1, rule := "autosar/rule_M14_6_1", outcome := .nothing },
    { id := 2, rule := "autosar/rule_M14_6_1", outcome := .crashed },
    { id := 4, rule := "misra_cpp_2008/rule_14_6_1", severity := "high"
      outcome := .found [{ line := 3 }, { line := 5, verdict := Result.compliantText }] }]

def sampleDisplay : TaskDisplay where
  clock := {}
  lang := .english
  progress := true
  dir := "/out"

theorem collects_in_any_order_sample :
    (sampleTasks.map (·.id)).Nodup ∧ (∀ a ∈ sampleTasks, 0 ≤ a.id ∧ a.id < 5) ∧
    ∃ g, Run 4 (start ⟨⟨[], []⟩, []⟩ sampleDisplay 5 0 4 sampleTasks) g ∧ g.caller = .returned ∧
      g.arrived = sampleTasks.reverse.take 3 ∧ g.run.isStopping = true ∧
      Collection.Collects 5 (sampleTasks.reverse.take 2) g.run.collected := by
  have hdistinct : (sampleTasks.map (·.id)).Nodup := by decide
  have hrange : ∀ a ∈ sampleTasks, 0 ≤ a.id ∧ a.id < 5 := by decide
  obtain ⟨-, -, horder, -⟩ :=
    collects_in_any_order ⟨⟨[], []⟩, []⟩ sampleDisplay 5 0 4 hdistinct hrange (by decide : 0 < 4)
  obtain ⟨g, hrun, hcaller, harrived, hstops, hcollects⟩ :=
    horder (by decide) sampleTasks.reverse (List.reverse_perm sampleTasks) 2 (by decide)
  exact ⟨hdistinct, hrange, g, hrun, hcaller, harrived, hstops.mpr (by decide), hcollects⟩

/-- A task with nothing to report. -/
def silentTask (id : Nat) : Arrival where
  id := id
  rule := "autosar/rule_M14_6_1"
  outcome := .nothing

def sixTasks : List Arrival :=
  (List.range 6).map silentTask

/-- A run of six tasks on one worker. -/
def sixTasksStart : TaskPool :=
  start ⟨⟨[], []⟩, []⟩ sampleDisplay 6 1 4 sixTasks

/-- **After an interrupt not every task has an outcome.** If the collector notices the interrupt at the second of six
outcomes, the last task stays where it is, whatever the caller and the worker do. -/
theorem last_task_stays_waiting :
    (sixTasks.map (·.id)).Nodup ∧ (∀ a ∈ sixTasks, 0 ≤ a.id ∧ a.id < 6) ∧
    (∃ g, Run 1 sixTasksStart g ∧ g.caller = .left ∧ g.run.isStopping = true ∧ g.arrived.length = 2) ∧
    ∀ g, Run 1 sixTasksStart g → g.run.isStopping = true → g.arrived.length = 2 → silentTask 5 ∈ g.waiting := by
  refine ⟨by decide, by decide, ?_, fun g hrun hstops harrived => ?_⟩
  · have hfirst : Run 1 sixTasksStart _ := run_perform Nat.one_pos (r := sixTasksStart.run) (by decide) (silentTask 0)
      ((List.range 5).map fun i => silentTask (i + 1)) [] sixTasksStart.space
    -- the interrupt is noticed when the outcome of the second task arrives
    have hsecond : Run 1 sixTasksStart _ :=
      (hfirst.tail .interrupted).trans (run_perform Nat.one_pos (by decide) (silentTask 1) _ _ _)
    have hleaving := hsecond.tail (.step (.leaves rfl (by decide)))
    exact ⟨_, hleaving.tail (.step (.isLeft rfl ⟨rfl, rfl, rfl⟩)), rfl, by decide, rfl⟩
  · have H : Accounts 1 6 sixTasks sixTasksStart := accounts_start _ _ _ _ _ _
    have hheld : Held 1 sixTasks g := hrun.held H fun h => absurd h (by decide)
    exact (hrun.accounts H).getLast_mem_waiting (hheld hstops) (by rw [harrived]; decide) (by decide)

end TaskPool

end TwoPhase
