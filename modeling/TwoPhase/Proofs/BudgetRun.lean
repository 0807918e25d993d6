import Mathlib
import TwoPhase.Budget

/-!
# Tasks that share a budget

`BudgetUse.Step` says what can happen next while tasks ask for parts of a budget and give them back: a task
asks, a task that has been woken looks again, one gives back what it holds, and the sleepers are woken. To
give something back and to wake the sleepers are two steps, so that anything may happen between them. Along
every run the free amounts and those that are held add up to the totals, and a sleeper that could be served
has a call coming (`BudgetUse.Sound`). Main statement: `BudgetUse.reachable_balanced`.
-/

namespace TwoPhase

/-- The two things that a budget hands out. -/
inductive Resource where
  | cpu
  | mem
  deriving DecidableEq

def Demand.amount (d : Demand) : Resource → Int
  | .cpu => d.cpu.toInt
  | .mem => d.mem.toInt

/-! ## Single operations -/

namespace Budget

variable {b : Budget} {d : Demand} {r : Request}

theorem fits_iff : b.fits d = true ↔ ∀ k, d.amount k ≤ b.free.amount k := by
  simp only [fits, Bool.and_eq_true, decide_eq_true_eq, Int64.le_iff_toInt_le]
  refine ⟨fun ⟨hcpu, hmem⟩ k => ?_, fun h => ⟨h .cpu, h .mem⟩⟩
  cases k with
  | cpu => exact hcpu
  | mem => exact hmem

/-- A request is at fault exactly if it asks for more of something than there is. -/
theorem excess_eq_empty_iff : b.excess r = "" ↔ ∀ k, r.demand.amount k ≤ b.total.amount k := by
  have hall : (∀ k, r.demand.amount k ≤ b.total.amount k) ↔
      ¬ b.total.cpu < r.demand.cpu ∧ ¬ b.total.mem < r.demand.mem := by
    simp only [Int64.lt_iff_toInt_lt, Int.not_lt]
    refine ⟨fun h => ⟨h .cpu, h .mem⟩, fun ⟨hcpu, hmem⟩ k => ?_⟩
    cases k with
    | cpu => exact hcpu
    | mem => exact hmem
  rw [hall]
  by_cases hcpu : b.total.cpu < r.demand.cpu <;> by_cases hmem : b.total.mem < r.demand.mem <;>
    simp [excess, hcpu, hmem]

theorem amount_take (hnonneg : ∀ k, 0 ≤ d.amount k) (hfits : b.fits d = true) (k : Resource) :
    (b.take d).free.amount k = b.free.amount k - d.amount k := by
  have hsub {x y : Int64} (hy : 0 ≤ y.toInt) (hle : y.toInt ≤ x.toInt) :
      (x - y).toInt = x.toInt - y.toInt := by
    have := x.toInt_lt
    rw [Int64.toInt_sub]
    apply Int.bmod_eq_of_le <;> omega
  have hle := fits_iff.mp hfits
  cases k with
  | cpu => exact hsub (hnonneg .cpu) (hle .cpu)
  | mem => exact hsub (hnonneg .mem) (hle .mem)

/-- Something is given back, and nobody is woken yet. -/
def putBack (b : Budget) (d : Demand) : Budget :=
  { b with free := { cpu := b.free.cpu + d.cpu, mem := b.free.mem + d.mem } }

theorem amount_putBack {total : Demand} (hfree : ∀ k, 0 ≤ b.free.amount k) (hnonneg : ∀ k, 0 ≤ d.amount k)
    (hle : ∀ k, b.free.amount k + d.amount k ≤ total.amount k) (k : Resource) :
    (b.putBack d).free.amount k = b.free.amount k + d.amount k := by
  have hadd {x y z : Int64} (hx : 0 ≤ x.toInt) (hy : 0 ≤ y.toInt) (hle : x.toInt + y.toInt ≤ z.toInt) :
      (x + y).toInt = x.toInt + y.toInt := by
    have := z.toInt_lt
    rw [Int64.toInt_add]
    apply Int.bmod_eq_of_le <;> omega
  cases k with
  | cpu => exact hadd (hfree .cpu) (hnonneg .cpu) (hle .cpu)
  | mem => exact hadd (hfree .mem) (hnonneg .mem) (hle .mem)

/-- Neither the totals nor what is free depend on who waits. -/
@[simp] theorem excess_waiting (b : Budget) (rs : List Request) (r : Request) :
    { b with waiting := rs }.excess r = b.excess r :=
  rfl

@[simp] theorem fits_waiting (b : Budget) (rs : List Request) (d : Demand) :
    { b with waiting := rs }.fits d = b.fits d :=
  rfl

end Budget

/-! ## Steps -/

/-- A budget in use. The requests in `budget.waiting` sleep; those in `awake` have been woken and will look
again. Those in `held` have been granted and not given back. A call is due for each time something was given
back and the sleepers have not been woken since. -/
structure BudgetUse where
  budget : Budget
  awake : List Request := []
  held : List Request := []
  calls : Nat := 0
  deriving DecidableEq

namespace BudgetUse

def ofTotal (total : Demand) : BudgetUse :=
  { budget := .ofTotal total }

/-- How much of a resource is held. -/
def heldAmount (s : BudgetUse) (k : Resource) : Int :=
  (s.held.map fun r => r.demand.amount k).sum

/-- Someone looks whether a request can be served. If not, the request goes to sleep. -/
def look (s : BudgetUse) (r : Request) : BudgetUse :=
  match s.budget.acquire r with
  | (b, .granted) => { s with budget := b, held := r :: s.held }
  | (b, .refused _) => { s with budget := b }
  | (b, .waits) => { s with budget := b }

/-- What can happen next. Any number of tasks may ask at any time. -/
inductive Step : BudgetUse → BudgetUse → Prop
  | asks {s : BudgetUse} {r : Request} : (∀ k, 0 ≤ r.demand.amount k) → Step s (s.look r)
  | looksAgain {s : BudgetUse} {r : Request} :
    r ∈ s.awake → Step s ({ s with awake := s.awake.erase r }.look r)
  | givesBack {s : BudgetUse} {r : Request} :
    r ∈ s.held →
    Step s { s with
      budget := s.budget.putBack r.demand
      held := s.held.erase r
      calls := s.calls + 1 }
  | wakes {s : BudgetUse} :
    0 < s.calls →
    Step s { s with
      budget := { s.budget with waiting := [] }
      awake := s.awake ++ s.budget.waiting
      calls := s.calls - 1 }

abbrev Run : BudgetUse → BudgetUse → Prop :=
  Relation.ReflTransGen Step

variable {total : Demand} {s s' : BudgetUse} {r : Request}

theorem look_of_excess (h : s.budget.excess r ≠ "") : s.look r = s := by
  simp [look, Budget.acquire, h]

theorem look_of_fits (h : s.budget.excess r = "") (hfits : s.budget.fits r.demand = true) :
    s.look r = { s with budget := s.budget.take r.demand, held := r :: s.held } := by
  simp [look, Budget.acquire, h, hfits]

theorem look_of_not_fits (h : s.budget.excess r = "") (hfits : ¬ s.budget.fits r.demand = true) :
    s.look r = { s with budget := { s.budget with waiting := s.budget.waiting ++ [r] } } := by
  simp [look, Budget.acquire, h, hfits]

/-! ## What every step preserves -/

/-- The books are in order: what is free and what is held make up the totals, nobody waits for more than
there is, and a sleeper that could be served has a call coming. -/
structure Sound (total : Demand) (s : BudgetUse) : Prop where
  total_eq : s.budget.total = total
  free_eq : ∀ k, s.budget.free.amount k = total.amount k - s.heldAmount k
  free_nonneg : ∀ k, 0 ≤ s.budget.free.amount k
  held_nonneg : ∀ r ∈ s.held, ∀ k, 0 ≤ r.demand.amount k
  within : ∀ r ∈ s.budget.waiting ++ s.awake, ∀ k,
    0 ≤ r.demand.amount k ∧ r.demand.amount k ≤ total.amount k
  call_due : ∀ r ∈ s.budget.waiting, s.budget.fits r.demand = true → 0 < s.calls

theorem sound_ofTotal (htotal : ∀ k, 0 ≤ total.amount k) : Sound total (ofTotal total) where
  total_eq := rfl
  free_eq k := by simp [ofTotal, Budget.ofTotal, heldAmount]
  free_nonneg := htotal
  held_nonneg _ hr := nomatch hr
  within _ hr := nomatch hr
  call_due _ hr := nomatch hr

theorem sum_amount_nonneg {rs : List Request} (h : ∀ r ∈ rs, ∀ k, 0 ≤ r.demand.amount k) (k : Resource) :
    0 ≤ (rs.map fun r => r.demand.amount k).sum := by
  refine List.sum_nonneg fun x hx => ?_
  obtain ⟨r, hr, rfl⟩ := List.mem_map.mp hx
  exact h r hr k

theorem Sound.excess_eq_empty_iff (h : Sound total s) :
    s.budget.excess r = "" ↔ ∀ k, r.demand.amount k ≤ total.amount k := by
  rw [Budget.excess_eq_empty_iff, h.total_eq]

theorem Sound.look (h : Sound total s) (hnonneg : ∀ k, 0 ≤ r.demand.amount k) :
    Sound total (s.look r) := by
  by_cases hexcess : s.budget.excess r = ""
  · by_cases hfits : s.budget.fits r.demand = true
    · have htake := Budget.amount_take hnonneg hfits
      rw [look_of_fits hexcess hfits]
      refine ⟨h.total_eq, fun k => ?_, fun k => ?_, ?_, h.within, fun x hx hfits' => ?_⟩
      · have := h.free_eq k
        rw [htake]
        simp only [heldAmount, List.map_cons, List.sum_cons] at this ⊢
        omega
      · have := Budget.fits_iff.mp hfits k
        rw [htake]
        omega
      · exact List.forall_mem_cons.mpr ⟨hnonneg, h.held_nonneg⟩
      · -- Less is free than before, so a sleeper that fits now did so before.
        refine h.call_due x hx (Budget.fits_iff.mpr fun k => ?_)
        have hle := Budget.fits_iff.mp hfits' k
        have := hnonneg k
        rw [htake] at hle
        omega
    · rw [look_of_not_fits hexcess hfits]
      have hwithin := h.excess_eq_empty_iff.mp hexcess
      refine ⟨h.total_eq, h.free_eq, h.free_nonneg, h.held_nonneg, fun x hx => ?_, fun x hx => ?_⟩
      · simp only [List.mem_append, List.mem_singleton] at hx
        rcases hx with (hx | rfl) | hx
        · exact h.within x (List.mem_append_left _ hx)
        · exact fun k => ⟨hnonneg k, hwithin k⟩
        · exact h.within x (List.mem_append_right _ hx)
      · rcases List.mem_append.mp hx with hx | hx
        · exact h.call_due x hx
        · rw [List.mem_singleton.mp hx]
          exact fun hfits' => absurd hfits' hfits
  · rwa [look_of_excess hexcess]

theorem Sound.givesBack (h : Sound total s) (hr : r ∈ s.held) :
    Sound total { s with
      budget := s.budget.putBack r.demand, held := s.held.erase r, calls := s.calls + 1 } := by
  have hsplit (k : Resource) : s.heldAmount k =
      r.demand.amount k + ((s.held.erase r).map fun x => x.demand.amount k).sum := by
    have hperm := (List.perm_cons_erase hr).map fun x => x.demand.amount k
    rw [heldAmount, hperm.sum_eq, List.map_cons, List.sum_cons]
  have hrest : ∀ x ∈ s.held.erase r, ∀ k, 0 ≤ x.demand.amount k :=
    fun x hx => h.held_nonneg x (List.mem_of_mem_erase hx)
  have hroom (k : Resource) : s.budget.free.amount k + r.demand.amount k ≤ total.amount k := by
    have := h.free_eq k
    have := hsplit k
    have := sum_amount_nonneg hrest k
    omega
  have hnonneg := h.held_nonneg r hr
  have hput := Budget.amount_putBack h.free_nonneg hnonneg hroom
  refine ⟨h.total_eq, fun k => ?_, fun k => ?_, hrest, h.within, fun _ _ _ => Nat.succ_pos _⟩
  · have hfree := h.free_eq k
    rw [hsplit] at hfree
    rw [hput]
    simp only [heldAmount]
    omega
  · have := h.free_nonneg k
    have := hnonneg k
    rw [hput]
    omega

theorem Step.sound (hstep : Step s s') (h : Sound total s) : Sound total s' := by
  cases hstep with
  | asks hnonneg => exact h.look hnonneg
  | @looksAgain r hr =>
    have hnonneg := fun k => (h.within r (List.mem_append_right _ hr) k).1
    refine Sound.look ⟨h.total_eq, h.free_eq, h.free_nonneg, h.held_nonneg, fun x hx => ?_, h.call_due⟩ hnonneg
    rcases List.mem_append.mp hx with hx | hx
    · exact h.within x (List.mem_append_left _ hx)
    · exact h.within x (List.mem_append_right _ (List.mem_of_mem_erase hx))
  | givesBack hr => exact h.givesBack hr
  | wakes _ =>
    refine ⟨h.total_eq, h.free_eq, h.free_nonneg, h.held_nonneg, fun x hx => ?_, nofun⟩
    exact h.within x (by simpa [or_comm] using hx)

theorem Run.sound (hrun : Run s s') (h : Sound total s) : Sound total s' := by
  induction hrun with
  | refl => exact h
  | tail _ hstep ih => exact hstep.sound ih

/-! ## Nobody is stuck -/

theorem Sound.fits_of_held_eq_nil (h : Sound total s) (hheld : s.held = [])
    (hr : r ∈ s.budget.waiting ++ s.awake) : s.budget.fits r.demand = true := by
  refine Budget.fits_iff.mpr fun k => ?_
  have hfree := h.free_eq k
  have hle := (h.within r hr k).2
  simp only [heldAmount, hheld, List.map_nil, List.sum_nil] at hfree
  omega

/-- A task that is awake looks again and is served. -/
theorem Sound.run_of_mem_awake (h : Sound total s) (hr : r ∈ s.awake) (hfits : s.budget.fits r.demand = true) :
    ∃ s', Run s s' ∧ s'.held = r :: s.held := by
  have hexcess : s.budget.excess r = "" :=
    h.excess_eq_empty_iff.mpr fun k => (h.within r (List.mem_append_right _ hr) k).2
  refine ⟨_, .single (.looksAgain hr), ?_⟩
  rw [look_of_fits (s := { s with awake := s.awake.erase r }) hexcess hfits]

/-- A sleeper that fits is woken by the call that is due, and then served. -/
theorem Sound.run_of_fits (h : Sound total s) (hr : r ∈ s.budget.waiting ++ s.awake)
    (hfits : s.budget.fits r.demand = true) : ∃ s', Run s s' ∧ s'.held = r :: s.held := by
  rcases List.mem_append.mp hr with hsleeps | hawake
  · have hwakes := Step.wakes (h.call_due r hsleeps hfits)
    obtain ⟨s', hrun, hheld⟩ :=
      (hwakes.sound h).run_of_mem_awake (List.mem_append_right _ hsleeps) hfits
    exact ⟨s', .head hwakes hrun, hheld⟩
  · exact h.run_of_mem_awake hawake hfits

/-! ## Giving back and serving at once -/

/-- The tasks that are awake look again in turn. -/
theorem run_serve (b : Budget) (hb : b.waiting = []) (asleep rs held : List Request)
    (hwithin : ∀ r ∈ rs, b.excess r = "") :
    Run ⟨{ b with waiting := asleep }, rs, held, 0⟩
      ⟨{ (b.serve rs).1 with waiting := asleep ++ (b.serve rs).1.waiting }, [],
        (b.serve rs).2.reverse ++ held, 0⟩ := by
  induction rs generalizing b asleep held with
  | nil =>
    rw [Budget.serve, hb, List.append_nil]
    exact .refl
  | cons r rs ih =>
    have hexcess := hwithin r List.mem_cons_self
    have hrest := fun x hx => hwithin x (List.mem_cons_of_mem r hx)
    let next : BudgetUse := ⟨{ b with waiting := asleep }, rs, held, 0⟩
    have hstep : Step ⟨{ b with waiting := asleep }, r :: rs, held, 0⟩ (next.look r) := by
      have h := Step.looksAgain (s := ⟨{ b with waiting := asleep }, r :: rs, held, 0⟩) List.mem_cons_self
      rwa [List.erase_cons_head] at h
    refine .head hstep ?_
    by_cases hfits : b.fits r.demand = true
    · have hlook := look_of_fits (s := next) ((b.excess_waiting asleep r).trans hexcess)
        ((b.fits_waiting asleep r.demand).trans hfits)
      have hserve : b.serve (r :: rs) =
          (((b.take r.demand).serve rs).1, r :: ((b.take r.demand).serve rs).2) := by
        simp [Budget.serve, hfits]
      rw [hlook, hserve, List.reverse_cons, List.append_assoc, List.singleton_append]
      exact ih (b.take r.demand) hb asleep (r :: held) hrest
    · have hlook := look_of_not_fits (s := next) ((b.excess_waiting asleep r).trans hexcess)
        (fun h => hfits ((b.fits_waiting asleep r.demand).symm.trans h))
      have hserve : b.serve (r :: rs) =
          ({ (b.serve rs).1 with waiting := r :: (b.serve rs).1.waiting }, (b.serve rs).2) := by
        simp [Budget.serve, hfits]
      have hrun := ih b hb (asleep ++ [r]) held hrest
      rw [List.append_assoc, List.singleton_append] at hrun
      rw [hlook, hserve]
      exact hrun

/-- When nobody is awake, to give something back and serve the sleepers in turn is a run. -/
theorem Sound.run_release (h : Sound total s) (hawake : s.awake = []) (hcalls : s.calls = 0) (hr : r ∈ s.held) :
    Run s ⟨(s.budget.release r.demand).1, [], (s.budget.release r.demand).2.reverse ++ s.held.erase r, 0⟩ := by
  obtain ⟨b, awake, held, calls⟩ := s
  obtain rfl : awake = [] := hawake
  obtain rfl : calls = 0 := hcalls
  have hgives := Step.givesBack hr
  have hwakes := Step.wakes (s := ⟨b.putBack r.demand, [], held.erase r, 0 + 1⟩) (Nat.succ_pos 0)
  refine .head hgives (.head hwakes ?_)
  refine run_serve { b.putBack r.demand with waiting := [] } rfl [] b.waiting (held.erase r) fun x hx => ?_
  refine Budget.excess_eq_empty_iff.mpr fun k => ?_
  have htotal : b.total = total := h.total_eq
  exact htotal ▸ (h.within x (List.mem_append_left _ hx) k).2

/-- **Nothing is handed out twice, and nobody waits in vain.** In every state that tasks with non-negative
requests can reach, in whatever order they take their steps: of each resource, what is free is the total
less what is held, and is between zero and the total. A request for more than a total is refused and changes
nothing, and no other one is refused. While nothing is held, each request that waits fits, and is awake or
about to be woken; it can go on to be granted. To give something back and serve the sleepers in one go is
among the runs. -/
theorem reachable_balanced (total : Demand) (htotal : ∀ k, 0 ≤ total.amount k) (s : BudgetUse)
    (hrun : Run (ofTotal total) s) :
    (∀ k, s.budget.free.amount k = total.amount k - s.heldAmount k ∧
      0 ≤ s.budget.free.amount k ∧ s.budget.free.amount k ≤ total.amount k) ∧
    (∀ r, (∃ k, total.amount k < r.demand.amount k) ↔
      ∃ message, s.budget.acquire r = (s.budget, .refused message)) ∧
    (s.held = [] → ∀ r ∈ s.budget.waiting ++ s.awake,
      s.budget.fits r.demand = true ∧ (r ∈ s.awake ∨ 0 < s.calls) ∧
      ∃ s', Run s s' ∧ s'.held = [r]) ∧
    (s.awake = [] → s.calls = 0 → ∀ r ∈ s.held,
      Run s ⟨(s.budget.release r.demand).1, [],
        (s.budget.release r.demand).2.reverse ++ s.held.erase r, 0⟩) := by
  have h : Sound total s := Run.sound hrun (sound_ofTotal htotal)
  refine ⟨fun k => ⟨h.free_eq k, h.free_nonneg k, ?_⟩, fun r => ?_, fun hheld r hr => ?_,
    fun hawake hcalls r hr => h.run_release hawake hcalls hr⟩
  · have hheld : 0 ≤ s.heldAmount k := sum_amount_nonneg h.held_nonneg k
    have := h.free_eq k
    omega
  · have hiff : (∃ k, total.amount k < r.demand.amount k) ↔ s.budget.excess r ≠ "" := by
      simp only [ne_eq, h.excess_eq_empty_iff, not_forall, not_le]
    rw [hiff]
    by_cases hexcess : s.budget.excess r = ""
    · by_cases hfits : s.budget.fits r.demand = true <;> simp [Budget.acquire, hexcess, hfits]
    · simp [Budget.acquire, hexcess]
  · have hfits := h.fits_of_held_eq_nil hheld hr
    obtain ⟨s', hserved, hheld'⟩ := h.run_of_fits hr hfits
    refine ⟨hfits, ?_, s', hserved, by rw [hheld', hheld]⟩
    exact (List.mem_append.mp hr).symm.imp_right fun hsleeps => h.call_due r hsleeps hfits

/-- Two tasks share a budget that does not suffice for both. One holds its part while the other asks, and has
just given it back: nobody holds anything, and the other one sleeps. -/
theorem reachable_balanced_sample :
    let total : Demand := ⟨2, 100⟩
    let other : Request := ⟨"b", ⟨1, 50⟩⟩
    let s : BudgetUse := ⟨⟨total, total, [other]⟩, [], [], 1⟩
    (∀ k, 0 ≤ total.amount k) ∧ Run (ofTotal total) s ∧ other ∈ s.budget.waiting ∧
      s.budget.fits other.demand = true ∧ ∃ s', Run s s' ∧ s'.held = [other] := by
  intro total other s
  let one : Request := ⟨"a", ⟨1, 100⟩⟩
  have hnonneg {d : Demand} (hcpu : 0 ≤ d.cpu.toInt) (hmem : 0 ≤ d.mem.toInt) (k : Resource) : 0 ≤ d.amount k := by
    cases k with
    | cpu => exact hcpu
    | mem => exact hmem
  have hrun : Run (ofTotal total) s := by
    let s₁ : BudgetUse := ⟨⟨total, ⟨1, 0⟩, []⟩, [], [one], 0⟩
    let s₂ : BudgetUse := ⟨⟨total, ⟨1, 0⟩, [other]⟩, [], [one], 0⟩
    have hone : Step (ofTotal total) s₁ := by
      rw [show s₁ = (ofTotal total).look one by decide +kernel]
      exact .asks (hnonneg (by decide) (by decide))
    have hother : Step s₁ s₂ := by
      rw [show s₂ = s₁.look other by decide +kernel]
      exact .asks (hnonneg (by decide) (by decide))
    exact .head hone (.head hother (.single (.givesBack (s := s₂) (r := one) List.mem_cons_self)))
  have htotal : ∀ k, 0 ≤ total.amount k := hnonneg (by decide) (by decide)
  obtain ⟨-, -, hfree, -⟩ := reachable_balanced total htotal s hrun
  obtain ⟨hfits, -, hserved⟩ := hfree rfl other List.mem_cons_self
  exact ⟨htotal, hrun, List.mem_cons_self, hfits, hserved⟩

end BudgetUse

end TwoPhase
