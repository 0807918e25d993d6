import Mathlib.Data.List.Basic
import Mathlib.Data.List.Induction
import TwoPhase.Report.Filter
import TwoPhase.RuleList

/-!
# The number of results that a rule may report

A rule may limit its results, and the first ones stay. The limit counts the results that are kept, which comes
to the same as counting those of the input: below the limit none has been dropped yet (`Tallies`). So whether a
result stays depends on the results before it and on nothing else (`limit_concat`), and what is left can be
limited again without loss.
-/

namespace TwoPhase

namespace RuleList

/-- No request for the rule sets a limit. -/
def Unlimited (rules : RuleList) (rule : Bytes) : Prop :=
  ∀ req ∈ rules, Bytes.ofString req.name = rule → req.options.maxReports = none

/-- The last request for the rule that sets a limit sets it to `n`. -/
def LimitedTo (rules : RuleList) (rule : Bytes) (n : Int) : Prop :=
  ∃ before req after, rules = before ++ req :: after ∧ Bytes.ofString req.name = rule ∧
    req.options.maxReports = some n ∧ Unlimited after rule

/-- A result may be reported behind those in `before`: it is of no known rule, or of a rule without a limit, or
fewer results of its rule come before it than the limit says. -/
def Admits (rules : RuleList) (before : Results) (r : Result) : Prop :=
  r.rule? = none ∨ ∃ rule, r.rule? = some rule ∧
    (rules.Unlimited rule ∨
      ∃ n, rules.LimitedTo rule n ∧ (before.countP (·.rule? = some rule) : Int) < n)

variable {rules : RuleList} {req : RuleRequest} {rule : Bytes} {n : Int}

theorem unlimited_concat :
    Unlimited (rules ++ [req]) rule ↔
      rules.Unlimited rule ∧ (Bytes.ofString req.name = rule → req.options.maxReports = none) := by
  simp only [Unlimited, List.forall_mem_append, List.forall_mem_singleton]

theorem limitedTo_concat :
    LimitedTo (rules ++ [req]) rule n ↔
      Bytes.ofString req.name = rule ∧ req.options.maxReports = some n ∨
      rules.LimitedTo rule n ∧ (Bytes.ofString req.name = rule → req.options.maxReports = none) := by
  constructor
  · rintro ⟨before, last, after, hrules, hname, hlimit, hafter⟩
    rcases List.eq_nil_or_concat after with rfl | ⟨after, later, rfl⟩
    · obtain ⟨rfl, hreq⟩ := List.append_inj' hrules rfl
      obtain rfl := List.singleton_inj.mp hreq
      exact .inl ⟨hname, hlimit⟩
    · rw [List.concat_eq_append] at hrules hafter
      rw [← List.cons_append, ← List.append_assoc] at hrules
      obtain ⟨rfl, hreq⟩ := List.append_inj' hrules rfl
      obtain rfl := List.singleton_inj.mp hreq
      obtain ⟨hafter, hlater⟩ := unlimited_concat.mp hafter
      exact .inr ⟨⟨before, last, after, rfl, hname, hlimit, hafter⟩, hlater⟩
  · rintro (⟨hname, hlimit⟩ | ⟨⟨before, last, after, rfl, hname, hlimit, hafter⟩, hlater⟩)
    · exact ⟨rules, req, [], rfl, hname, hlimit, List.forall_mem_nil _⟩
    · refine ⟨before, last, after ++ [req], ?_, hname, hlimit, unlimited_concat.mpr ⟨hafter, hlater⟩⟩
      rw [List.append_assoc, List.cons_append]

/-- A further request comes first when limits are looked up from behind. -/
theorem lookup_limits_concat (rules : RuleList) (req : RuleRequest) (rule : Bytes) :
    (limits (rules ++ [req])).reverse.lookup rule =
      if Bytes.ofString req.name = rule ∧ req.options.maxReports.isSome then req.options.maxReports
      else rules.limits.reverse.lookup rule := by
  simp only [limits, List.filterMap_append, List.reverse_append, List.filterMap_cons, List.filterMap_nil]
  cases req.options.maxReports with
  | none => simp
  | some n =>
    by_cases hname : Bytes.ofString req.name = rule
    · simp [hname]
    · simp [hname, List.lookup_cons, beq_eq_false_iff_ne.mpr (Ne.symm hname)]

theorem lookup_limits_eq_none_iff : rules.limits.reverse.lookup rule = none ↔ rules.Unlimited rule := by
  induction rules using List.reverseRecOn with
  | nil => simp [limits, Unlimited]
  | append_singleton rules req ih =>
    rw [lookup_limits_concat, unlimited_concat, ← ih]
    cases req.options.maxReports <;> by_cases hname : Bytes.ofString req.name = rule <;> simp [hname]

theorem lookup_limits_eq_some_iff :
    rules.limits.reverse.lookup rule = some n ↔ rules.LimitedTo rule n := by
  induction rules using List.reverseRecOn with
  | nil => simp [limits, LimitedTo]
  | append_singleton rules req ih =>
    rw [lookup_limits_concat, limitedTo_concat, ← ih]
    cases req.options.maxReports <;> by_cases hname : Bytes.ofString req.name = rule <;> simp [hname]

end RuleList

namespace Results

variable {limits : List (Bytes × Int)} {seen : List Bytes} {before : Results} {r : Result}
  {rule : Bytes} {n : Int}

/-- The rule that a result counts for, with its limit. -/
def quota? (limits : List (Bytes × Int)) (r : Result) : Option (Bytes × Int) :=
  r.rule?.bind fun rule => (limits.reverse.lookup rule).map (rule, ·)

theorem quota?_eq_some_iff :
    quota? limits r = some (rule, n) ↔ r.rule? = some rule ∧ limits.reverse.lookup rule = some n := by
  simp only [quota?, Option.bind_eq_some_iff, Option.map_eq_some_iff, Prod.mk.injEq]
  constructor
  · rintro ⟨_, hrule, _, hlimit, rfl, rfl⟩
    exact ⟨hrule, hlimit⟩
  · rintro ⟨hrule, hlimit⟩
    exact ⟨rule, hrule, n, hlimit, rfl, rfl⟩

theorem quota?_eq_none_iff :
    quota? limits r = none ↔ ∀ rule, r.rule? = some rule → limits.reverse.lookup rule = none := by
  simp only [quota?, Option.bind_eq_none_iff, Option.map_eq_none_iff]

theorem limitFrom_of_quota?_eq_none (h : quota? limits r = none) (rs : Results) :
    limitFrom limits seen (r :: rs) = r :: limitFrom limits seen rs := by
  rw [limitFrom]
  split
  · rfl
  · next rule hrule => rw [quota?_eq_none_iff.mp h rule hrule]

theorem limitFrom_of_quota?_eq_some (h : quota? limits r = some (rule, n)) (rs : Results) :
    limitFrom limits seen (r :: rs) =
      if (seen.count rule : Int) < n then r :: limitFrom limits (rule :: seen) rs
      else limitFrom limits seen rs := by
  obtain ⟨hrule, hlimit⟩ := quota?_eq_some_iff.mp h
  simp only [limitFrom, hrule, hlimit]

/-- Whether a result stays behind those in `before`. -/
def admits (limits : List (Bytes × Int)) (before : Results) (r : Result) : Bool :=
  (quota? limits r).all fun (rule, n) => (before.countP (·.rule? = some rule) : Int) < n

theorem admits_iff {rules : RuleList} :
    admits rules.limits before r = true ↔ rules.Admits before r := by
  unfold admits RuleList.Admits
  cases hquota : quota? rules.limits r with
  | none =>
    have hfree := quota?_eq_none_iff.mp hquota
    simp only [Option.all_none, true_iff]
    cases hrule : r.rule? with
    | none => exact .inl rfl
    | some rule => exact .inr ⟨rule, rfl, .inl (RuleList.lookup_limits_eq_none_iff.mp (hfree rule hrule))⟩
  | some q =>
    obtain ⟨rule, n⟩ := q
    obtain ⟨hrule, hlimit⟩ := quota?_eq_some_iff.mp hquota
    have hlimited (m : Int) : rules.LimitedTo rule m ↔ n = m := by
      rw [← RuleList.lookup_limits_eq_some_iff, hlimit, Option.some.injEq]
    have hunlimited : ¬ rules.Unlimited rule := by
      rw [← RuleList.lookup_limits_eq_none_iff, hlimit]
      exact Option.some_ne_none n
    simp [hrule, hlimited, hunlimited]

/-! ### Counting what is kept and counting what comes -/

/-- What has been kept of a rule is what has come of it, up to the limit. -/
def Tallies (limits : List (Bytes × Int)) (seen : List Bytes) (before : Results) : Prop :=
  ∀ rule n, limits.reverse.lookup rule = some n →
    seen.count rule = min (before.countP (·.rule? = some rule)) n.toNat

theorem tallies_nil (limits : List (Bytes × Int)) : Tallies limits [] [] := by
  intro rule n _
  simp

theorem countP_rule_concat (before : Results) (r : Result) (rule : Bytes) :
    (before ++ [r]).countP (·.rule? = some rule) =
      before.countP (·.rule? = some rule) + if r.rule? = some rule then 1 else 0 := by
  simp [List.countP_append, List.countP_singleton]

/-- A result without a limit counts for no rule that has one. -/
theorem Tallies.pass (h : Tallies limits seen before) (hquota : quota? limits r = none) :
    Tallies limits seen (before ++ [r]) := by
  intro rule n hn
  have hother : r.rule? ≠ some rule := fun hrule => by
    simp [quota?_eq_none_iff.mp hquota rule hrule] at hn
  rw [countP_rule_concat, if_neg hother, Nat.add_zero, h rule n hn]

theorem Tallies.count (h : Tallies limits seen before) (hquota : quota? limits r = some (rule, n)) :
    Tallies limits (if (seen.count rule : Int) < n then rule :: seen else seen) (before ++ [r]) := by
  obtain ⟨hrule, hlimit⟩ := quota?_eq_some_iff.mp hquota
  intro rule' m hm
  have hcount := h rule' m hm
  rw [countP_rule_concat, hrule]
  by_cases hsame : rule = rule'
  · subst hsame
    obtain rfl : n = m := Option.some.inj (hlimit.symm.trans hm)
    split <;> simp <;> omega
  · split <;> simp [hsame, hcount]

/-- Below the limit nothing has been dropped, so both counts are on the same side of it. -/
theorem Tallies.admits_eq (h : Tallies limits seen before) (hquota : quota? limits r = some (rule, n)) :
    admits limits before r = decide ((seen.count rule : Int) < n) := by
  have hcount := h rule n (quota?_eq_some_iff.mp hquota).2
  rw [admits, hquota, Option.all_some, decide_eq_decide]
  omega

/-- One more result is kept or not as its predecessors say, and the tally goes on. -/
theorem limitFrom_cons (h : Tallies limits seen before) (r : Result) :
    ∃ seen', Tallies limits seen' (before ++ [r]) ∧
      ∀ rs, limitFrom limits seen (r :: rs) =
        (if admits limits before r then [r] else []) ++ limitFrom limits seen' rs := by
  cases hquota : quota? limits r with
  | none =>
    refine ⟨seen, h.pass hquota, fun rs => ?_⟩
    rw [limitFrom_of_quota?_eq_none hquota, admits, hquota]
    rfl
  | some q =>
    refine ⟨_, h.count hquota, fun rs => ?_⟩
    rw [limitFrom_of_quota?_eq_some hquota, h.admits_eq hquota]
    by_cases hroom : (seen.count q.1 : Int) < q.2 <;> simp [hroom]

theorem limitFrom_append (h : Tallies limits seen before) (rs : Results) :
    ∃ seen', Tallies limits seen' (before ++ rs) ∧
      ∀ rest, limitFrom limits seen (rs ++ rest) = limitFrom limits seen rs ++ limitFrom limits seen' rest := by
  induction rs generalizing seen before with
  | nil => exact ⟨seen, by rwa [List.append_nil], fun rest => rfl⟩
  | cons r rs ih =>
    obtain ⟨seen₁, h₁, hcons⟩ := limitFrom_cons h r
    obtain ⟨seen₂, h₂, happend⟩ := ih h₁
    refine ⟨seen₂, by rwa [List.append_cons], fun rest => ?_⟩
    rw [List.cons_append, hcons, hcons, happend, List.append_assoc]

/-- Whether the next result stays depends only on the results before it. -/
theorem limit_concat (limits : List (Bytes × Int)) (rs : Results) (r : Result) :
    limit (rs ++ [r]) limits = limit rs limits ++ if admits limits rs r then [r] else [] := by
  obtain ⟨seen, h, happend⟩ := limitFrom_append (tallies_nil limits) rs
  obtain ⟨seen', -, hcons⟩ := limitFrom_cons h r
  rw [limit, happend, hcons, limitFrom, List.append_nil, List.nil_append, limit]

/-! ### What is left -/

theorem limit_sublist (rs : Results) (limits : List (Bytes × Int)) : (rs.limit limits).Sublist rs := by
  induction rs using List.reverseRecOn with
  | nil => exact List.Sublist.slnil
  | append_singleton rs r ih =>
    rw [limit_concat]
    split
    · exact ih.append_right [r]
    · rw [List.append_nil]
      exact ih.trans (List.sublist_append_left rs [r])

/-- Fewer results before it leave more room. -/
theorem admits_of_sublist {kept : Results} (hkept : kept.Sublist before)
    (h : admits limits before r = true) : admits limits kept r = true := by
  unfold admits at h ⊢
  cases hquota : quota? limits r with
  | none => rfl
  | some q =>
    have hle := hkept.countP_le (p := (·.rule? = some q.1))
    simp only [hquota, Option.all_some, decide_eq_true_eq] at h ⊢
    omega

theorem limit_limit (rs : Results) (limits : List (Bytes × Int)) :
    (rs.limit limits).limit limits = rs.limit limits := by
  induction rs using List.reverseRecOn with
  | nil => rfl
  | append_singleton rs r ih =>
    rw [limit_concat]
    split
    · next h => rw [limit_concat, ih, if_pos (admits_of_sublist (limit_sublist rs limits) h)]
    · rw [List.append_nil, ih]

/-- The positions of the results that stay. -/
def admitted (limits : List (Bytes × Int)) (rs : Results) : List Nat :=
  (List.range rs.length).filter fun i => rs[i]?.any (admits limits (rs.take i))

theorem mem_admitted {rs : Results} {i : Nat} :
    i ∈ admitted limits rs ↔ ∃ r, rs[i]? = some r ∧ admits limits (rs.take i) r = true := by
  rw [admitted, List.mem_filter, List.mem_range]
  constructor
  · rintro ⟨hlt, hany⟩
    rw [List.getElem?_eq_getElem hlt] at hany
    exact ⟨rs[i], List.getElem?_eq_getElem hlt, hany⟩
  · rintro ⟨r, hr, hadmits⟩
    obtain ⟨hlt, -⟩ := List.getElem?_eq_some_iff.mp hr
    rw [hr]
    exact ⟨hlt, hadmits⟩

theorem admitted_concat (limits : List (Bytes × Int)) (rs : Results) (r : Result) :
    admitted limits (rs ++ [r]) =
      admitted limits rs ++ if admits limits rs r then [rs.length] else [] := by
  have hold : (List.range rs.length).filter (fun i => (rs ++ [r])[i]?.any (admits limits ((rs ++ [r]).take i))) =
      admitted limits rs := by
    apply List.filter_congr
    intro i hi
    have hlt : i < rs.length := List.mem_range.mp hi
    rw [List.getElem?_append_left hlt, List.take_append_of_le_length (Nat.le_of_lt hlt)]
  rw [admitted, List.length_append, List.length_singleton, List.range_succ, List.filter_append, hold]
  simp [List.filter_cons]

theorem limit_eq_filterMap_admitted (rs : Results) (limits : List (Bytes × Int)) :
    rs.limit limits = (admitted limits rs).filterMap (rs[·]?) := by
  induction rs using List.reverseRecOn with
  | nil => rfl
  | append_singleton rs r ih =>
    have hold : (admitted limits rs).filterMap ((rs ++ [r])[·]?) = (admitted limits rs).filterMap (rs[·]?) := by
      apply List.filterMap_congr
      intro i hi
      have hlt : i < rs.length := List.mem_range.mp (List.mem_of_mem_filter hi)
      exact List.getElem?_append_left hlt
    rw [limit_concat, admitted_concat, List.filterMap_append, hold, ih]
    split <;> simp

end Results

/-- **A rule reports as many results as it may, and the first ones.** What is left of a list are the results at
the positions that the rules admit, in order: a result of no known rule, of a rule without a limit, or with
fewer results of its rule before it in the whole list than the last limit set for the rule. Limiting what is
left again changes nothing. -/
theorem Results.limit_keeps_admitted (rs : Results) (rules : RuleList) :
    (∃ kept : List Nat, kept.Pairwise (· < ·) ∧ rs.limit rules.limits = kept.filterMap (rs[·]?) ∧
      ∀ i, i ∈ kept ↔ ∃ r, rs[i]? = some r ∧ rules.Admits (rs.take i) r) ∧
    (rs.limit rules.limits).Sublist rs ∧
    (rs.limit rules.limits).limit rules.limits = rs.limit rules.limits := by
  refine ⟨⟨admitted rules.limits rs, ?_, limit_eq_filterMap_admitted rs _, fun i => ?_⟩,
    limit_sublist rs _, limit_limit rs _⟩
  · exact List.pairwise_lt_range.filter _
  · simp only [mem_admitted, admits_iff]

end TwoPhase
