import TwoPhase.Proofs.ResultOrder

/-!
# The first result of each key

Results are added one by one or as whole lists, and of each key the first stays, in the order in which the keys
come up. Sorting leaves the results of one key in their order, so the first of them is the same before and
behind it; hence it does not matter whether results are sorted or made distinct first.
-/

namespace TwoPhase

/-- A call that adds to results: one of them, or a list. -/
inductive Addition where
  | one (r : Result)
  | list (rs : Results)

namespace Addition

/-- What is added, in order. -/
def results : Addition → Results
  | one r => [r]
  | list rs => rs

/-- The results that are there behind a call. -/
def addTo (rs : Results) : Addition → Results
  | one r => rs.add r
  | list new => rs.addAll new

theorem addTo_eq (rs : Results) (a : Addition) : a.addTo rs = rs.addAll a.results := by
  cases a <;> rfl

end Addition

namespace Results

variable {rs kept before : Results}

/-- The results that are there behind these calls, if there are none before. -/
def collect (calls : List Addition) : Results :=
  calls.foldl Addition.addTo []

/-- `kept` has every key of `rs` once and no other, and with each key the first result of it. -/
structure KeepsFirsts (rs kept : Results) : Prop where
  count_key : ∀ k, (kept.map Result.key).count k = if k ∈ rs.map Result.key then 1 else 0
  first : ∀ k, kept.find? (·.key = k) = rs.find? (·.key = k)

/-- The results of `kept` stand in the order in which their keys come up in `rs`. -/
def InOrderOf (rs kept : Results) : Prop :=
  kept.Pairwise fun a b => rs.findIdx (·.key = a.key) < rs.findIdx (·.key = b.key)

theorem mem_keys_iff (rs : Results) (k : Result.Key) :
    k ∈ rs.map Result.key ↔ (rs.find? (·.key = k)).isSome := by
  simp

theorem Distinct.keepsFirsts (h : kept.Distinct)
    (hfirst : ∀ k, kept.find? (·.key = k) = rs.find? (·.key = k)) : rs.KeepsFirsts kept := by
  refine ⟨fun k => ?_, hfirst⟩
  have hmem : k ∈ kept.map Result.key ↔ k ∈ rs.map Result.key := by
    rw [mem_keys_iff, mem_keys_iff, hfirst]
  split
  · next hk => exact List.count_eq_one_of_mem h (hmem.mpr hk)
  · next hk => exact List.count_eq_zero_of_not_mem fun hkept => hk (hmem.mp hkept)

/-! ### Adding -/

theorem unique_keepsFirsts (rs : Results) : rs.KeepsFirsts rs.unique := by
  apply rs.unique_distinct.keepsFirsts
  intro k
  rw [unique, find?_addAll, List.nil_append]

theorem add_sublist (rs : Results) (r : Result) : (rs.add r).Sublist (rs ++ [r]) := by
  unfold add
  split
  · exact List.sublist_append_left rs [r]
  · exact List.Sublist.refl _

theorem addAll_sublist (rs new : Results) : (rs.addAll new).Sublist (rs ++ new) := by
  induction new generalizing rs with
  | nil => exact List.sublist_append_left rs []
  | cons r new ih =>
    apply (ih (rs.add r)).trans
    rw [List.append_cons]
    exact (add_sublist rs r).append_right new

/-- What is added keeps its place among all that came: a key that is new comes up behind the others. -/
theorem InOrderOf.add (h : before.InOrderOf kept)
    (hkeys : ∀ k, k ∈ kept.map Result.key ↔ k ∈ before.map Result.key) (r : Result) :
    (before ++ [r]).InOrderOf (kept.add r) := by
  have hlt {a : Result} (ha : a ∈ kept) : before.findIdx (·.key = a.key) < before.length := by
    obtain ⟨x, hx, hkey⟩ := List.mem_map.mp ((hkeys a.key).mp (List.mem_map_of_mem ha))
    exact List.findIdx_lt_length_of_exists ⟨x, hx, by simpa using hkey⟩
  have hold : (before ++ [r]).InOrderOf kept := by
    apply h.imp_of_mem
    intro a b ha hb hab
    rwa [List.findIdx_append, List.findIdx_append, if_pos (hlt ha), if_pos (hlt hb)]
  unfold Results.add
  split
  · exact hold
  · next hnew =>
    have hnotin : r.key ∉ before.map Result.key := by
      rw [← hkeys]
      simpa using hnew
    have hlast : before.findIdx (·.key = r.key) = before.length := by
      apply List.findIdx_eq_length_of_false
      intro x hx
      have hne : x.key ≠ r.key := fun hkey => hnotin (hkey ▸ List.mem_map_of_mem hx)
      simpa using hne
    apply List.pairwise_append.mpr
    refine ⟨hold, List.pairwise_singleton _ _, fun a ha b hb => ?_⟩
    obtain rfl := List.mem_singleton.mp hb
    rw [List.findIdx_append, List.findIdx_append, if_pos (hlt ha), hlast, if_neg (Nat.lt_irrefl _)]
    exact Nat.lt_of_lt_of_le (hlt ha) (Nat.le_add_left _ _)

theorem InOrderOf.addAll (h : before.InOrderOf kept)
    (hkeys : ∀ k, k ∈ kept.map Result.key ↔ k ∈ before.map Result.key) (new : Results) :
    (before ++ new).InOrderOf (kept.addAll new) := by
  induction new generalizing before kept with
  | nil =>
    rw [List.append_nil]
    exact h
  | cons r new ih =>
    rw [List.append_cons]
    apply ih (h.add hkeys r)
    intro k
    rw [mem_keys_iff, find?_add, ← mem_keys_iff, List.map_append, List.map_append, List.mem_append,
      List.mem_append, hkeys]

theorem unique_inOrderOf (rs : Results) : rs.InOrderOf rs.unique :=
  have hnone : InOrderOf [] [] := .nil
  hnone.addAll (fun _ => .rfl) rs

/-- Calls add what they add one by one. -/
theorem collect_eq (calls : List Addition) : collect calls = unique (calls.flatMap Addition.results) := by
  rw [unique, addAll, List.foldl_flatMap, collect]
  congr 1
  funext rs a
  exact a.addTo_eq rs

/-! ### Sorting -/

/-- The results of one key keep their order. -/
theorem filter_sorted (rs : Results) (k : Result.Key) :
    rs.sorted.filter (·.key = k) = rs.filter (·.key = k) := by
  have hequal : (rs.filter (·.key = k)).Pairwise fun a b => a.key.le b.key = true := by
    apply List.pairwise_of_forall_mem_list
    intro a ha b hb
    have hkey : a.key = b.key := by simp_all
    exact Result.Key.le_iff.mpr (.inr hkey)
  have hsub : (rs.filter (·.key = k)).Sublist rs.sorted := by
    apply List.sublist_mergeSort _ _ hequal List.filter_sublist
    · intro a b c
      exact Result.Key.le_trans
    · intro a b
      exact Result.Key.le_total a.key b.key
  have hsub' := hsub.filter (·.key = k)
  simp only [List.filter_filter, Bool.and_self] at hsub'
  exact (hsub'.eq_of_length (rs.sorted_perm.filter _).length_eq.symm).symm

theorem find?_sorted (rs : Results) (k : Result.Key) :
    rs.sorted.find? (·.key = k) = rs.find? (·.key = k) := by
  rw [← List.head?_filter, filter_sorted, List.head?_filter]

theorem unique_sorted_increasing (rs : Results) : rs.sorted.unique.Increasing :=
  rs.sorted.unique_distinct.increasing (rs.sorted_pairwise.sublist (addAll_sublist [] rs.sorted))

theorem sorted_unique_eq (rs : Results) : rs.unique.sorted = rs.sorted.unique := by
  apply (sorted_increasing rs.unique_distinct).eq_of_mem_iff rs.unique_sorted_increasing
  intro r
  rw [rs.unique.sorted_perm.mem_iff, mem_unique, mem_unique, find?_sorted]

end Results

/-- **Results are sorted and made distinct in either order, and the first of each key stays.** The list that comes
out strictly increases by path, line, column and message; it has every key once, with the first result of it.
Likewise any calls that add results leave the first of each key that they add, in the order of the calls. -/
theorem Results.sorted_unique_keepsFirsts (rs : Results) (calls : List Addition) :
    rs.unique.sorted = rs.sorted.unique ∧ rs.unique.sorted.Increasing ∧ rs.KeepsFirsts rs.unique.sorted ∧
      KeepsFirsts (calls.flatMap Addition.results) (collect calls) ∧
      InOrderOf (calls.flatMap Addition.results) (collect calls) := by
  have hincreasing := sorted_increasing rs.unique_distinct
  refine ⟨rs.sorted_unique_eq, hincreasing, ?_, ?_, ?_⟩
  · apply hincreasing.distinct.keepsFirsts
    intro k
    rw [find?_sorted, rs.unique_keepsFirsts.first]
  · rw [collect_eq]
    exact unique_keepsFirsts _
  · rw [collect_eq]
    exact unique_inOrderOf _

end TwoPhase
