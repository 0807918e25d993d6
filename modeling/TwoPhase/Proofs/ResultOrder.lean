import TwoPhase.Report.Result
import Mathlib.Data.List.Nodup
import Mathlib.Data.List.Perm.Basic

/-!
# Distinct and sorted results

Adding results keeps the first of each key, and sorting puts the keys in order. A list of results whose keys
strictly increase is determined by its members.
-/

namespace TwoPhase

namespace Result.Key

/-- By path, then line, then column, then message. -/
def Lt (a b : Key) : Prop :=
  a.path < b.path ∨ a.path = b.path ∧
    (a.line < b.line ∨ a.line = b.line ∧
      (a.column < b.column ∨ a.column = b.column ∧ a.message < b.message))

variable {a b c : Key}

theorem le_iff : a.le b = true ↔ a.Lt b ∨ a = b := by
  obtain ⟨pa, la, ca, ma⟩ := a
  obtain ⟨pb, lb, cb, mb⟩ := b
  simp only [le, Lt, Key.mk.injEq]
  split
  · next h => simp [h]
  · next hp =>
    obtain rfl := not_not.mp hp
    split
    · next h => simp [h, List.lt_irrefl]
    · next hl =>
      obtain rfl := not_not.mp hl
      split
      · next h => simp [h, List.lt_irrefl, Int32.lt_irrefl]
      · next hc =>
        obtain rfl := not_not.mp hc
        simp [List.lt_irrefl, Int32.lt_irrefl, List.le_iff_lt_or_eq]

theorem lt_irrefl (a : Key) : ¬ a.Lt a := by
  simp [Lt, List.lt_irrefl, Int32.lt_irrefl]

theorem Lt.trans (hab : a.Lt b) (hbc : b.Lt c) : a.Lt c := by
  rcases hab with hp | ⟨hp, hab⟩ <;> rcases hbc with hp' | ⟨hp', hbc⟩
  · exact .inl (List.lt_trans hp hp')
  · exact .inl (hp' ▸ hp)
  · exact .inl (hp ▸ hp')
  refine .inr ⟨hp.trans hp', ?_⟩
  rcases hab with hl | ⟨hl, hab⟩ <;> rcases hbc with hl' | ⟨hl', hbc⟩
  · exact .inl (Int32.lt_trans hl hl')
  · exact .inl (hl' ▸ hl)
  · exact .inl (hl ▸ hl')
  refine .inr ⟨hl.trans hl', ?_⟩
  rcases hab with hc | ⟨hc, hm⟩ <;> rcases hbc with hc' | ⟨hc', hm'⟩
  · exact .inl (Int32.lt_trans hc hc')
  · exact .inl (hc' ▸ hc)
  · exact .inl (hc ▸ hc')
  · exact .inr ⟨hc.trans hc', List.lt_trans hm hm'⟩

theorem lt_trichotomy (a b : Key) : a.Lt b ∨ a = b ∨ b.Lt a := by
  obtain ⟨pa, la, ca, ma⟩ := a
  obtain ⟨pb, lb, cb, mb⟩ := b
  simp only [Lt, Key.mk.injEq]
  rcases Std.lt_trichotomy pa pb with hp | rfl | hp
  · exact .inl (.inl hp)
  · rcases Std.lt_trichotomy la lb with hl | rfl | hl
    · exact .inl (.inr ⟨rfl, .inl hl⟩)
    · rcases Std.lt_trichotomy ca cb with hc | rfl | hc
      · exact .inl (.inr ⟨rfl, .inr ⟨rfl, .inl hc⟩⟩)
      · rcases Std.lt_trichotomy ma mb with hm | rfl | hm
        · exact .inl (.inr ⟨rfl, .inr ⟨rfl, .inr ⟨rfl, hm⟩⟩⟩)
        · exact .inr (.inl ⟨rfl, rfl, rfl, rfl⟩)
        · exact .inr (.inr (.inr ⟨rfl, .inr ⟨rfl, .inr ⟨rfl, hm⟩⟩⟩))
      · exact .inr (.inr (.inr ⟨rfl, .inr ⟨rfl, .inl hc⟩⟩))
    · exact .inr (.inr (.inr ⟨rfl, .inl hl⟩))
  · exact .inr (.inr (.inl hp))

theorem le_trans (hab : a.le b = true) (hbc : b.le c = true) : a.le c = true := by
  rw [le_iff] at hab hbc ⊢
  rcases hab with hab | rfl
  · rcases hbc with hbc | rfl
    · exact .inl (hab.trans hbc)
    · exact .inl hab
  · exact hbc

theorem le_total (a b : Key) : (a.le b || b.le a) = true := by
  rw [Bool.or_eq_true, le_iff, le_iff]
  rcases lt_trichotomy a b with h | h | h
  · exact .inl (.inl h)
  · exact .inl (.inr h)
  · exact .inr (.inl h)

end Result.Key

namespace Results

variable {rs new : Results} {r : Result}

/-- No two results have the same key. -/
def Distinct (rs : Results) : Prop :=
  (rs.map Result.key).Nodup

/-- The keys strictly increase. -/
def Increasing (rs : Results) : Prop :=
  rs.Pairwise fun a b => a.key.Lt b.key

/-! ### Adding -/

theorem add_distinct (h : rs.Distinct) (r : Result) : (rs.add r).Distinct := by
  unfold add
  split
  · exact h
  · next hnew =>
    have hnotin : r.key ∉ rs.map Result.key := by simpa using hnew
    rw [Distinct, List.map_append]
    exact List.nodup_append_comm.mp (List.nodup_cons.mpr ⟨hnotin, h⟩)

theorem addAll_distinct (h : rs.Distinct) (new : Results) : (rs.addAll new).Distinct := by
  induction new generalizing rs with
  | nil => exact h
  | cons r new ih => exact ih (add_distinct h r)

/-- The first result of a key stays the first. -/
theorem find?_add (rs : Results) (r : Result) (k : Result.Key) :
    (rs.add r).find? (·.key = k) = (rs ++ [r]).find? (·.key = k) := by
  unfold add
  split
  · next hold =>
    rw [List.find?_append]
    cases hfind : rs.find? (·.key = k) with
    | some _ => rfl
    | none =>
      have hne : r.key ≠ k := by
        rintro rfl
        obtain ⟨x, hx, hkey⟩ := List.any_eq_true.mp hold
        exact List.find?_eq_none.mp hfind x hx hkey
      simp [hne]
  · rfl

theorem find?_addAll (rs new : Results) (k : Result.Key) :
    (rs.addAll new).find? (·.key = k) = (rs ++ new).find? (·.key = k) := by
  induction new generalizing rs with
  | nil => simp [addAll]
  | cons r new ih =>
    calc ((rs.add r).addAll new).find? (·.key = k)
      _ = (rs.add r ++ new).find? (·.key = k) := ih (rs.add r)
      _ = ((rs ++ [r]) ++ new).find? (·.key = k) := by
        rw [List.find?_append, find?_add, ← List.find?_append]
      _ = (rs ++ r :: new).find? (·.key = k) := by simp

theorem Distinct.mem_iff (h : rs.Distinct) : r ∈ rs ↔ rs.find? (·.key = r.key) = some r := by
  refine ⟨fun hr => ?_, List.mem_of_find?_eq_some⟩
  cases hfind : rs.find? (·.key = r.key) with
  | none => exact absurd (List.find?_eq_none.mp hfind r hr) (by simp)
  | some x =>
    have hkey : x.key = r.key := by simpa using List.find?_some hfind
    rw [List.inj_on_of_nodup_map h (List.mem_of_find?_eq_some hfind) hr hkey]

theorem unique_distinct (rs : Results) : rs.unique.Distinct :=
  addAll_distinct (by simp [Distinct]) rs

/-- The distinct results are the first ones of their keys. -/
theorem mem_unique : r ∈ rs.unique ↔ rs.find? (·.key = r.key) = some r := by
  rw [rs.unique_distinct.mem_iff, unique, find?_addAll, List.nil_append]

/-- If the key determines the result, then nothing is lost. -/
theorem mem_unique_of_key (h : ∀ a ∈ rs, ∀ b ∈ rs, a.key = b.key → a = b) :
    r ∈ rs.unique ↔ r ∈ rs := by
  rw [mem_unique]
  refine ⟨List.mem_of_find?_eq_some, fun hr => ?_⟩
  cases hfind : rs.find? (·.key = r.key) with
  | none => exact absurd (List.find?_eq_none.mp hfind r hr) (by simp)
  | some x =>
    have hkey : x.key = r.key := by simpa using List.find?_some hfind
    rw [h x (List.mem_of_find?_eq_some hfind) r hr hkey]

/-! ### Sorting -/

theorem sorted_perm (rs : Results) : rs.sorted.Perm rs :=
  List.mergeSort_perm rs _

theorem sorted_pairwise (rs : Results) : rs.sorted.Pairwise fun a b => a.key.le b.key = true := by
  apply List.pairwise_mergeSort
  · intro a b c hab hbc
    exact Result.Key.le_trans hab hbc
  · intro a b
    exact Result.Key.le_total a.key b.key

theorem Distinct.increasing (h : rs.Distinct) (hle : rs.Pairwise fun a b => a.key.le b.key = true) :
    rs.Increasing := by
  refine (hle.and (List.pairwise_map.mp h)).imp fun ⟨hle, hne⟩ => ?_
  exact (Result.Key.le_iff.mp hle).resolve_right hne

theorem sorted_increasing (h : rs.Distinct) : rs.sorted.Increasing := by
  have hsorted : rs.sorted.Distinct := ((sorted_perm rs).map _).nodup_iff.mpr h
  exact hsorted.increasing rs.sorted_pairwise

theorem Increasing.distinct (h : rs.Increasing) : rs.Distinct := by
  refine List.pairwise_map.mpr (h.imp fun hlt heq => ?_)
  exact Result.Key.lt_irrefl _ (heq ▸ hlt)

/-- A list with strictly increasing keys is determined by its members. -/
theorem Increasing.eq_of_mem_iff {rs' : Results} (h : rs.Increasing) (h' : rs'.Increasing)
    (hmem : ∀ r, r ∈ rs ↔ r ∈ rs') : rs = rs' := by
  have hperm : rs.Perm rs' :=
    (List.perm_ext_iff_of_nodup h.distinct.of_map h'.distinct.of_map).mpr hmem
  refine hperm.eq_of_pairwise (fun a b _ _ hab hba => ?_) h h'
  exact absurd (hab.trans hba) (Result.Key.lt_irrefl _)

end Results

end TwoPhase
