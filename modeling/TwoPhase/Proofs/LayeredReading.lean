import TwoPhase.CompilationUnit.Json
import TwoPhase.Proofs.JsonText

/-!
# Records read from layers of values

Two directions about `Json.Layers`. What has been read goes back to values in the layers, so that it nests
no deeper than they do (`Layers.within_of_mem_list?`, `Layers.exists_of_optional?`,
`Layers.exists_within_of_members?`). And a member that is written, or left out because it is empty, is read
back as what it was (`KeptMember.text`, `KeptMember.flag`, `KeptMember.int`, `KeptMember.list`,
`Kept.optional`).
-/

namespace TwoPhase

namespace Json

/-! ## Values that may be written -/

theorem nestingItems_le {xs : List Json} {n : Nat} : nestingItems xs ≤ n ↔ ∀ x ∈ xs, x.nesting ≤ n := by
  induction xs with
  | nil => simp [nestingItems]
  | cons x xs ih => rw [nestingItems, Nat.max_le, ih, List.forall_mem_cons]

theorem nestingMembers_le {ms : List (String × Json)} {n : Nat} :
    nestingMembers ms ≤ n ↔ ∀ m ∈ ms, m.2.nesting ≤ n := by
  induction ms with
  | nil => simp [nestingMembers]
  | cons m ms ih => rw [nestingMembers, Nat.max_le, ih, List.forall_mem_cons]

theorem depthItems_le {xs : List Json} {n : Nat} : depthItems xs ≤ n ↔ ∀ x ∈ xs, x.depth ≤ n := by
  induction xs with
  | nil => simp [depthItems]
  | cons x xs ih => rw [depthItems, Nat.max_le, ih, List.forall_mem_cons]

theorem depthMembers_le {ms : List (String × Json)} {n : Nat} :
    depthMembers ms ≤ n ↔ ∀ m ∈ ms, m.2.depth ≤ n := by
  induction ms with
  | nil => simp [depthMembers]
  | cons m ms ih => rw [depthMembers, Nat.max_le, ih, List.forall_mem_cons]

theorem depth_object_le {ms : List (String × Json)} {n : Nat} :
    (object ms).depth ≤ n + 1 ↔ ∀ m ∈ ms, m.2.depth ≤ n := by
  rw [depth, Nat.add_le_add_iff_right, depthMembers_le]

theorem depth_array_le {xs : List Json} {n : Nat} :
    (array xs).depth ≤ n + 1 ↔ ∀ x ∈ xs, x.depth ≤ n := by
  rw [depth, Nat.add_le_add_iff_right, depthItems_le]

/-- A value that nests at most `n` deep and stands for what is written for it. -/
structure Fit (n : Nat) (v : Json) : Prop where
  nesting_le : v.nesting ≤ n
  spells : Spells v v.write

namespace Fit

theorem null (n : Nat) : Fit n .null := ⟨Nat.zero_le n, .null⟩

theorem string (n : Nat) (s : String) : Fit n (.string s) :=
  ⟨Nat.zero_le n, .string (charsText_escape s.toList)⟩

theorem bool_true (n : Nat) : Fit n (.bool true) := ⟨Nat.zero_le n, .trueWord⟩

theorem int (n : Nat) (i : Int) : Fit n (.int i) := ⟨Nat.zero_le n, .int i⟩

theorem array {n : Nat} {xs : List Json} (h : ∀ x ∈ xs, Fit n x) : Fit (n + 1) (.array xs) :=
  ⟨Nat.succ_le_succ (nestingItems_le.mpr fun x hx => (h x hx).nesting_le),
    spells_write_array fun x hx => (h x hx).spells⟩

theorem object {n : Nat} {ms : List (String × Json)} (h : ∀ m ∈ ms, Fit n m.2) :
    Fit (n + 1) (.object ms) :=
  ⟨Nat.succ_le_succ (nestingMembers_le.mpr fun m hm => (h m hm).nesting_le),
    spells_write_object fun m hm => (h m hm).spells⟩

end Fit

/-! ## Names -/

/-- `key` has no letter that another case of it would change. -/
def Lower (key : String) : Prop :=
  key.toList.map foldChar = key.toList

instance (key : String) : Decidable (Lower key) :=
  inferInstanceAs (Decidable (_ = _))

theorem sameName_lower {key : String} (h : Lower key) (name : String) :
    sameName key name = decide (key = name) := by
  rw [sameName, h, Bool.eq_iff_iff, beq_iff_eq, decide_eq_true_iff, String.toList_inj]

theorem named_append (ms ns : List (String × Json)) (name : String) :
    named (ms ++ ns) name = named ms name ++ named ns name :=
  List.filterMap_append

theorem named_cons {key : String} (hkey : Lower key) (v : Json) (ms : List (String × Json))
    (name : String) :
    named ((key, v) :: ms) name = if key = name then v :: named ms name else named ms name := by
  by_cases h : key = name
  · have hsame : sameName key name = true := by rw [sameName_lower hkey, decide_eq_true h]
    rw [if_pos h]
    exact List.filterMap_cons_some (if_pos hsame)
  · have hdiffer : ¬ sameName key name = true := by simp [sameName_lower hkey, h]
    rw [if_neg h]
    exact List.filterMap_cons_none (if_neg hdiffer)

/-- Members of one name are found under that name only. -/
theorem named_of_key {key : String} (hkey : Lower key) {ms : List (String × Json)}
    (h : ∀ m ∈ ms, m.1 = key) (name : String) :
    named ms name = if key = name then ms.map (·.2) else [] := by
  induction ms with
  | nil => simp [named]
  | cons m ms ih =>
    obtain ⟨k, v⟩ := m
    obtain rfl : k = key := h (k, v) List.mem_cons_self
    rw [named_cons hkey, ih fun n hn => h n (List.mem_cons_of_mem _ hn), List.map_cons]
    split <;> rfl

theorem mem_of_mem_named {ms : List (String × Json)} {name : String} {v : Json}
    (h : v ∈ named ms name) : ∃ m ∈ ms, m.2 = v := by
  obtain ⟨⟨k, w⟩, hm, hv⟩ := List.mem_filterMap.mp h
  simp only [Option.ite_none_right_eq_some] at hv
  exact ⟨(k, w), hm, Option.some.inj hv.2⟩

namespace Layers

/-- No value nests deeper than `n`. -/
def Within (n : Nat) (vs : Layers) : Prop :=
  ∀ v ∈ vs, v.nesting ≤ n

/-! ## What reading goes back to -/

theorem exists_of_mem_mapM {α β : Type} {f : α → Option β} {xs : List α} {ys : List β}
    (h : xs.mapM f = some ys) {y : β} (hy : y ∈ ys) : ∃ x ∈ xs, f x = some y := by
  induction xs generalizing ys with
  | nil =>
    cases h
    cases hy
  | cons x xs ih =>
    rw [List.mapM_cons] at h
    obtain ⟨z, hz, h⟩ := Option.bind_eq_some_iff.mp h
    obtain ⟨zs, hzs, h⟩ := Option.bind_eq_some_iff.mp h
    cases h
    rcases List.mem_cons.mp hy with rfl | hy
    · exact ⟨x, List.mem_cons_self, hz⟩
    · obtain ⟨x', hx', hread⟩ := ih hzs hy
      exact ⟨x', List.mem_cons_of_mem _ hx', hread⟩

theorem mem_of_mem_segments {afresh : Json → Bool} {vs s : Layers} (hs : s ∈ segments afresh vs)
    {v : Json} (hv : v ∈ s) : v ∈ vs ∧ afresh v = false := by
  induction vs generalizing s v with
  | nil =>
    cases List.mem_singleton.mp hs
    cases hv
  | cons w vs ih =>
    have htail : ∀ t ∈ segments afresh vs, ∀ x ∈ t, x ∈ w :: vs ∧ afresh x = false := by
      intro t ht x hx
      have hmem := ih ht hx
      exact ⟨List.mem_cons_of_mem _ hmem.1, hmem.2⟩
    rw [segments] at hs
    split at hs
    · rcases List.mem_cons.mp hs with rfl | hs
      · cases hv
      · exact htail s hs v hv
    next hw =>
      have hw : w ∈ w :: vs ∧ afresh w = false := ⟨List.mem_cons_self, Bool.not_eq_true _ ▸ hw⟩
      split at hs
      next t ts hts =>
        rw [hts] at htail
        rcases List.mem_cons.mp hs with rfl | hs
        · rcases List.mem_cons.mp hv with rfl | hv
          · exact hw
          · exact htail t List.mem_cons_self v hv
        · exact htail s (List.mem_cons_of_mem _ hs) v hv
      next =>
        cases List.mem_singleton.mp hs
        cases List.mem_singleton.mp hv
        exact hw

theorem exists_of_mem_columns {k : Nat} {rows : List (List Json)} {col : Layers}
    (hcol : col ∈ columns k rows) {v : Json} (hv : v ∈ col) : ∃ row ∈ rows, v ∈ row := by
  induction k generalizing rows with
  | zero => cases hcol
  | succ k ih =>
    rcases List.mem_cons.mp hcol with rfl | hcol
    · obtain ⟨row, hrow, hhead⟩ := List.mem_filterMap.mp hv
      exact ⟨row, hrow, List.mem_of_mem_head? hhead⟩
    · obtain ⟨tail, htail, hmem⟩ := ih hcol
      obtain ⟨row, hrow, rfl⟩ := List.mem_map.mp htail
      exact ⟨row, hrow, List.mem_of_mem_tail hmem⟩

theorem eq_array_of_items? {v : Json} {xs : List Json} (h : items? v = some xs) : v = .array xs := by
  cases v <;> cases h
  rfl

/-- The entries of a list are read from items of its arrays. -/
theorem exists_of_mem_list? {α : Type} {read : Layers → Option α} {vs : Layers} {xs : List α}
    (h : list? read vs = some xs) {x : α} (hx : x ∈ xs) :
    (∃ row, .array row ∈ vs) ∧
      ∃ col, read col = some x ∧ ∀ v ∈ col, ∃ row, .array row ∈ vs ∧ v ∈ row := by
  obtain ⟨parts, hparts, h⟩ := Option.bind_eq_some_iff.mp h
  cases h
  have hmem : parts.getLast?.getD [] ∈ parts := by
    cases hlast : parts.getLast? with
    | none => simp [hlast] at hx
    | some part => exact List.mem_of_getLast? hlast
  obtain ⟨s, hs, hread⟩ := exists_of_mem_mapM hparts hmem
  obtain ⟨rows, hrows, hread⟩ := Option.bind_eq_some_iff.mp hread
  obtain ⟨entries, hentries, hread⟩ := Option.bind_eq_some_iff.mp hread
  rw [← Option.some.inj hread] at hx
  have harray : ∀ row ∈ rows, .array row ∈ s := by
    intro row hrow
    obtain ⟨v, hv, hitems⟩ := exists_of_mem_mapM hrows hrow
    exact eq_array_of_items? hitems ▸ hv
  have hne : rows ≠ [] := by
    rintro rfl
    simp at hx
  obtain ⟨row, hrow⟩ := List.exists_mem_of_ne_nil rows hne
  obtain ⟨col, hcol, hreadcol⟩ := exists_of_mem_mapM hentries (List.mem_of_mem_take hx)
  refine ⟨⟨row, (mem_of_mem_segments hs (harray row hrow)).1⟩, col, hreadcol, ?_⟩
  intro v hv
  obtain ⟨row, hrow, hmem⟩ := exists_of_mem_columns hcol hv
  exact ⟨row, (mem_of_mem_segments hs (harray row hrow)).1, hmem⟩

theorem within_of_mem_list? {α : Type} {read : Layers → Option α} {vs : Layers} {xs : List α}
    (h : list? read vs = some xs) {n : Nat} (hvs : Within n vs) {x : α} (hx : x ∈ xs) :
    ∃ m, n = m + 1 ∧ ∃ col, Within m col ∧ read col = some x := by
  obtain ⟨⟨row, hrow⟩, col, hread, hcol⟩ := exists_of_mem_list? h hx
  obtain ⟨m, rfl⟩ : ∃ m, n = m + 1 :=
    Nat.exists_eq_succ_of_ne_zero (Nat.ne_of_gt (Nat.lt_of_lt_of_le (Nat.succ_pos _) (hvs _ hrow)))
  refine ⟨m, rfl, col, fun v hv => ?_, hread⟩
  obtain ⟨row, hrow, hmem⟩ := hcol v hv
  exact nestingItems_le.mp (Nat.le_of_succ_le_succ (hvs _ hrow)) v hmem

/-- An optional record that is there is read from values that are not null. -/
theorem exists_of_optional? {α : Type} {read : Layers → Option α} {vs : Layers} {a : α}
    (h : optional? read vs = some (some a)) :
    ∃ s, s ≠ [] ∧ read s = some a ∧ ∀ v ∈ s, v ∈ vs ∧ isNull v = false := by
  obtain ⟨parts, hparts, h⟩ := Option.bind_eq_some_iff.mp h
  have hlast : parts.getLast? = some (some a) := Option.join_eq_some_iff.mp (Option.some.inj h)
  obtain ⟨s, hs, hread⟩ := exists_of_mem_mapM hparts (List.mem_of_getLast? hlast)
  split at hread
  · cases hread
  next hempty =>
    obtain ⟨a', hread, ha⟩ := Option.map_eq_some_iff.mp hread
    cases ha
    exact ⟨s, by simpa using hempty, hread, fun v hv => mem_of_mem_segments hs hv⟩

theorem members?_singleton (ms : List (String × Json)) : members? [.object ms] = some ms := by
  simp [members?]

theorem members?_within {vs : Layers} {ms : List (String × Json)} (h : members? vs = some ms) {n : Nat}
    (hvs : Within n vs) : ∀ m ∈ ms, m.2.nesting + 1 ≤ n := by
  induction vs generalizing ms with
  | nil =>
    cases h
    intro m hm
    cases hm
  | cons v vs ih =>
    have htail : Within n vs := fun w hw => hvs w (List.mem_cons_of_mem _ hw)
    cases v with
    | null => exact ih h htail
    | object ns =>
      obtain ⟨ks, hks, h⟩ := Option.bind_eq_some_iff.mp h
      cases h
      have hns : nestingMembers ns + 1 ≤ n := hvs _ List.mem_cons_self
      intro m hm
      rcases List.mem_append.mp hm with hm | hm
      · have hle := nestingMembers_le.mp (Nat.le_refl _) m hm
        omega
      · exact ih hks htail m hm
    | _ => cases h

/-- A record that is there nests deeper than its members. -/
theorem exists_within_of_members? {vs s : Layers} (hne : s ≠ [])
    (hs : ∀ v ∈ s, v ∈ vs ∧ isNull v = false) {ms : List (String × Json)} (h : members? s = some ms)
    {n : Nat} (hvs : Within n vs) : ∃ m, n = m + 1 ∧ ∀ name, Within m (named ms name) := by
  have hwithin : Within n s := fun v hv => hvs v (hs v hv).1
  have hpos : 0 < n := by
    obtain ⟨v, ws, rfl⟩ := List.exists_cons_of_ne_nil hne
    have hv := hwithin v List.mem_cons_self
    have hnull := (hs v List.mem_cons_self).2
    cases v with
    | null => cases hnull
    | object ms => exact Nat.lt_of_lt_of_le (Nat.succ_pos _) hv
    | _ => cases h
  obtain ⟨m, rfl⟩ := Nat.exists_eq_succ_of_ne_zero (Nat.ne_of_gt hpos)
  refine ⟨m, rfl, fun name v hv => ?_⟩
  obtain ⟨p, hp, rfl⟩ := mem_of_mem_named hv
  exact Nat.le_of_succ_le_succ (members?_within h hwithin p hp)

theorem fitsSigned_of_integer? {text : String} {i : Int} (h : integer? text = some i) :
    fitsSigned 64 i = true := by
  simp only [integer?, Option.ite_none_left_eq_some, Option.ite_none_right_eq_some] at h
  obtain ⟨-, hfits, hi⟩ := h
  exact Option.some.inj hi ▸ hfits

theorem fitsSigned_of_asInt {v : Json} {i : Int} (h : asInt v = some (some i)) :
    fitsSigned 64 i = true := by
  cases v with
  | number text =>
    obtain ⟨j, hj, hi⟩ := Option.map_eq_some_iff.mp h
    cases hi
    exact fitsSigned_of_integer? hj
  | _ => cases h

theorem exists_of_latest {α : Type} {f : Json → Option (Option α)} {vs : Layers} {a : α}
    (h : latest f vs = some (some a)) : ∃ v ∈ vs, f v = some (some a) := by
  induction vs with
  | nil => cases h
  | cons v vs ih =>
    obtain ⟨x, hx, h⟩ := Option.bind_eq_some_iff.mp h
    obtain ⟨y, hy, h⟩ := Option.bind_eq_some_iff.mp h
    cases y with
    | none =>
      cases h
      exact ⟨v, List.mem_cons_self, hx⟩
    | some b =>
      cases h
      obtain ⟨w, hw, hread⟩ := ih hy
      exact ⟨w, List.mem_cons_of_mem _ hw, hread⟩

theorem fitsSigned_of_int? {vs : Layers} {i : Int} (h : int? vs = some i) : fitsSigned 64 i = true := by
  obtain ⟨o, ho, hi⟩ := Option.map_eq_some_iff.mp h
  cases o with
  | none => exact hi ▸ rfl
  | some j =>
    obtain ⟨v, -, hv⟩ := exists_of_latest ho
    exact hi ▸ fitsSigned_of_asInt hv

/-! ## What is written is read back -/

theorem integer?_repr {i : Int} (h : fitsSigned 64 i = true) : integer? i.repr = some i := by
  have hne : (Nat.toDigits 10 i.natAbs).isEmpty = false := List.isEmpty_eq_false_iff.mpr Nat.toDigits_ne_nil
  have hall : (Nat.toDigits 10 i.natAbs).all Char.isDigit = true :=
    List.all_eq_true.mpr fun c hc => isDigit_toDigits hc
  by_cases hneg : i < 0
  · have hvalue : -(i.natAbs : Int) = i := by omega
    simp only [integer?, toList_repr_int, if_pos hneg, List.singleton_append, hne, hall, foldl_toDigits, hvalue]
    simp [h]
  · have hvalue : (i.natAbs : Int) = i := by omega
    have hsign : ∀ cs, Nat.toDigits 10 i.natAbs ≠ '-' :: cs := by
      intro cs hcs
      exact absurd (isDigit_toDigits (hcs ▸ List.mem_cons_self)) (by decide)
    simp only [integer?, toList_repr_int, if_neg hneg, List.nil_append]
    simp [hne, hall, foldl_toDigits, hvalue, h]

theorem columns_singleton (xs : List Json) : columns xs.length [xs] = xs.map ([·]) := by
  induction xs with
  | nil => rfl
  | cons x xs ih =>
    exact congrArg ([x] :: ·) ih

theorem mapM_map_singleton {α : Type} {read : Layers → Option α} {toJson : α → Json} {xs : List α}
    (h : ∀ x ∈ xs, read [toJson x] = some x) : ((xs.map toJson).map ([·])).mapM read = some xs := by
  induction xs with
  | nil => rfl
  | cons x xs ih =>
    have hxs := ih fun y hy => h y (List.mem_cons_of_mem _ hy)
    rw [List.map_cons, List.map_cons, List.mapM_cons, h x List.mem_cons_self, hxs]
    rfl

theorem list?_singleton {α : Type} {read : Layers → Option α} {row : List Json} (h : row ≠ []) :
    list? read [.array row] = ((row.map ([·])).mapM read).map (·.take row.length) := by
  have hreset : isReset (.array row) = false := by
    cases row with
    | nil => exact absurd rfl h
    | cons => rfl
  have hcolumns := columns_singleton row
  cases hread : (row.map ([·])).mapM read with
  | none => simp [list?, segments, hreset, items?, hcolumns, hread]
  | some entries => simp [list?, segments, hreset, items?, hcolumns, hread]

theorem list?_array {α : Type} {read : Layers → Option α} {toJson : α → Json} {xs : List α}
    (h : ∀ x ∈ xs, read [toJson x] = some x) : list? read [.array (xs.map toJson)] = some xs := by
  by_cases hne : xs.map toJson = []
  · rw [hne, List.map_eq_nil_iff.mp hne]
    rfl
  · rw [list?_singleton hne, mapM_map_singleton h, Option.map_some, List.length_map, List.take_length]

theorem optional?_singleton {α : Type} {read : Layers → Option α} {v : Json} (h : isNull v = false) :
    optional? read [v] = (read [v]).map some := by
  cases hread : read [v] with
  | none => simp [optional?, segments, h, hread]
  | some a => simp [optional?, segments, h, hread]

end Layers

open Layers

/-- The value `v` may be written at depth `n`, and is read as `a`. -/
structure Kept {α : Type} (read : Nat → Layers → Option α) (n : Nat) (v : Json) (a : α) : Prop where
  fit : Fit n v
  reads (fuel : Nat) (h : v.depth ≤ fuel) : read fuel [v] = some a

/-- The members `ms`, all of one name, may be written at depth `n`, and are read as `a`. -/
structure KeptMember {α : Type} (read : Nat → Layers → Option α) (n : Nat) (key : String)
    (ms : List (String × Json)) (a : α) : Prop where
  fit : ∀ m ∈ ms, Fit n m.2
  key_eq : ∀ m ∈ ms, m.1 = key
  reads (fuel : Nat) (h : ∀ m ∈ ms, m.2.depth ≤ fuel) : read fuel (ms.map (·.2)) = some a

theorem Kept.null {α : Type} {read : Nat → Layers → Option α} {a : α} (n : Nat)
    (h : ∀ fuel, read (fuel + 1) [.null] = some a) : Kept read n .null a where
  fit := .null n
  reads fuel hdepth := by
    cases fuel with
    | zero => cases hdepth
    | succ fuel => exact h fuel

theorem Kept.text (n : Nat) (s : String) : Kept (fun _ => text?) n (.string s) s :=
  ⟨.string n s, fun _ _ => rfl⟩

theorem Kept.int (n : Nat) {i : Int} (h : fitsSigned 64 i = true) : Kept (fun _ => int?) n (.int i) i :=
  ⟨.int n i, fun _ _ => by simp [int?, latest, asInt, Json.int, integer?_repr h]⟩

theorem Kept.object {α : Type} {read : Nat → Layers → Option α} {n : Nat} {ms : List (String × Json)} {a : α}
    (hfit : ∀ m ∈ ms, Fit n m.2)
    (hreads : ∀ fuel, (∀ m ∈ ms, m.2.depth ≤ fuel) → read (fuel + 1) [.object ms] = some a) :
    Kept read (n + 1) (.object ms) a where
  fit := .object hfit
  reads fuel hdepth := by
    obtain ⟨k, rfl⟩ : ∃ k, fuel = k + 1 :=
      Nat.exists_eq_succ_of_ne_zero (Nat.ne_of_gt (Nat.lt_of_lt_of_le (Nat.succ_pos _) hdepth))
    exact hreads k (depth_object_le.mp hdepth)

theorem Kept.array {α : Type} {read : Nat → Layers → Option α} {toJson : α → Json} {n : Nat} {xs : List α}
    (h : ∀ x ∈ xs, Kept read n (toJson x) x) :
    Kept (fun fuel => list? (read fuel)) (n + 1) (.array (xs.map toJson)) xs where
  fit := .array fun v hv => by
    obtain ⟨x, hx, rfl⟩ := List.mem_map.mp hv
    exact (h x hx).fit
  reads fuel hdepth := list?_array fun x hx => (h x hx).reads fuel
    (depth_array_le.mp (Nat.le_succ_of_le hdepth) (toJson x) (List.mem_map_of_mem hx))

theorem Kept.optional {α : Type} {read : Nat → Layers → Option α} {toJson : α → Json} {n k : Nat}
    {vs : Layers} {o : Option α} (h : optional? (read k) vs = some o)
    (hentry : ∀ s a, s ≠ [] → (∀ v ∈ s, v ∈ vs ∧ isNull v = false) → read k s = some a →
      Kept read n (toJson a) a)
    (hnull : ∀ a, isNull (toJson a) = false) :
    Kept (fun fuel => optional? (read fuel)) n (ofOption toJson o) o := by
  cases o with
  | none => exact ⟨.null n, fun _ _ => rfl⟩
  | some a =>
    obtain ⟨s, hne, hread, hs⟩ := exists_of_optional? h
    have hkept := hentry s a hne hs hread
    refine ⟨hkept.fit, fun fuel hdepth => ?_⟩
    rw [ofOption, optional?_singleton (hnull a), hkept.reads fuel hdepth, Option.map_some]

namespace KeptMember

variable {α : Type} {read : Nat → Layers → Option α} {n : Nat} {a : α} (key : String)

theorem absent (h : ∀ fuel, read fuel [] = some a) : KeptMember read n key [] a where
  fit _ hm := nomatch hm
  key_eq _ hm := nomatch hm
  reads fuel _ := h fuel

theorem present {v : Json} (h : Kept read n v a) : KeptMember read n key [(key, v)] a where
  fit := by
    intro m hm
    cases List.mem_singleton.mp hm
    exact h.fit
  key_eq := by
    intro m hm
    cases List.mem_singleton.mp hm
    rfl
  reads fuel hdepth := h.reads fuel (hdepth (key, v) List.mem_cons_self)

theorem text (s : String) : KeptMember (fun _ => text?) n key (textMember key s) s := by
  unfold textMember
  split
  next hs => exact absent key fun _ => hs ▸ rfl
  next => exact present key (.text n s)

theorem flag (b : Bool) : KeptMember (fun _ => flag?) n key (flagMember key b) b := by
  cases b with
  | false => exact absent key fun _ => rfl
  | true => exact present key ⟨.bool_true n, fun _ _ => rfl⟩

theorem int {i : Int} (h : fitsSigned 64 i = true) :
    KeptMember (fun _ => int?) n key (intMember key i) i := by
  unfold intMember
  split
  next hi => exact absent key fun _ => hi ▸ rfl
  next => exact present key (.int n h)

/-- The list that was read from the layers is read back, if its entries are. -/
theorem list {toJson : α → Json} {k : Nat} {vs : Layers} {xs : List α}
    (h : list? (read k) vs = some xs) (hvs : Within n vs)
    (hentry : ∀ m col x, n = m + 1 → Within m col → read k col = some x → Kept read m (toJson x) x) :
    KeptMember (fun fuel => list? (read fuel)) n key (listMember key (xs.map toJson)) xs := by
  by_cases hne : xs = []
  · subst hne
    exact absent key fun _ => rfl
  · obtain ⟨x, hx⟩ := List.exists_mem_of_ne_nil xs hne
    obtain ⟨m, rfl, -⟩ := within_of_mem_list? h hvs hx
    have hkept : ∀ y ∈ xs, Kept read m (toJson y) y := by
      intro y hy
      obtain ⟨m', hm', col, hcol, hread⟩ := within_of_mem_list? h hvs hy
      cases hm'
      exact hentry m col y rfl hcol hread
    have hmember : listMember key (xs.map toJson) = [(key, .array (xs.map toJson))] := by
      simp [listMember, hne]
    rw [hmember]
    exact present key (.array hkept)

theorem named {ms : List (String × Json)} {key : String} (h : KeptMember read n key ms a)
    (hkey : Lower key) (name : String) : Json.named ms name = if key = name then ms.map (·.2) else [] :=
  named_of_key hkey h.key_eq name

end KeptMember

end Json

end TwoPhase
