import Mathlib.Algebra.Field.Basic
import Mathlib.Algebra.Field.Rat
import Mathlib.Algebra.Order.Ring.Rat
import Mathlib.Data.List.TakeWhile
import Mathlib.Tactic.FieldSimp
import TwoPhase.Workspace
import TwoPhase.Proofs.DecimalDigits

/-!
# What the text of a duration denotes

A number of seconds is read in decimal notation with any number of places (`secondsDenoted?`). The text of a
duration is its whole milliseconds in that notation: no step on the way to it leaves the range of 64 bits, not
even for the durations at its ends (`toInt_seconds_mul`, `toInt_milliseconds`). The milliseconds get three places,
since zeros in front of them count, and lose trailing zeros, which do not (`ofDigitChars_dropTrailingZeros`). So
the text is exact, and two durations that differ in whole milliseconds have different texts
(`durationText_exact`).
-/

namespace TwoPhase

/-! ## Reading seconds -/

/-- The number of seconds that a text denotes: decimal digits, then a point and further digits if there is a
fraction, then `s`. -/
def secondsDenoted? (text : String) : Option ℚ :=
  let whole := text.toList.takeWhile Char.isDigit
  if whole = [] then none
  else
    match text.toList.dropWhile Char.isDigit with
    | ['s'] => some (Nat.ofDigitChars 10 whole 0)
    | '.' :: rest =>
      let fraction := rest.takeWhile Char.isDigit
      if fraction ≠ [] ∧ rest.dropWhile Char.isDigit = ['s'] then
        some (Nat.ofDigitChars 10 whole 0 + Nat.ofDigitChars 10 fraction 0 / pow10 fraction.length)
      else none
    | _ => none

variable {text : String} {whole fraction ds : List Char} {k : Nat}

theorem takeWhile_isDigit_append {x : Char} (hds : ∀ c ∈ ds, c.isDigit = true) (hx : x.isDigit = false)
    (rest : List Char) : (ds ++ x :: rest).takeWhile Char.isDigit = ds := by
  rw [List.takeWhile_append_of_pos hds, List.takeWhile_cons_of_neg (by simp [hx]), List.append_nil]

theorem dropWhile_isDigit_append {x : Char} (hds : ∀ c ∈ ds, c.isDigit = true) (hx : x.isDigit = false)
    (rest : List Char) : (ds ++ x :: rest).dropWhile Char.isDigit = x :: rest := by
  rw [List.dropWhile_append_of_pos hds, List.dropWhile_cons_of_neg (by simp [hx])]

theorem secondsDenoted?_whole (hne : whole ≠ []) (hwhole : ∀ c ∈ whole, c.isDigit = true)
    (htext : text.toList = whole ++ ['s']) :
    secondsDenoted? text = some (Nat.ofDigitChars 10 whole 0 : ℚ) := by
  simp only [secondsDenoted?, htext, takeWhile_isDigit_append hwhole (by decide : 's'.isDigit = false),
    dropWhile_isDigit_append hwhole (by decide : 's'.isDigit = false), if_neg hne]

theorem secondsDenoted?_fraction (hne : whole ≠ []) (hwhole : ∀ c ∈ whole, c.isDigit = true)
    (hsome : fraction ≠ []) (hfraction : ∀ c ∈ fraction, c.isDigit = true)
    (htext : text.toList = whole ++ '.' :: (fraction ++ ['s'])) :
    secondsDenoted? text =
      some (Nat.ofDigitChars 10 whole 0 + Nat.ofDigitChars 10 fraction 0 / pow10 fraction.length : ℚ) := by
  have hs : 's'.isDigit = false := by decide
  have hpoint : '.'.isDigit = false := by decide
  simp only [secondsDenoted?, htext, takeWhile_isDigit_append hwhole hpoint,
    dropWhile_isDigit_append hwhole hpoint, if_neg hne, takeWhile_isDigit_append hfraction hs,
    dropWhile_isDigit_append hfraction hs, ne_eq, hsome, not_false_eq_true, and_self, if_true]

/-! ## Trailing zeros -/

theorem exists_dropTrailingZeros (cs : List Char) :
    ∃ k, cs = dropTrailingZeros cs ++ List.replicate k '0' := by
  have hzeros : ∀ c ∈ cs.reverse.takeWhile (· == '0'), c = '0' := fun c hc => by
    simpa using List.mem_takeWhile_imp hc
  refine ⟨(cs.reverse.takeWhile (· == '0')).length, ?_⟩
  rw [dropTrailingZeros, ← List.reverse_replicate, ← List.eq_replicate_of_mem hzeros, ← List.reverse_append,
    List.takeWhile_append_dropWhile, List.reverse_reverse]

theorem getLast?_dropTrailingZeros (cs : List Char) : (dropTrailingZeros cs).getLast? ≠ some '0' := by
  rw [dropTrailingZeros, List.getLast?_reverse]
  intro hzero
  have hnot := List.head?_dropWhile_not (· == '0') cs.reverse
  rw [hzero] at hnot
  simp at hnot

/-- Trailing zeros count in the value of digits and in their number alike. -/
theorem ofDigitChars_dropTrailingZeros (cs : List Char) :
    (Nat.ofDigitChars 10 (dropTrailingZeros cs) 0 : ℚ) / pow10 (dropTrailingZeros cs).length =
      Nat.ofDigitChars 10 cs 0 / pow10 cs.length := by
  obtain ⟨k, hk⟩ := exists_dropTrailingZeros cs
  generalize dropTrailingZeros cs = ds at hk
  subst hk
  rw [Nat.ofDigitChars_append, Nat.ofDigitChars_replicate_zero, List.length_append, List.length_replicate]
  have hpow : pow10 (ds.length + k) = pow10 ds.length * 10 ^ k := Nat.pow_add 10 ds.length k
  rw [hpow]
  push_cast
  field_simp

/-! ## Milliseconds -/

theorem threePlaces_natCast (k : Nat) : threePlaces k =
    List.replicate (3 - (Nat.toDigits 10 k).length) '0' ++ Nat.toDigits 10 k := by
  simp [threePlaces]

theorem isDigit_threePlaces {c : Char} (h : c ∈ threePlaces k) : c.isDigit = true := by
  rw [threePlaces_natCast] at h
  rcases List.mem_append.mp h with h | h
  · rw [List.eq_of_mem_replicate h]
    rfl
  · exact isDigit_toDigits h

theorem length_threePlaces (h : k < 1000) : (threePlaces k).length = 3 := by
  have hle : (Nat.toDigits 10 k).length ≤ 3 := (Nat.length_toDigits_le_iff (by decide) (by decide)).mpr h
  rw [threePlaces_natCast, List.length_append, List.length_replicate]
  omega

theorem ofDigitChars_threePlaces (k : Nat) : Nat.ofDigitChars 10 (threePlaces k) 0 = k := by
  rw [threePlaces_natCast, Nat.ofDigitChars_append, Nat.ofDigitChars_replicate_zero, Nat.mul_zero,
    Nat.ofDigitChars_ten_toDigits]

/-- The digits behind the point for a number of milliseconds below a second. -/
def millisecondDigits (k : Nat) : List Char :=
  dropTrailingZeros (threePlaces k)

theorem isDigit_millisecondDigits {c : Char} (h : c ∈ millisecondDigits k) : c.isDigit = true := by
  obtain ⟨j, hj⟩ := exists_dropTrailingZeros (threePlaces k)
  apply isDigit_threePlaces (k := k)
  rw [hj]
  exact List.mem_append_left _ h

theorem ofDigitChars_millisecondDigits (h : k < 1000) :
    (Nat.ofDigitChars 10 (millisecondDigits k) 0 : ℚ) / pow10 (millisecondDigits k).length = k / 1000 := by
  have hthousand : pow10 3 = 1000 := rfl
  rw [millisecondDigits, ofDigitChars_dropTrailingZeros, ofDigitChars_threePlaces, length_threePlaces h, hthousand]
  norm_num

theorem millisecondDigits_ne_nil (h : k < 1000) (hk : k ≠ 0) : millisecondDigits k ≠ [] := by
  intro hnil
  have hvalue := ofDigitChars_millisecondDigits h
  rw [hnil, Nat.ofDigitChars_nil, Nat.cast_zero, zero_div] at hvalue
  exact hk (by simpa using hvalue.symm)

/-! ## The text of a duration -/

/-- A number of milliseconds as seconds. -/
def secondsText (k : Nat) : List Char :=
  if k % 1000 = 0 then Nat.toDigits 10 (k / 1000) ++ ['s']
  else Nat.toDigits 10 (k / 1000) ++ '.' :: (millisecondDigits (k % 1000) ++ ['s'])

/-! ### No step leaves the range -/

section

variable (d : Int64)

theorem toInt_seconds : (d / 1000000000).toInt = d.toInt.tdiv 1000000000 :=
  Int64.toInt_div_of_ne_right d 1000000000 (by decide)

theorem toInt_seconds_mul :
    (d / 1000000000 * 1000000000).toInt = d.toInt.tdiv 1000000000 * 1000000000 := by
  have hlow := d.le_toInt
  have hhigh := d.toInt_lt
  have hparts := Int.tdiv_mul_add_tmod d.toInt 1000000000
  have hmul : (d / 1000000000 * 1000000000).toInt = (d.toInt.tdiv 1000000000 * 1000000000).bmod (2 ^ 64) := by
    rw [Int64.toInt_mul, toInt_seconds]
    rfl
  -- the rest has the sign of the duration, so the whole seconds are not further from zero
  have hrest : 0 ≤ d.toInt ∧ 0 ≤ d.toInt.tmod 1000000000 ∨ d.toInt ≤ 0 ∧ 0 ≤ -d.toInt.tmod 1000000000 := by
    rcases Int.le_total 0 d.toInt with h | h
    · exact .inl ⟨h, Int.tmod_nonneg _ h⟩
    · exact .inr ⟨h, by rw [← Int.neg_tmod]; exact Int.tmod_nonneg _ (by omega)⟩
  have hless := Int.lt_tmod_of_pos d.toInt (by decide : (0 : Int) < 1000000000)
  have hmore := Int.tmod_lt_of_pos d.toInt (by decide : (0 : Int) < 1000000000)
  rw [hmul]
  exact Int.bmod_eq_of_le_mul_two (by omega) (by omega)

theorem toInt_rest : (d - d / 1000000000 * 1000000000).toInt = d.toInt.tmod 1000000000 := by
  have hlow := Int.lt_tmod_of_pos d.toInt (by decide : (0 : Int) < 1000000000)
  have hhigh := Int.tmod_lt_of_pos d.toInt (by decide : (0 : Int) < 1000000000)
  have hparts := Int.tdiv_mul_add_tmod d.toInt 1000000000
  have hsub : d.toInt - d.toInt.tdiv 1000000000 * 1000000000 = d.toInt.tmod 1000000000 := by omega
  rw [Int64.toInt_sub, toInt_seconds_mul, hsub]
  exact Int.bmod_eq_of_le_mul_two (by omega) (by omega)

theorem toInt_milliseconds : ((d - d / 1000000000 * 1000000000) / 1000000).toInt =
    (d.toInt.tmod 1000000000).tdiv 1000000 := by
  rw [Int64.toInt_div_of_ne_right _ 1000000 (by decide), toInt_rest]
  rfl

end

/-! ### What it denotes -/

variable {d : Int64} {n : Nat}

/-- The text of a duration shows its whole milliseconds. -/
theorem toList_durationText (hd : d.toInt = n) : (durationText d).toList = secondsText (n / 1000000) := by
  have hseconds : (d / 1000000000).toInt = (n / 1000000 / 1000 : Nat) := by
    rw [toInt_seconds, hd, Nat.div_div_eq_div_mul]
    exact (Int.ofNat_tdiv n 1000000000).symm
  have hrest : ((d - d / 1000000000 * 1000000000) / 1000000).toInt = (n / 1000000 % 1000 : Nat) := by
    rw [toInt_milliseconds, hd]
    refine Eq.trans ?_ (congrArg Nat.cast (by omega : n % 1000000000 / 1000000 = n / 1000000 % 1000))
    rw [Int.ofNat_tdiv, Int.ofNat_tmod]
    rfl
  have hwhole : Int.repr (n / 1000000 / 1000 : Nat) =
      String.ofList (Nat.toDigits 10 (n / 1000000 / 1000)) := by
    rw [← String.toList_inj, toList_repr_int, String.toList_ofList, if_neg (by omega), Int.natAbs_natCast,
      List.nil_append]
  have hzero : (d - d / 1000000000 * 1000000000) / 1000000 = 0 ↔ n / 1000000 % 1000 = 0 := by
    rw [← Int64.toInt_inj, hrest]
    exact Int.natCast_eq_zero
  simp only [durationText, hseconds, hrest, hzero, secondsText]
  split
  · rw [String.toList_append, hwhole, String.toList_ofList]
    rfl
  · simp only [String.toList_append, hwhole, String.toList_ofList, List.append_assoc]
    rfl

theorem secondsDenoted?_durationText (hd : d.toInt = n) :
    secondsDenoted? (durationText d) = some ((n / 1000000 : Nat) / 1000 : ℚ) := by
  have htext := toList_durationText hd
  generalize n / 1000000 = k at htext
  have hk : k % 1000 < 1000 := Nat.mod_lt k (by decide)
  have hdigits : ∀ c ∈ Nat.toDigits 10 (k / 1000), c.isDigit = true := fun c hc => isDigit_toDigits hc
  have hsplit : (k : ℚ) = 1000 * (k / 1000 : Nat) + (k % 1000 : Nat) := by
    exact_mod_cast (Nat.div_add_mod k 1000).symm
  rw [secondsText] at htext
  split at htext
  next hzero =>
    rw [secondsDenoted?_whole Nat.toDigits_ne_nil hdigits htext, Nat.ofDigitChars_ten_toDigits, hsplit, hzero]
    simp
  next hmore =>
    rw [secondsDenoted?_fraction Nat.toDigits_ne_nil hdigits (millisecondDigits_ne_nil hk hmore)
      (fun c hc => isDigit_millisecondDigits hc) htext, Nat.ofDigitChars_ten_toDigits,
      ofDigitChars_millisecondDigits hk, hsplit]
    rw [add_div, mul_div_cancel_left₀ _ (by norm_num)]

theorem point_mem_secondsText (k : Nat) : '.' ∈ secondsText k ↔ k % 1000 ≠ 0 := by
  have hdigits : '.' ∉ Nat.toDigits 10 (k / 1000) := fun hmem => absurd (isDigit_toDigits hmem) (by decide)
  rw [secondsText]
  split <;> simp_all

theorem not_zero_suffix_secondsText (hk : k % 1000 ≠ 0) : ¬ ['0', 's'] <:+ secondsText k := by
  rintro ⟨front, hfront⟩
  have hne := millisecondDigits_ne_nil (Nat.mod_lt k (by decide)) hk
  have hlast : front ++ ['0'] = Nat.toDigits 10 (k / 1000) ++ '.' :: millisecondDigits (k % 1000) := by
    rw [secondsText, if_neg hk] at hfront
    refine List.append_cancel_right (?_ : _ ++ ['s'] = _ ++ ['s'])
    simpa using hfront
  have hzero := congrArg List.getLast? hlast
  rw [List.getLast?_concat, List.append_cons, List.getLast?_append_of_ne_nil _ hne] at hzero
  exact getLast?_dropTrailingZeros _ hzero.symm

/-- The text of a duration denotes its whole milliseconds exactly, has a point only in front of a fraction and
no zero at the end of one. Two durations have the same text if and only if they agree in whole
milliseconds. -/
theorem durationText_exact {d : Int64} (hd : 0 ≤ d) :
    secondsDenoted? (durationText d) = some ((d.toInt / 1000000 : Int) / 1000 : ℚ) ∧
    ('.' ∈ (durationText d).toList ↔ d.toInt / 1000000 % 1000 ≠ 0) ∧
    ('.' ∈ (durationText d).toList → ¬ ['0', 's'] <:+ (durationText d).toList) ∧
    ∀ e : Int64, 0 ≤ e → (durationText d = durationText e ↔ d.toInt / 1000000 = e.toInt / 1000000) := by
  obtain ⟨n, hn⟩ := Int.eq_ofNat_of_zero_le (Int64.le_iff_toInt_le.mp hd)
  have hpoint : '.' ∈ (durationText d).toList ↔ n / 1000000 % 1000 ≠ 0 := by
    rw [toList_durationText hn]
    exact point_mem_secondsText _
  refine ⟨?_, ?_, fun hmem => ?_, fun e he => ?_⟩
  · rw [secondsDenoted?_durationText hn, hn]
    rfl
  · rw [hpoint, hn]
    exact not_congr (by omega)
  · rw [toList_durationText hn]
    exact not_zero_suffix_secondsText (hpoint.mp hmem)
  · obtain ⟨m, hm⟩ := Int.eq_ofNat_of_zero_le (Int64.le_iff_toInt_le.mp he)
    have hnat : d.toInt / 1000000 = e.toInt / 1000000 ↔ n / 1000000 = m / 1000000 := by omega
    rw [hnat]
    refine ⟨fun heq => ?_, fun heq => ?_⟩
    · have hvalue := secondsDenoted?_durationText hn
      rw [heq, secondsDenoted?_durationText hm, Option.some.injEq] at hvalue
      exact (Nat.cast_injective ((div_left_inj' (by norm_num)).mp hvalue)).symm
    · rw [← String.toList_inj, toList_durationText hn, toList_durationText hm, heq]

/-- The longest duration. -/
theorem durationText_exact_longest : (0 : Int64) ≤ Int64.maxValue ∧
    secondsDenoted? (durationText Int64.maxValue) = some ((9223372036854 : Int) / 1000 : ℚ) :=
  ⟨by decide, (durationText_exact (by decide : (0 : Int64) ≤ Int64.maxValue)).1⟩

example : durationText 1005999999 = "1.005s" ∧ durationText 70000000 = "0.07s" := by
  decide +kernel

end TwoPhase
