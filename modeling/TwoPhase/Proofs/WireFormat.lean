import TwoPhase.Proofs.ResultFields
import TwoPhase.Proofs.Utf8
import TwoPhase.Report.Wire
import Mathlib.Algebra.Order.BigOperators.Group.List
import Mathlib.Algebra.Order.Ring.Nat

/-!
# The binary form read back

Numbers in groups of seven bits, texts behind their lengths and fields behind their keys each read back as
what was written, with anything behind them. A message is then read field by field, and since a result is
the collection of its fields, their order does not matter: `Wire.readResult_ordered`. A list is read message
by message.

An encoder may write the fields of each result in any order; `Wire.Encodes` relates a list to all of its
binary forms.
-/

namespace TwoPhase

/-- The number of bytes of a text field. -/
def Field.textLength (r : Result) : Field → Nat
  | .text t => (r.text t).length
  | .int _ => 0

/-- The number of bytes of all texts of a result. -/
def Result.textLength (r : Result) : Nat :=
  (Field.all.map (Field.textLength r)).sum

namespace Wire

/-! ## Numbers and lengths -/

theorem varint_of_lt {n : Nat} (h : n < 128) : varint n = [UInt8.ofNat n] := by
  rw [varint, if_pos h]

theorem varint_of_ge {n : Nat} (h : ¬ n < 128) :
    varint n = UInt8.ofNat (n % 128 + 128) :: varint (n / 128) := by
  rw [varint, if_neg h]

/-- Of numbers with `k + 1` groups, those of up to `7 * k + 1` bits are read. -/
theorem varintWithin?_varint (k n : Nat) (rest : Bytes) :
    varintWithin? (k + 1) (varint n ++ rest) = if n < 2 ^ (7 * k + 1) then some (n, rest) else none := by
  induction k generalizing n with
  | zero =>
    by_cases hn : n < 128
    · rw [varint_of_lt hn, List.singleton_append, varintWithin?, Bytes.toNat_ofNat (by omega), if_pos hn]
      by_cases htwo : n < 2
      · rw [if_neg (by omega), if_pos (by omega)]
      · rw [if_pos (by omega), if_neg (by omega)]
    · rw [varint_of_ge hn, List.cons_append, varintWithin?, Bytes.toNat_ofNat (by omega),
        if_neg (by omega), if_neg (by omega)]
      rfl
  | succ k ih =>
    have hpow : 2 ^ (7 * (k + 1) + 1) = 2 ^ (7 * k + 1) * 128 := by
      rw [show 7 * (k + 1) + 1 = 7 * k + 1 + 7 by omega, Nat.pow_add]
    by_cases hn : n < 128
    · have hpos : 0 < 2 ^ (7 * k + 1) := Nat.two_pow_pos _
      rw [varint_of_lt hn, List.singleton_append, varintWithin?, Bytes.toNat_ofNat (by omega), if_pos hn,
        if_neg (by omega), if_pos (by omega)]
    · have hdiv : n / 128 < 2 ^ (7 * k + 1) ↔ n < 2 ^ (7 * (k + 1) + 1) := by
        rw [hpow, Nat.div_lt_iff_lt_mul (by decide)]
      rw [varint_of_ge hn, List.cons_append, varintWithin?, Bytes.toNat_ofNat (by omega),
        if_neg (by omega), ih]
      by_cases hlt : n / 128 < 2 ^ (7 * k + 1)
      · rw [if_pos hlt, if_pos (hdiv.mp hlt)]
        simp [Nat.mod_add_div]
      · rw [if_neg hlt, if_neg (mt hdiv.mpr hlt)]
        rfl

theorem varint?_varint (n : Nat) (rest : Bytes) :
    varint? (varint n ++ rest) = if n < 2 ^ 64 then some (n, rest) else none :=
  varintWithin?_varint 9 n rest

theorem delimited?_delimited (b rest : Bytes) :
    delimited? (delimited b ++ rest) = if b.length < 2 ^ 64 then some (b, rest) else none := by
  rw [delimited, List.append_assoc, delimited?, varint?_varint]
  by_cases h : b.length < 2 ^ 64
  · rw [if_pos h, if_pos h]
    simp
  · rw [if_neg h, if_neg h]
    rfl

theorem fieldKey?_fieldKey {number type : Nat} (hlow : 1 ≤ number) (hhigh : number < pow2 31) (htype : type < 8)
    (rest : Bytes) : fieldKey? (fieldKey number type ++ rest) = some (number, type, rest) := by
  have hbound : number < 2 ^ 31 := hhigh
  have hnumber : (8 * number + type) / 8 = number := by omega
  have hmod : (8 * number + type) % 8 = type := by omega
  rw [fieldKey?, fieldKey, varint?_varint, if_pos (by omega)]
  simp [hnumber, hmod, hlow, hhigh]

theorem ofNat_word (n : Int32) : Int32.ofNat (word n) = n := by
  have h : 0 ≤ n.toInt % (pow2 64 : Int) := Int.emod_nonneg _ (by decide)
  have hdvd : ((2 ^ 32 : Nat) : Int) ∣ ((pow2 64 : Nat) : Int) := by decide
  rw [← Int32.ofInt_eq_ofNat, word, Int.toNat_of_nonneg h, Int32.ofInt_eq_iff_bmod_eq_toInt,
    ← Int.emod_bmod, Int.emod_emod_of_dvd _ hdvd, Int.emod_bmod]
  exact n.toInt_bmod_size

theorem word_lt (n : Int32) : word n < 2 ^ 64 := by
  have h : n.toInt % pow2 64 < pow2 64 := Int.emod_lt_of_pos _ (by decide)
  have h0 : 0 ≤ n.toInt % pow2 64 := Int.emod_nonneg _ (by decide)
  have hp : ((pow2 64 : Nat) : Int) = 2 ^ 64 := by decide
  unfold word
  omega

/-! ## Messages -/

theorem foldFields_nil {σ : Type} (step : σ → Nat → Payload → Except FormatFault σ) (fuel : Nat) (s : σ) :
    foldFields step fuel s [] = .ok s := by
  cases fuel <;> rfl

theorem fieldKey_ne_nil (number type : Nat) : fieldKey number type ≠ [] := by
  rw [fieldKey, varint]
  split <;> simp

/-- One field is read, and then the rest. -/
theorem foldFields_field {σ : Type} (step : σ → Nat → Payload → Except FormatFault σ) {fuel : Nat} (s : σ)
    {number type : Nat} (hlow : 1 ≤ number) (hhigh : number < pow2 29) (htype : type < 8)
    (value rest : Bytes) (hfuel : (fieldKey number type ++ (value ++ rest)).length ≤ fuel) :
    ∃ fuel', rest.length ≤ fuel' ∧
      foldFields step fuel s (fieldKey number type ++ (value ++ rest)) =
        (match payload? ((value ++ rest).length + 1) number type (value ++ rest) with
        | none => .error .malformed
        | some (p, rest') => do foldFields step fuel' (← step s number p) rest') := by
  have hkey : 0 < (fieldKey number type).length := List.length_pos_iff.mpr (fieldKey_ne_nil _ _)
  have hbound : number < pow2 31 := Nat.lt_trans hhigh (by decide)
  simp only [List.length_append] at hfuel
  obtain ⟨fuel, rfl⟩ : ∃ fuel', fuel = fuel' + 1 := ⟨fuel - 1, by omega⟩
  refine ⟨fuel, by omega, ?_⟩
  cases hb : fieldKey number type ++ (value ++ rest) with
  | nil => simp [fieldKey_ne_nil] at hb
  | cons x xs =>
    rw [foldFields, ← hb, fieldKey?_fieldKey hlow hbound htype]
    · exact if_neg (Nat.not_le.mpr hhigh)
    · exact List.cons_ne_nil x xs

theorem payload?_delimited (fuel number : Nat) (b rest : Bytes) :
    payload? (fuel + 1) number 2 (delimited b ++ rest) =
      if b.length < 2 ^ 64 then some (.bytes b, rest) else none := by
  rw [payload?, delimited?_delimited]
  split <;> rfl

theorem payload?_varint (fuel number : Nat) {n : Nat} (h : n < 2 ^ 64) (rest : Bytes) :
    payload? (fuel + 1) number 0 (varint n ++ rest) = some (.number n, rest) := by
  rw [payload?, varint?_varint, if_pos h]
  rfl

theorem field?_number (f : Field) : field? f.number = some f := by
  rcases f with t | i
  · cases t <;> rfl
  · cases i <;> rfl

theorem number_pos (f : Field) : 1 ≤ f.number := by
  rcases f with t | i
  · cases t <;> decide
  · cases i <;> decide

theorem number_lt (f : Field) : f.number < pow2 29 := by
  rcases f with t | i
  · cases t <;> decide
  · cases i <;> decide

/-- The fields of a result are read in the order in which they stand. -/
theorem foldFields_writeField {r : Result} (htext : ∀ t, Bytes.isText (r.text t) = true) {fuel : Nat}
    (acc : Result) {order : List Field} (hfuel : (order.flatMap (writeField r)).length ≤ fuel)
    (hsize : (order.flatMap (writeField r)).length < 2 ^ 64) :
    foldFields readField fuel acc (order.flatMap (writeField r)) =
      .ok (order.foldl r.withField acc) := by
  induction order generalizing fuel acc with
  | nil => exact foldFields_nil _ _ _
  | cons f order ih =>
    rw [List.flatMap_cons] at hfuel hsize ⊢
    have hrest : (order.flatMap (writeField r)).length < 2 ^ 64 := by
      rw [List.length_append] at hsize
      omega
    rw [List.foldl_cons]
    rcases f with t | i
    · by_cases hnil : r.text t = []
      · simp only [writeField, Result.withField, if_pos hnil, List.nil_append] at hfuel ⊢
        exact ih acc hfuel hrest
      · simp only [writeField, Result.withField, if_neg hnil, List.append_assoc] at hfuel hsize ⊢
        obtain ⟨fuel', hfuel', heq⟩ := foldFields_field readField acc (number_pos (.text t))
          (number_lt (.text t)) (by decide) _ _ hfuel
        have hlength : (r.text t).length < 2 ^ 64 := by
          simp only [delimited, List.length_append] at hsize
          omega
        rw [heq, payload?_delimited, if_pos hlength]
        simp only [readField, field?_number, if_pos (htext t)]
        exact ih _ hfuel' hrest
    · by_cases hzero : r.int i = 0
      · simp only [writeField, Result.withField, if_pos hzero, List.nil_append] at hfuel ⊢
        exact ih acc hfuel hrest
      · simp only [writeField, Result.withField, if_neg hzero, List.append_assoc] at hfuel ⊢
        obtain ⟨fuel', hfuel', heq⟩ := foldFields_field readField acc (number_pos (.int i))
          (number_lt (.int i)) (by decide) _ _ hfuel
        rw [heq, payload?_varint _ _ (word_lt _)]
        simp only [readField, field?_number, ofNat_word]
        exact ih _ hfuel' hrest

/-- A message of the fields of a result, in any order, is read as that result. -/
theorem readResult_ordered {r : Result} (htext : ∀ t, Bytes.isText (r.text t) = true) {order : List Field}
    (horder : order.Perm Field.all) (hsize : (order.flatMap (writeField r)).length < 2 ^ 64) :
    readResult (order.flatMap (writeField r)) = .ok r := by
  rw [readResult, foldFields_writeField htext {} (Nat.le_refl _) hsize, Result.foldl_withField]
  exact fun f => horder.mem_iff.mpr f.mem_all

/-! ## Lists -/

/-- `b` is a binary form of `rs`: each result is a message of its fields, which stand in an order of its own. -/
inductive Encodes : Results → Bytes → Prop
  | nil : Encodes [] []
  | cons {order : List Field} : order.Perm Field.all → Encodes rs b →
    Encodes (r :: rs) (fieldKey 1 2 ++ (delimited (order.flatMap (writeField r)) ++ b))

/-- The length of each message is a number of 64 bits. No list in the memory of a machine is larger. -/
def Addressable (rs : Results) : Prop :=
  ∀ r ∈ rs, (writeResult r).length < 2 ^ 64

instance (rs : Results) : Decidable (Addressable rs) :=
  inferInstanceAs (Decidable (∀ r ∈ rs, (writeResult r).length < 2 ^ 64))

theorem length_ordered {order : List Field} (h : order.Perm Field.all) (r : Result) :
    (order.flatMap (writeField r)).length = (writeResult r).length :=
  (h.flatMap_right (writeField r)).length_eq

theorem encodes_flatMap (rs : Results) :
    Encodes rs (rs.flatMap fun r => fieldKey 1 2 ++ delimited (writeResult r)) := by
  induction rs with
  | nil => exact .nil
  | cons r rs ih =>
    rw [List.flatMap_cons, List.append_assoc]
    exact .cons .rfl ih

/-- All results are read up to the first whose length takes more than 64 bits. -/
theorem Encodes.foldFields_readEntry {rs : Results} {b : Bytes} (h : Encodes rs b)
    (htext : ∀ r ∈ rs, ∀ t, Bytes.isText (r.text t) = true) {fuel : Nat} (acc : Results)
    (hfuel : b.length ≤ fuel) :
    foldFields readEntry fuel acc b =
      if Addressable rs then .ok (acc ++ rs) else .error .malformed := by
  induction h generalizing fuel acc with
  | nil =>
    have hnil : Addressable [] := List.forall_mem_nil _
    rw [foldFields_nil, if_pos hnil, List.append_nil]
  | @cons rs b r order horder _ ih =>
    obtain ⟨hhead, htail⟩ := List.forall_mem_cons.mp htext
    obtain ⟨fuel', hfuel', heq⟩ := foldFields_field readEntry acc (by decide) (by decide) (by decide) _ _ hfuel
    have hsplit : Addressable (r :: rs) ↔
        (order.flatMap (writeField r)).length < 2 ^ 64 ∧ Addressable rs := by
      rw [length_ordered horder]
      exact List.forall_mem_cons
    rw [heq, payload?_delimited]
    by_cases hsize : (order.flatMap (writeField r)).length < 2 ^ 64
    · rw [if_pos hsize]
      simp only [readEntry, readResult_ordered hhead horder hsize, hsplit, hsize, true_and]
      refine (ih htail (acc ++ [r]) hfuel').trans ?_
      rw [List.append_assoc, List.singleton_append]
    · rw [if_neg hsize, if_neg (fun hall => hsize (hsplit.mp hall).1)]

theorem Encodes.read?_eq_ok_iff {rs : Results} {b : Bytes} (h : Encodes rs b)
    (htext : ∀ r ∈ rs, ∀ t, Bytes.isText (r.text t) = true) : read? b = .ok rs ↔ Addressable rs := by
  rw [read?, h.foldFields_readEntry htext [] (Nat.le_refl _), List.nil_append]
  by_cases hsize : Addressable rs
  · exact iff_of_true (if_pos hsize) hsize
  · rw [if_neg hsize]
    exact iff_of_false nofun hsize

theorem write?_eq (rs : Results) :
    (∀ r ∈ rs, ∀ t, Bytes.isText (r.text t) = true) ∧ (∃ b, write? rs = .ok b ∧ Encodes rs b) ∨
    (∃ r ∈ rs, ∃ t, Bytes.isText (r.text t) = false) ∧ write? rs = .error .notText := by
  by_cases h : rs.all Result.isText = true
  · refine .inl ⟨fun r hr => Result.isText_iff.mp (List.all_eq_true.mp h r hr), _, if_pos h, ?_⟩
    exact encodes_flatMap rs
  · refine .inr ⟨?_, if_neg h⟩
    simpa [Result.isText_iff] using h

/-! ## Sizes -/

theorem length_varint_le {k n : Nat} (h : n < 2 ^ (7 * (k + 1))) : (varint n).length ≤ k + 1 := by
  induction k generalizing n with
  | zero => rw [varint_of_lt h, List.length_singleton]
  | succ k ih =>
    by_cases hn : n < 128
    · rw [varint_of_lt hn, List.length_singleton]
      omega
    · have hpow : 2 ^ (7 * (k + 1 + 1)) = 2 ^ (7 * (k + 1)) * 128 := by
        rw [show 7 * (k + 1 + 1) = 7 * (k + 1) + 7 by omega, Nat.pow_add]
      have hdiv : n / 128 < 2 ^ (7 * (k + 1)) := by
        rw [Nat.div_lt_iff_lt_mul (by decide), ← hpow]
        exact h
      rw [varint_of_ge hn, List.length_cons]
      exact Nat.succ_le_succ (ih hdiv)

theorem length_fieldKey_le (f : Field) {type : Nat} (h : type < 8) : (fieldKey f.number type).length ≤ 1 := by
  have hnumber : f.number ≤ 11 := by
    rcases f with t | i
    · cases t <;> decide
    · cases i <;> decide
  exact length_varint_le (k := 0) (by omega)

/-- A field takes at most eleven bytes besides its text. -/
theorem length_writeField_le {r : Result} {f : Field} (h : f.textLength r < 2 ^ 63) :
    (writeField r f).length ≤ f.textLength r + 11 := by
  rcases f with t | i
  · have hkey := length_fieldKey_le (.text t) (by decide : 2 < 8)
    have hlength := length_varint_le (k := 9) (n := (r.text t).length) (Nat.lt_trans h (by decide))
    simp only [writeField, Field.textLength]
    split
    · exact Nat.zero_le _
    · simp only [delimited, List.length_append]
      omega
  · have hkey := length_fieldKey_le (.int i) (by decide : 0 < 8)
    have hlength := length_varint_le (k := 9) (Nat.lt_trans (word_lt (r.int i)) (by decide))
    simp only [writeField, Field.textLength]
    split
    · exact Nat.zero_le _
    · simp only [List.length_append]
      omega

theorem addressable_of_textLength {rs : Results} (h : ∀ r ∈ rs, r.textLength < 2 ^ 63) : Addressable rs := by
  intro r hr
  have hsum : r.textLength < 2 ^ 63 := h r hr
  have hfield : ∀ f ∈ Field.all, (writeField r f).length ≤ f.textLength r + 11 := by
    intro f hf
    refine length_writeField_le (Nat.lt_of_le_of_lt ?_ hsum)
    exact List.single_le_sum (fun _ _ => Nat.zero_le _) _ (List.mem_map_of_mem hf)
  have htotal : (writeResult r).length ≤ (Field.all.map fun f => f.textLength r + 11).sum := by
    rw [writeResult, List.length_flatMap]
    exact List.sum_le_sum hfield
  have hadd : (Field.all.map fun f => f.textLength r + 11).sum = r.textLength + 121 := by
    simp [Result.textLength, Field.all]
    omega
  omega

end Wire

open Wire in
/-- **Results survive their binary form.** Writing fails exactly if some text of some result is no UTF-8.
Otherwise it gives a binary form of the list, and each of its binary forms is read as the list itself,
whatever order the fields of each result stand in. The one limit is that lengths have 64 bits, and a result
with less than `2 ^ 63` bytes of text never reaches it. -/
theorem Wire.encodes_reads_back (rs : Results) :
    ((∃ e, write? rs = .error e) ↔ ∃ r ∈ rs, ∃ t, ¬ ∃ s : String, r.text t = Bytes.ofString s) ∧
    ((∀ r ∈ rs, ∀ t, ∃ s : String, r.text t = Bytes.ofString s) →
      (∃ b, write? rs = .ok b ∧ Encodes rs b) ∧
      ∀ b, Encodes rs b → (read? b = .ok rs ↔ Addressable rs)) ∧
    ((∀ r ∈ rs, r.textLength < 2 ^ 63) → Addressable rs) := by
  simp only [← Bytes.isText_iff_string]
  rw [← and_assoc]
  refine ⟨?_, addressable_of_textLength⟩
  rcases write?_eq rs with ⟨htext, b, hwrite, hencodes⟩ | ⟨⟨r, hr, t, ht⟩, hwrite⟩
  · refine ⟨iff_of_false ?_ ?_, fun _ => ⟨⟨b, hwrite, hencodes⟩, fun b hb => hb.read?_eq_ok_iff htext⟩⟩
    · simp [hwrite]
    · rintro ⟨r, hr, t, ht⟩
      exact ht (htext r hr t)
  · have hnot : ¬ Bytes.isText (r.text t) = true := by simp [ht]
    exact ⟨iff_of_true ⟨_, hwrite⟩ ⟨r, hr, t, hnot⟩, fun htext => absurd (htext r hr t) hnot⟩

open Wire in
/-- A result with its fields from the last to the first, and an empty result. -/
theorem Wire.encodes_reads_back_sample :
    (∀ r ∈ [sampleResult, {}], ∀ t, ∃ s : String, r.text t = Bytes.ofString s) ∧
    (∀ r ∈ [sampleResult, {}], r.textLength < 2 ^ 63) ∧
    read? (fieldKey 1 2 ++ (delimited (Field.all.reverse.flatMap (writeField sampleResult))
      ++ (fieldKey 1 2 ++ (delimited (Field.all.flatMap (writeField {})) ++ [])))) =
      .ok [sampleResult, {}] := by
  have htext := sampleResults_text
  have hlength : ∀ r ∈ [sampleResult, {}], r.textLength < 2 ^ 63 := by decide +kernel
  obtain ⟨_, hreads, hsize⟩ := encodes_reads_back [sampleResult, {}]
  refine ⟨htext, hlength, ((hreads htext).2 _ ?_).mpr (hsize hlength)⟩
  exact .cons (List.reverse_perm Field.all) (.cons .rfl .nil)

end TwoPhase
