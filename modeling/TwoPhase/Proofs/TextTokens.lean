import TwoPhase.Proofs.DecimalDigits
import TwoPhase.Proofs.Utf8
import TwoPhase.Report.TextForm
import Mathlib.Algebra.Group.Nat.Defs
import Mathlib.Data.List.Basic
import Mathlib.Data.List.TakeWhile

/-!
# Strings and numbers in text form

A character between quotes is written as itself or by an escape, and either way it is read back
(`TextForm.standsFor_escape`); so whole strings are. Numbers in decimal notation read back up to the end of
their line.
-/

namespace TwoPhase

namespace TextForm

open Bytes (hexDigits isDigit)

/-- A reading that has succeeded goes on. -/
theorem ok_bind {ε α β : Type} (a : α) (f : α → Except ε β) : (Except.ok a >>= f) = f a := rfl

/-! ## Hexadecimal digits -/

/-- The byte of a hexadecimal digit. -/
def hexByte (d : Nat) : UInt8 :=
  UInt8.ofNat (Nat.digitChar d).toNat

theorem utf8EncodeChar_digitChar {d : Nat} (h : d < 16) :
    String.utf8EncodeChar (Nat.digitChar d) = [hexByte d] := by
  have hall : ∀ d < 16, (Nat.digitChar d).toNat < 0x80 := by decide
  exact Bytes.utf8EncodeChar_ascii (hall d h)

theorem hexValue?_hexByte {d : Nat} (h : d < 16) :
    Bytes.hexValue? (Char.ofNat (hexByte d).toNat) = some d := by
  have hall : ∀ d < 16, Bytes.hexValue? (Char.ofNat (hexByte d).toNat) = some d := by decide
  exact hall d h

theorem ofChars_hexDigits_succ (k n : Nat) :
    Bytes.ofChars (hexDigits (k + 1) n) = Bytes.ofChars (hexDigits k (n / 16)) ++ [hexByte (n % 16)] := by
  rw [hexDigits, Bytes.ofChars_append, Bytes.ofChars_cons, Bytes.ofChars_nil, List.append_nil,
    utf8EncodeChar_digitChar (Nat.mod_lt n (by decide))]

@[simp]
theorem length_hexDigits (k n : Nat) : (Bytes.ofChars (hexDigits k n)).length = k := by
  induction k generalizing n with
  | zero => rfl
  | succ k ih => rw [ofChars_hexDigits_succ, List.length_append, ih, List.length_singleton]

theorem isHex_of_mem {k n : Nat} {x : UInt8} (h : x ∈ Bytes.ofChars (hexDigits k n)) :
    (Bytes.hexValue? (Char.ofNat x.toNat)).isSome = true := by
  induction k generalizing n with
  | zero => cases h
  | succ k ih =>
    rw [ofChars_hexDigits_succ] at h
    rcases List.mem_append.mp h with h | h
    · exact ih h
    · rw [List.mem_singleton.mp h, hexValue?_hexByte (Nat.mod_lt n (by decide)), Option.isSome_some]

theorem hexNumber?_hexDigits (k n : Nat) :
    hexNumber? (Bytes.ofChars (hexDigits k n)) = some (n % 16 ^ k) := by
  induction k generalizing n with
  | zero => simp [hexDigits, hexNumber?, Bytes.ofChars_nil, Nat.mod_one]
  | succ k ih =>
    have hvalue : 16 * (n / 16 % 16 ^ k) + n % 16 = n % 16 ^ (k + 1) := by
      rw [Nat.pow_succ', Nat.mod_mul, Nat.add_comm]
    unfold hexNumber? at ih ⊢
    rw [ofChars_hexDigits_succ, List.foldlM_append, ih]
    simp [hexValue?_hexByte (Nat.mod_lt n (by decide : 0 < 16)), hvalue]

/-! ## Escapes -/

/-- Behind a quote, `text` stands for `c`. -/
def StandsFor (text : Bytes) (c : Char) : Prop :=
  ∀ fuel s rest tail, stringTail 0x22 fuel rest = .ok (s, tail) →
    stringTail 0x22 (fuel + 1) (text ++ rest) = .ok (String.utf8EncodeChar c ++ s, tail)

theorem standsFor_escaped {text : Bytes} {c : Char}
    (h : ∀ rest, escaped? (text ++ rest) = some (String.utf8EncodeChar c, rest)) :
    StandsFor (0x5c :: text) c := by
  intro fuel s rest tail hrest
  rw [List.cons_append, stringTail, if_neg (by decide), if_neg (by decide), if_pos rfl, h]
  simp only [hrest]
  rfl

theorem standsFor_short {e : UInt8} {c : Char} (hc : c.toNat < 0x80)
    (h : shortEscape? e = some (UInt8.ofNat c.toNat)) : StandsFor [0x5c, e] c := by
  refine standsFor_escaped fun rest => ?_
  rw [List.singleton_append, escaped?, h, Bytes.utf8EncodeChar_ascii hc]

theorem standsFor_byte {c : Char} (hc : c.toNat < 0x80) :
    StandsFor (0x5c :: 0x78 :: Bytes.ofChars (hexDigits 2 c.toNat)) c := by
  refine standsFor_escaped fun rest => ?_
  have hshort : shortEscape? 0x78 = none := by decide
  have htake : (Bytes.ofChars (hexDigits 2 c.toNat) ++ rest).take 2 = Bytes.ofChars (hexDigits 2 c.toNat) :=
    List.take_left' (length_hexDigits 2 _)
  have hall : (Bytes.ofChars (hexDigits 2 c.toNat)).takeWhile
      (fun x => (Bytes.hexValue? (Char.ofNat x.toNat)).isSome) = Bytes.ofChars (hexDigits 2 c.toNat) :=
    List.takeWhile_eq_self_iff.mpr fun _ hx => isHex_of_mem hx
  have hnumber : hexNumber? (Bytes.ofChars (hexDigits 2 c.toNat)) = some c.toNat := by
    rw [hexNumber?_hexDigits, Nat.mod_eq_of_lt (by omega)]
  have hne : (Bytes.ofChars (hexDigits 2 c.toNat)).isEmpty = false := by
    rw [List.isEmpty_eq_false_iff, ← List.length_pos_iff, length_hexDigits]
    decide
  rw [List.cons_append, escaped?, hshort, Bytes.utf8EncodeChar_ascii hc]
  simp [htake, hall, hne, hnumber]

theorem codePoint?_four {c : Char} (h : c.toNat < 0xd800) (rest : Bytes) :
    codePoint? 4 (Bytes.ofChars (hexDigits 4 c.toNat) ++ rest) = some (String.utf8EncodeChar c, rest) := by
  have hvalue : c.toNat % 16 ^ 4 = c.toNat := Nat.mod_eq_of_lt (by omega)
  have hencode : utf8 c.toNat = String.utf8EncodeChar c := by
    rw [utf8, Char.ofNat_toNat, Bytes.ofChars_cons, Bytes.ofChars_nil, List.append_nil]
  have hlength : ¬ (Bytes.ofChars (hexDigits 4 c.toNat) ++ rest).length < 4 := by
    rw [List.length_append, length_hexDigits]
    omega
  rw [codePoint?, if_neg hlength, List.take_left' (length_hexDigits 4 _),
    List.drop_left' (length_hexDigits 4 _), hexNumber?_hexDigits, hvalue]
  simp only [Option.bind_eq_bind, Option.bind_some]
  rw [if_neg (by omega), if_neg (by omega), hencode]

theorem standsFor_codePoint {c : Char} (h : c.toNat < 0xd800) :
    StandsFor (0x5c :: 0x75 :: Bytes.ofChars (hexDigits 4 c.toNat)) c := by
  refine standsFor_escaped fun rest => ?_
  have hshort : shortEscape? 0x75 = none := by decide
  rw [List.cons_append, escaped?, hshort, ← codePoint?_four h rest]
  rfl

theorem standsFor_self {c : Char} (hquote : c ≠ '"') (hbackslash : c ≠ '\\') (hcontrol : 0x20 ≤ c.toNat) :
    StandsFor (String.utf8EncodeChar c) c := by
  intro fuel s rest tail hrest
  by_cases hc : c.toNat < 0x80
  · have hbyte : (UInt8.ofNat c.toNat).toNat = c.toNat := Bytes.toNat_ofNat (by omega)
    have hne : ∀ {x : UInt8}, c ≠ Char.ofNat x.toNat → UInt8.ofNat c.toNat ≠ x := by
      rintro x hx rfl
      exact hx (by rw [hbyte, Char.ofNat_toNat])
    have hzero : UInt8.ofNat c.toNat ≠ 0 := hne (by rintro rfl; exact absurd hcontrol (by decide))
    have hline : UInt8.ofNat c.toNat ≠ 0x0a := hne (by rintro rfl; exact absurd hcontrol (by decide))
    rw [Bytes.utf8EncodeChar_ascii hc, List.singleton_append, stringTail, if_neg (hne (x := 0x22) hquote),
      if_neg (not_or_intro hzero hline), if_neg (hne (x := 0x5c) hbackslash), if_pos (by rwa [hbyte]), hrest]
    rfl
  · obtain ⟨lead, more, hencode, hlead, hsequence⟩ := Bytes.isSequence_of_le (Nat.le_of_not_lt hc)
    have hne : ∀ {x : UInt8}, x.toNat < 0x80 → lead ≠ x := by
      rintro x hx rfl
      omega
    rw [hencode, List.cons_append, stringTail, if_neg (hne (by decide)),
      if_neg (not_or_intro (hne (by decide)) (hne (by decide))), if_neg (hne (by decide)),
      if_neg (by omega), hsequence]
    simp only [List.drop_left, List.take_left, hrest]
    rfl

/-- **What is written for a character stands for it.** -/
theorem standsFor_escape (c : Char) : StandsFor (Bytes.ofChars (escape c)) c := by
  unfold escape
  split
  next h =>
    rcases h with rfl | rfl <;> exact standsFor_short (by decide) (by decide)
  split
  next h =>
    subst h
    exact standsFor_short (by decide) (by decide)
  split
  next h =>
    subst h
    exact standsFor_short (by decide) (by decide)
  split
  next h =>
    subst h
    exact standsFor_short (by decide) (by decide)
  split
  next h => exact standsFor_byte (by omega)
  split
  next h => exact standsFor_codePoint (by omega)
  next hquote _ _ _ hcontrol _ =>
    rw [Bytes.ofChars_cons, Bytes.ofChars_nil, List.append_nil]
    exact standsFor_self (fun h => hquote (.inl h)) (fun h => hquote (.inr h)) (by omega)

/-! ## Strings -/

theorem length_le_ofChars_escape (cs : List Char) : cs.length ≤ (Bytes.ofChars (cs.flatMap escape)).length := by
  induction cs with
  | nil => exact Nat.zero_le _
  | cons c cs ih =>
    have hpos : 0 < (Bytes.ofChars (escape c)).length := by
      obtain ⟨x, xs, hx⟩ : ∃ x xs, escape c = x :: xs := by
        unfold escape
        repeat' split
        all_goals exact ⟨_, _, rfl⟩
      rw [hx, Bytes.ofChars_cons, List.length_append, String.length_utf8EncodeChar]
      exact Nat.add_pos_left x.utf8Size_pos _
    rw [List.flatMap_cons, Bytes.ofChars_append, List.length_append, List.length_cons]
    omega

theorem stringTail_escape (cs : List Char) (rest : Bytes) {fuel : Nat} (hfuel : cs.length < fuel) :
    stringTail 0x22 fuel (Bytes.ofChars (cs.flatMap escape) ++ 0x22 :: rest) =
      .ok (Bytes.ofChars cs, rest) := by
  induction cs generalizing fuel with
  | nil =>
    obtain ⟨fuel, rfl⟩ := Nat.exists_eq_add_of_lt hfuel
    rfl
  | cons c cs ih =>
    obtain ⟨fuel, rfl⟩ : ∃ fuel', fuel = fuel' + 1 := ⟨fuel - 1, by omega⟩
    rw [List.flatMap_cons, Bytes.ofChars_append, List.append_assoc]
    exact standsFor_escape c _ _ _ _ (ih (Nat.lt_of_succ_lt_succ hfuel))

theorem quoted_ofChars (cs : List Char) :
    quoted (Bytes.ofChars cs) = 0x22 :: (Bytes.ofChars (cs.flatMap escape) ++ [0x22]) := by
  rw [quoted, Bytes.chars_ofChars, List.cons_append, Bytes.ofChars_cons, Bytes.ofChars_append]
  rfl

/-- What comes next, white space apart, opens no further string. -/
def NoStringNext (rest : Bytes) : Prop :=
  ∀ q tail, skipSpace false rest = q :: tail → q ≠ 0x22 ∧ q ≠ 0x27

/-- A quoted text reads back. -/
theorem strings_quoted {b : Bytes} (hb : Bytes.isText b = true) {rest : Bytes} (hrest : NoStringNext rest)
    (fuel : Nat) : strings (fuel + 1) (quoted b ++ rest) = .ok (b, skipSpace false rest) := by
  obtain ⟨cs, rfl⟩ := Bytes.isText_iff.mp hb
  have hfuel : cs.length < (Bytes.ofChars (cs.flatMap escape) ++ 0x22 :: rest).length + 1 := by
    have hlength := length_le_ofChars_escape cs
    rw [List.length_append]
    omega
  have htail := stringTail_escape cs rest hfuel
  rw [quoted_ofChars, List.cons_append, List.append_assoc, List.singleton_append, strings,
    if_pos (.inl rfl), htail, ok_bind]
  cases hnext : skipSpace false rest with
  | nil => simp only [hnext]; rfl
  | cons q tail =>
    simp only [hnext, if_neg (not_or_intro (hrest q tail hnext).1 (hrest q tail hnext).2)]
    rfl

/-! ## Numbers -/

theorem char_ofByte {c : Char} (h : c.toNat < 0x80) : Char.ofNat (UInt8.ofNat c.toNat).toNat = c := by
  rw [Bytes.toNat_ofNat (by omega), Char.ofNat_toNat]

theorem hexValue?_of_isDigit {c : Char} (h : c.isDigit = true) : Bytes.hexValue? c = some (c.toNat - 48) := by
  have hrange : '0' ≤ c ∧ c ≤ '9' := by
    simpa [Char.isDigit, Char.le_def] using h
  rw [Bytes.hexValue?, if_pos hrange]

theorem ofChars_ascii {cs : List Char} (h : ∀ c ∈ cs, c.toNat < 0x80) :
    Bytes.ofChars cs = cs.map fun c => UInt8.ofNat c.toNat := by
  induction cs with
  | nil => rfl
  | cons c cs ih =>
    obtain ⟨hc, hcs⟩ := List.forall_mem_cons.mp h
    rw [Bytes.ofChars_cons, Bytes.utf8EncodeChar_ascii hc, ih hcs, List.map_cons, List.singleton_append]

theorem ofChars_toDigits (n : Nat) :
    Bytes.ofChars (Nat.toDigits 10 n) = (Nat.toDigits 10 n).map fun c => UInt8.ofNat c.toNat := by
  refine ofChars_ascii fun c hc => ?_
  have := toNat_of_isDigit (isDigit_toDigits hc)
  omega

/-- The value of a byte that is a digit. -/
theorem hexValue?_digit {n : Nat} {c : Char} (h : c ∈ Nat.toDigits 10 n) :
    Bytes.hexValue? (Char.ofNat (UInt8.ofNat c.toNat).toNat) = some (c.toNat - 48) := by
  have hdigit := isDigit_toDigits h
  have hrange := toNat_of_isDigit hdigit
  rw [char_ofByte (by omega), hexValue?_of_isDigit hdigit]

theorem ofChars_toDigits_eq_cons (n : Nat) :
    ∃ x xs, Bytes.ofChars (Nat.toDigits 10 n) = x :: xs ∧ isDigit x = true := by
  obtain ⟨c, cs, hcs⟩ := List.exists_cons_of_ne_nil (Nat.toDigits_ne_nil (n := n) (b := 10))
  have hdigit := isDigit_toDigits (hcs ▸ List.mem_cons_self : c ∈ Nat.toDigits 10 n)
  have hrange := toNat_of_isDigit hdigit
  refine ⟨UInt8.ofNat c.toNat, _, by rw [ofChars_toDigits, hcs, List.map_cons], ?_⟩
  rw [isDigit, char_ofByte (by omega), hdigit]

/-- A digit in the given base. -/
def isBaseDigit (base : Nat) (x : UInt8) : Bool :=
  match Bytes.hexValue? (Char.ofNat x.toNat) with
  | some d => d < base
  | none => false

theorem digits?_eq {base : Nat} {b ds rest : Bytes} (htake : b.takeWhile (isBaseDigit base) = ds)
    (hds : ds ≠ []) (hdrop : b.drop ds.length = rest) (hrest : wordEnds rest = true) :
    digits? base b =
      some (ds.foldl (fun n x => base * n + (Bytes.hexValue? (Char.ofNat x.toNat)).getD 0) 0, rest) := by
  subst htake
  subst hdrop
  exact (if_neg fun hnil => hds (List.isEmpty_iff.mp hnil)).trans (if_pos hrest)

/-- The digits of a number are read up to the end of the line. -/
theorem digits?_toDigits (n : Nat) (rest : Bytes) :
    digits? 10 (Bytes.ofChars (Nat.toDigits 10 n) ++ 0x0a :: rest) = some (n, 0x0a :: rest) := by
  have hdigits : ∀ x ∈ Bytes.ofChars (Nat.toDigits 10 n), isBaseDigit 10 x = true := by
    rw [ofChars_toDigits]
    intro x hx
    obtain ⟨c, hc, rfl⟩ := List.mem_map.mp hx
    have hrange := toNat_of_isDigit (isDigit_toDigits hc)
    simp only [isBaseDigit, hexValue?_digit hc, decide_eq_true_eq]
    omega
  have hvalue : (Bytes.ofChars (Nat.toDigits 10 n)).foldl
      (fun n x => 10 * n + (Bytes.hexValue? (Char.ofNat x.toNat)).getD 0) 0 = n := by
    rw [ofChars_toDigits, List.foldl_map]
    refine (List.foldl_ext _ _ 0 fun m c hc => ?_).trans Nat.ofDigitChars_ten_toDigits
    rw [hexValue?_digit hc]
    rfl
  have htake : (Bytes.ofChars (Nat.toDigits 10 n) ++ 0x0a :: rest).takeWhile (isBaseDigit 10) =
      Bytes.ofChars (Nat.toDigits 10 n) := by
    have hline : isBaseDigit 10 0x0a = false := by decide
    rw [List.takeWhile_append_of_pos hdigits, List.takeWhile_cons, hline]
    simp
  have hnil : Bytes.ofChars (Nat.toDigits 10 n) ≠ [] := by
    rw [ofChars_toDigits]
    simp
  rw [digits?_eq htake hnil (List.drop_left) rfl, hvalue]

theorem magnitude?_toDigits {n : Nat} (h : 0 < n) (rest : Bytes) :
    magnitude? (Bytes.ofChars (Nat.toDigits 10 n) ++ 0x0a :: rest) = some (n, 0x0a :: rest) := by
  rw [← digits?_toDigits n rest]
  obtain ⟨c, cs, hcs, hc⟩ := toDigits_eq_cons h
  have hdigit := toNat_of_isDigit (isDigit_toDigits (hcs ▸ List.mem_cons_self : c ∈ Nat.toDigits 10 n))
  have hbyte : UInt8.ofNat c.toNat ≠ 0x30 := by
    intro heq
    refine hc ?_
    rw [← char_ofByte (by omega : c.toNat < 0x80), heq]
    rfl
  rw [hcs, Bytes.ofChars_cons, Bytes.utf8EncodeChar_ascii (by omega), List.singleton_append, List.cons_append]
  unfold magnitude?
  split
  next heq => exact absurd (List.cons.inj heq).1 hbyte
  next => rfl

theorem fitsSigned_toInt (n : Int32) : fitsSigned 32 n.toInt = true := by
  have hlow := n.le_toInt
  have hhigh := n.toInt_lt
  have hpow : ((pow2 (32 - 1) : Nat) : Int) = 2 ^ 31 := by decide
  simp only [fitsSigned, hpow, Bool.and_eq_true, decide_eq_true_eq]
  omega

theorem int?_minus {b rest : Bytes} {m : Nat} {n : Int32} (h : magnitude? b = some (m, rest))
    (hn : -(m : Int) = n.toInt) : int? (0x2d :: b) = some (n, rest) := by
  have hread : int? (0x2d :: b) = (magnitude? b).bind fun p =>
      if fitsSigned 32 (-(p.1 : Int)) then some (Int32.ofInt (-(p.1 : Int)), p.2) else none := rfl
  rw [hread, h, Option.bind_some]
  simp only [hn, fitsSigned_toInt, if_true, Int32.ofInt_toInt]

theorem int?_plus {x : UInt8} {b rest : Bytes} {m : Nat} {n : Int32} (hx : x ≠ 0x2d)
    (h : magnitude? (x :: b) = some (m, rest)) (hn : (m : Int) = n.toInt) :
    int? (x :: b) = some (n, rest) := by
  have hread : int? (x :: b) = (magnitude? (x :: b)).bind fun p =>
      if fitsSigned 32 (p.1 : Int) then some (Int32.ofInt (p.1 : Int), p.2) else none := by
    unfold int?
    split
    next hsign =>
      split at hsign
      next heq => exact absurd (List.cons.inj heq).1 hx
      next =>
        obtain ⟨rfl, rfl⟩ := Prod.mk.inj hsign
        rfl
  rw [hread, h, Option.bind_some]
  simp only [hn, fitsSigned_toInt, if_true, Int32.ofInt_toInt]

/-- A number in decimal notation reads back. -/
theorem int?_repr {n : Int32} (h : n ≠ 0) (rest : Bytes) :
    int? (Bytes.ofString n.toInt.repr ++ 0x0a :: rest) = some (n, 0x0a :: rest) := by
  have hpos : 0 < n.toInt.natAbs := by
    rw [Int.natAbs_pos]
    exact fun hzero => h (Int32.toInt_inj.mp hzero)
  have hmagnitude := magnitude?_toDigits hpos rest
  rw [← Bytes.ofChars_toList, toList_repr_int]
  by_cases hneg : n.toInt < 0
  · have hminus : Bytes.ofChars ['-'] = [0x2d] := by decide
    rw [if_pos hneg, Bytes.ofChars_append, hminus, List.append_assoc, List.singleton_append]
    exact int?_minus hmagnitude (by omega)
  · obtain ⟨x, xs, hxs, hx⟩ := ofChars_toDigits_eq_cons n.toInt.natAbs
    rw [if_neg hneg, List.nil_append]
    rw [hxs, List.cons_append] at hmagnitude ⊢
    refine int?_plus ?_ hmagnitude (by omega)
    rintro rfl
    exact absurd hx (by decide)

end TextForm

end TwoPhase
