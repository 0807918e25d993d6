import TwoPhase.Proofs.Wording

/-!
# Byte strings that spell characters

The decoder of `Bytes.decode` undoes the encoding of characters, so that well-formed byte strings and lists
of characters are two views of one thing.
-/

namespace TwoPhase

namespace Bytes

theorem ofChars_nil : ofChars [] = [] := rfl

theorem ofChars_cons (c : Char) (cs : List Char) :
    ofChars (c :: cs) = String.utf8EncodeChar c ++ ofChars cs := rfl

theorem ofChars_append (cs ds : List Char) : ofChars (cs ++ ds) = ofChars cs ++ ofChars ds := by
  simp [ofChars]

/-- Well-formed byte strings are those that spell characters. -/
theorem isText_iff {b : Bytes} : isText b = true ↔ ∃ cs, b = ofChars cs := by
  rw [isText, ByteArray.validateUTF8_eq_true_iff]
  constructor
  · rintro ⟨cs, hcs⟩
    refine ⟨cs, ?_⟩
    have h := congrArg (fun a => a.data.toList) hcs
    simpa [List.utf8Encode, ofChars] using h
  · rintro ⟨cs, rfl⟩
    refine ⟨cs, ?_⟩
    refine ByteArray.ext (Array.toList_inj.mp ?_)
    simp [ofChars, List.utf8Encode]

theorem isText_iff_string {b : Bytes} : isText b = true ↔ ∃ s : String, b = ofString s := by
  rw [isText_iff]
  constructor
  · rintro ⟨cs, rfl⟩
    exact ⟨String.ofList cs, by rw [← ofChars_toList, String.toList_ofList]⟩
  · rintro ⟨s, rfl⟩
    exact ⟨s.toList, (ofChars_toList s).symm⟩

theorem utf8EncodeChar_ascii {c : Char} (h : c.toNat < 0x80) :
    String.utf8EncodeChar c = [UInt8.ofNat c.toNat] := by
  have hle : c.toNat ≤ 0x7f := Nat.le_of_lt_succ h
  simp [String.utf8EncodeChar, hle]

theorem toNat_ofNat {n : Nat} (h : n < 256) : (UInt8.ofNat n).toNat = n := by
  rw [UInt8.toNat_ofNat', Nat.mod_eq_of_lt h]

theorem tailBits?_ofNat {n : Nat} (h : n < 64) : tailBits? (UInt8.ofNat (n + 0x80)) = some n := by
  have hn : (UInt8.ofNat (n + 0x80)).toNat = n + 0x80 := toNat_ofNat (by omega)
  rw [tailBits?, hn, if_pos (by omega), Nat.add_sub_cancel]

theorem scalar?_toNat {least : Nat} {c : Char} (h : least ≤ c.toNat) :
    scalar? least c.toNat = some c := by
  have hc : c.toNat.isValidChar := c.valid
  simp [scalar?, h, hc]

/-- `c` is written as a sequence that a lead byte starts, and that is known by its lead byte. -/
def IsSequence (c : Char) : Prop :=
  ∃ lead tail, String.utf8EncodeChar c = lead :: tail ∧ 0x80 ≤ lead.toNat ∧
    ∀ rest, sequence? lead (tail ++ rest) = some (c, tail.length)

theorem isSequence_two {c : Char} (h : 0x80 ≤ c.toNat) (htwo : c.toNat ≤ 0x7ff) : IsSequence c := by
  have hone : ¬ c.toNat ≤ 0x7f := by omega
  have hlead : (UInt8.ofNat (c.toNat / 64 % 32 + 0xc0)).toNat = c.toNat / 64 + 0xc0 := by
    rw [toNat_ofNat (by omega)]
    omega
  have hvalue : (c.toNat / 64 + 0xc0 - 0xc0) * 64 + c.toNat % 64 = c.toNat := by omega
  have hencode : String.utf8EncodeChar c =
      [UInt8.ofNat (c.toNat / 64 % 32 + 0xc0), UInt8.ofNat (c.toNat % 64 + 0x80)] := by
    simp only [String.utf8EncodeChar, Char.toNat_val, if_neg hone, if_pos htwo]
  refine ⟨_, _, hencode, by omega, fun rest => ?_⟩
  simp only [sequence?, List.cons_append, hlead]
  rw [if_pos (by omega)]
  simp only [tailBits?_ofNat (Nat.mod_lt c.toNat (by decide : 0 < 64)),
    Option.bind_eq_bind, Option.bind_some, hvalue, scalar?_toNat h]
  rfl

theorem isSequence_three {c : Char} (h : 0x800 ≤ c.toNat) (hthree : c.toNat ≤ 0xffff) : IsSequence c := by
  have hone : ¬ c.toNat ≤ 0x7f := by omega
  have htwo : ¬ c.toNat ≤ 0x7ff := by omega
  have hlead : (UInt8.ofNat (c.toNat / 4096 % 16 + 0xe0)).toNat = c.toNat / 4096 + 0xe0 := by
    rw [toNat_ofNat (by omega)]
    omega
  have hvalue : ((c.toNat / 4096 + 0xe0 - 0xe0) * 64 + c.toNat / 64 % 64) * 64 + c.toNat % 64
      = c.toNat := by omega
  have hencode : String.utf8EncodeChar c = [UInt8.ofNat (c.toNat / 4096 % 16 + 0xe0),
      UInt8.ofNat (c.toNat / 64 % 64 + 0x80), UInt8.ofNat (c.toNat % 64 + 0x80)] := by
    simp only [String.utf8EncodeChar, Char.toNat_val, if_neg hone, if_neg htwo, if_pos hthree]
  refine ⟨_, _, hencode, by omega, fun rest => ?_⟩
  simp only [sequence?, List.cons_append, hlead]
  rw [if_neg (by omega), if_pos (by omega)]
  simp only [tailBits?_ofNat (Nat.mod_lt _ (by decide : 0 < 64)),
    Option.bind_eq_bind, Option.bind_some, hvalue, scalar?_toNat h]
  rfl

theorem isSequence_four {c : Char} (h : 0x10000 ≤ c.toNat) : IsSequence c := by
  have hmax : c.toNat < 0x110000 := by
    have := c.valid
    simp only [UInt32.isValidChar, Nat.isValidChar, Char.toNat_val] at this
    omega
  have hone : ¬ c.toNat ≤ 0x7f := by omega
  have htwo : ¬ c.toNat ≤ 0x7ff := by omega
  have hthree : ¬ c.toNat ≤ 0xffff := by omega
  have hlead : (UInt8.ofNat (c.toNat / 262144 % 8 + 0xf0)).toNat = c.toNat / 262144 + 0xf0 := by
    rw [toNat_ofNat (by omega)]
    omega
  have hvalue : (((c.toNat / 262144 + 0xf0 - 0xf0) * 64 + c.toNat / 4096 % 64) * 64
      + c.toNat / 64 % 64) * 64 + c.toNat % 64 = c.toNat := by omega
  have hencode : String.utf8EncodeChar c = [UInt8.ofNat (c.toNat / 262144 % 8 + 0xf0),
      UInt8.ofNat (c.toNat / 4096 % 64 + 0x80), UInt8.ofNat (c.toNat / 64 % 64 + 0x80),
      UInt8.ofNat (c.toNat % 64 + 0x80)] := by
    simp only [String.utf8EncodeChar, Char.toNat_val, if_neg hone, if_neg htwo, if_neg hthree]
  refine ⟨_, _, hencode, by omega, fun rest => ?_⟩
  simp only [sequence?, List.cons_append, hlead]
  rw [if_neg (by omega), if_neg (by omega), if_pos (by omega)]
  simp only [tailBits?_ofNat (Nat.mod_lt _ (by decide : 0 < 64)),
    Option.bind_eq_bind, Option.bind_some, hvalue, scalar?_toNat h]
  rfl

/-- A character beyond ASCII is written as a sequence. -/
theorem isSequence_of_le {c : Char} (h : 0x80 ≤ c.toNat) : IsSequence c := by
  by_cases htwo : c.toNat ≤ 0x7ff
  · exact isSequence_two h htwo
  by_cases hthree : c.toNat ≤ 0xffff
  · exact isSequence_three (by omega) hthree
  · exact isSequence_four (by omega)

theorem decode_ofChars (cs : List Char) : decode (ofChars cs) = cs.map some := by
  induction cs with
  | nil => simp [ofChars_nil, decode]
  | cons c cs ih =>
    rw [ofChars_cons]
    by_cases h : c.toNat < 0x80
    · rw [utf8EncodeChar_ascii h, List.singleton_append, decode, toNat_ofNat (by omega), if_pos h, ih,
        Char.ofNat_toNat, List.map_cons]
    · obtain ⟨lead, tail, hc, hlead, hseq⟩ := isSequence_of_le (Nat.le_of_not_lt h)
      rw [hc, List.cons_append, decode, if_neg (by omega), hseq]
      simp [ih]

@[simp]
theorem chars_ofChars (cs : List Char) : chars (ofChars cs) = cs := by
  simp [chars, decode_ofChars, Function.comp_def]

end Bytes

end TwoPhase
