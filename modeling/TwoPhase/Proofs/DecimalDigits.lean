import TwoPhase.Numeral

/-!
# Decimal digits

How a number is written in decimal notation: a sign if it is negative, then digits that start with no zero
unless the number is zero itself.
-/

namespace TwoPhase

theorem toList_repr_int (n : Int) :
    n.repr.toList = (if n < 0 then ['-'] else []) ++ Nat.toDigits 10 n.natAbs := by
  cases n with
  | ofNat m => simp [Int.repr, Int.not_lt.mpr (Int.natCast_nonneg m)]
  | negSucc m => simp [Int.repr, Int.negSucc_lt_zero m]

theorem isDigit_toDigits {n : Nat} {c : Char} (h : c ∈ Nat.toDigits 10 n) : c.isDigit = true :=
  Nat.isDigit_of_mem_toDigits (by decide) (by decide) h

theorem toNat_of_isDigit {c : Char} (h : c.isDigit = true) : 48 ≤ c.toNat ∧ c.toNat ≤ 57 := by
  simpa [Char.isDigit, UInt32.le_iff_toNat_le] using h

/-- The digits of a number have its value. -/
theorem foldl_toDigits (n : Nat) :
    (Nat.toDigits 10 n).foldl (fun (k : Int) c => 10 * k + (c.toNat - 48)) 0 = n := by
  have hcast : ∀ cs : List Char, (∀ c ∈ cs, c.isDigit = true) → ∀ k : Nat,
      cs.foldl (fun (k : Int) c => 10 * k + (c.toNat - 48)) k = (Nat.ofDigitChars 10 cs k : Int) := by
    intro cs hcs
    induction cs with
    | nil => exact fun _ => rfl
    | cons c cs ih =>
      intro k
      have hc := toNat_of_isDigit (hcs c List.mem_cons_self)
      have hhead : 10 * (k : Int) + (c.toNat - 48) = ((10 * k + (c.toNat - 48) : Nat) : Int) := by omega
      rw [List.foldl_cons, hhead, ih fun d hd => hcs d (List.mem_cons_of_mem _ hd)]
      rfl
  have hvalue := hcast (Nat.toDigits 10 n) (fun c hc => isDigit_toDigits hc) 0
  rwa [Nat.ofDigitChars_ten_toDigits] at hvalue

/-- The digits of a number other than zero start with no zero. -/
theorem toDigits_eq_cons {n : Nat} (h : 0 < n) : ∃ c cs, Nat.toDigits 10 n = c :: cs ∧ c ≠ '0' := by
  induction n using Nat.strongRecOn with
  | ind n ih =>
    by_cases hn : n < 10
    · have hall : ∀ d < 10, 0 < d → Nat.digitChar d ≠ '0' := by decide
      exact ⟨_, [], Nat.toDigits_of_lt_base hn, hall n hn h⟩
    · obtain ⟨c, cs, hdigits, hc⟩ := ih (n / 10) (by omega) (by omega)
      refine ⟨c, cs ++ [Nat.digitChar (n % 10)], ?_, hc⟩
      rw [Nat.toDigits_of_base_le (by decide) (by omega), hdigits, List.cons_append]

end TwoPhase
