/-!
# Byte strings

File contents, and text that may not be well-formed UTF-8, are lists of bytes. `Bytes.decode`
reads such a list character by character; a byte that starts no well-formed sequence stands for
itself alone, and `Bytes.chars` shows it as U+FFFD.
-/

namespace TwoPhase

abbrev Bytes := List UInt8

namespace Bytes

/-- The UTF-8 bytes of a string. -/
def ofString (s : String) : Bytes :=
  s.toByteArray.data.toList

/-- The UTF-8 bytes of a list of characters. -/
def ofChars (cs : List Char) : Bytes :=
  cs.flatMap String.utf8EncodeChar

/-- The string that the bytes spell, if they are well-formed UTF-8. -/
def toString? (b : Bytes) : Option String :=
  String.fromUTF8? ⟨b.toArray⟩

/-- Well-formed UTF-8. -/
def isText (b : Bytes) : Bool :=
  (ByteArray.mk b.toArray).validateUTF8

/-- The low six bits of a continuation byte. -/
def tailBits? (b : UInt8) : Option Nat :=
  if 0x80 ≤ b.toNat ∧ b.toNat < 0xc0 then some (b.toNat - 0x80) else none

/-- The scalar value `n`, provided it is at least `least`. -/
def scalar? (least n : Nat) : Option Char :=
  if least ≤ n ∧ n.isValidChar then some (Char.ofNat n) else none

/-- The character of a well-formed sequence of two to four bytes that `lead` starts, and the
number of bytes after `lead`. -/
def sequence? (lead : UInt8) (rest : Bytes) : Option (Char × Nat) :=
  let a := lead.toNat
  if 0xc2 ≤ a ∧ a < 0xe0 then
    match rest with
    | b :: _ => do
      let b ← tailBits? b
      return (← scalar? 0x80 ((a - 0xc0) * 64 + b), 1)
    | _ => none
  else if 0xe0 ≤ a ∧ a < 0xf0 then
    match rest with
    | b :: c :: _ => do
      let b ← tailBits? b
      let c ← tailBits? c
      return (← scalar? 0x800 (((a - 0xe0) * 64 + b) * 64 + c), 2)
    | _ => none
  else if 0xf0 ≤ a ∧ a < 0xf5 then
    match rest with
    | b :: c :: d :: _ => do
      let b ← tailBits? b
      let c ← tailBits? c
      let d ← tailBits? d
      return (← scalar? 0x10000 ((((a - 0xf0) * 64 + b) * 64 + c) * 64 + d), 3)
    | _ => none
  else none

/-- The characters of a byte string, with `none` for a byte that starts no well-formed sequence. -/
def decode : Bytes → List (Option Char)
  | [] => []
  | b :: rest =>
    if b.toNat < 0x80 then some (Char.ofNat b.toNat) :: decode rest
    else match sequence? b rest with
      | some (c, n) => some c :: decode (rest.drop n)
      | none => none :: decode rest
termination_by b => b.length
decreasing_by all_goals simp only [List.length_cons, List.length_drop]; omega

/-- The characters of a byte string, ill-formed bytes shown as U+FFFD. -/
def chars (b : Bytes) : List Char :=
  b.decode.map (·.getD '�')

/-- The text of a byte string, ill-formed bytes shown as U+FFFD. -/
def display (b : Bytes) : String :=
  String.ofList b.chars

/-! ## Digits -/

def isDigit (b : UInt8) : Bool :=
  (Char.ofNat b.toNat).isDigit

/-- The last `k` hexadecimal digits of a number, in lower case. -/
def hexDigits : Nat → Nat → List Char
  | 0, _ => []
  | k + 1, n => hexDigits k (n / 16) ++ [Nat.digitChar (n % 16)]

/-- Two hexadecimal digits a byte. -/
def hex (b : Bytes) : String :=
  String.ofList (b.flatMap fun x => hexDigits 2 x.toNat)

/-- The value of a hexadecimal digit of either case. -/
def hexValue? (c : Char) : Option Nat :=
  if '0' ≤ c ∧ c ≤ '9' then some (c.toNat - 48)
  else if 'a' ≤ c ∧ c ≤ 'f' then some (c.toNat - 87)
  else if 'A' ≤ c ∧ c ≤ 'F' then some (c.toNat - 55)
  else none

/-- Reads pairs of hexadecimal digits. -/
def ofHex? : List Char → Option Bytes
  | [] => some []
  | a :: b :: rest => do
    let a ← hexValue? a
    let b ← hexValue? b
    return UInt8.ofNat (16 * a + b) :: (← ofHex? rest)
  | _ => none

end Bytes

end TwoPhase
