import TwoPhase.Numeral
import TwoPhase.Report.Result

/-!
# Results in binary form

A list of results is a message with one field, number 1, for each result, and a result is a message with
the fields of `Field`. A field starts with a key of its number and wire type; fields that are empty or
zero are not written. Reading takes the fields in any order, the last of each number, and passes over
fields that it does not know or that have another wire type.
-/

namespace TwoPhase

/-- Why results cannot be written or read. -/
inductive FormatFault where
  | malformed
  | notText
  deriving DecidableEq

namespace Wire

/-! ## Writing -/

/-- A natural number in groups of seven bits, the lowest first; all bytes but the last have the high
bit. -/
def varint (n : Nat) : Bytes :=
  if n < 128 then [UInt8.ofNat n]
  else UInt8.ofNat (n % 128 + 128) :: varint (n / 128)
termination_by n

/-- The key of a field. -/
def fieldKey (number type : Nat) : Bytes :=
  varint (8 * number + type)

/-- Bytes behind their length. -/
def delimited (b : Bytes) : Bytes :=
  varint b.length ++ b

/-- A number of 32 bits as one of 64 bits without sign. -/
def word (n : Int32) : Nat :=
  (n.toInt % pow2 64).toNat

def writeField (r : Result) (f : Field) : Bytes :=
  match f with
  | .text t => if r.text t = [] then [] else fieldKey f.number 2 ++ delimited (r.text t)
  | .int i => if r.int i = 0 then [] else fieldKey f.number 0 ++ varint (word (r.int i))

def writeResult (r : Result) : Bytes :=
  Field.all.flatMap (writeField r)

/-- Results with texts that are no UTF-8 are not written. -/
def write? (rs : Results) : Except FormatFault Bytes :=
  if rs.all Result.isText then
    .ok (rs.flatMap fun r => fieldKey 1 2 ++ delimited (writeResult r))
  else .error .notText

/-! ## Reading -/

/-- Reads a number of at most `k` groups, which makes up to 64 bits in all. -/
def varintWithin? : Nat → Bytes → Option (Nat × Bytes)
  | 0, _ => none
  | _ + 1, [] => none
  | k + 1, b :: rest =>
    if b.toNat < 128 then
      if k = 0 ∧ 2 ≤ b.toNat then none else some (b.toNat, rest)
    else do
      let (n, rest) ← varintWithin? k rest
      return (b.toNat - 128 + 128 * n, rest)

def varint? (b : Bytes) : Option (Nat × Bytes) :=
  varintWithin? 10 b

/-- The number and wire type of a field. -/
def fieldKey? (b : Bytes) : Option (Nat × Nat × Bytes) := do
  let (k, rest) ← varint? b
  let number := k / 8
  if 1 ≤ number ∧ number < pow2 31 then some (number, k % 8, rest) else none

def delimited? (b : Bytes) : Option (Bytes × Bytes) := do
  let (n, rest) ← varint? b
  if n ≤ rest.length then some (rest.take n, rest.drop n) else none

/-- The value of a field; of values that no field here has, only that they are there. -/
inductive Payload where
  | number (n : Nat)
  | bytes (b : Bytes)
  | other

def skip? (n : Nat) (b : Bytes) : Option (Payload × Bytes) :=
  if n ≤ b.length then some (.other, b.drop n) else none

mutual

/-- Reads the value of a field. -/
def payload? (fuel number type : Nat) (b : Bytes) : Option (Payload × Bytes) :=
  match fuel with
  | 0 => none
  | fuel + 1 =>
    match type with
    | 0 => (varint? b).map fun (n, rest) => (.number n, rest)
    | 1 => skip? 8 b
    | 2 => (delimited? b).map fun (x, rest) => (.bytes x, rest)
    | 3 => (group? fuel number b).map fun rest => (.other, rest)
    | 5 => skip? 4 b
    | _ => none

/-- Passes over the fields of a group and its end. -/
def group? (fuel number : Nat) (b : Bytes) : Option Bytes :=
  match fuel with
  | 0 => none
  | fuel + 1 => do
    let (n, type, rest) ← fieldKey? b
    if type = 4 then (if n = number then some rest else none)
    else
      let (_, rest) ← payload? fuel n type rest
      group? fuel number rest

end

/-- Reads the fields of a message one by one, at most `fuel` of them. -/
def foldFields {σ : Type} (step : σ → Nat → Payload → Except FormatFault σ) :
    Nat → σ → Bytes → Except FormatFault σ
  | _, s, [] => .ok s
  | 0, _, _ :: _ => .error .malformed
  | fuel + 1, s, b =>
    match fieldKey? b with
    | none => .error .malformed
    | some (number, type, rest) =>
      if pow2 29 ≤ number then .error .malformed
      else match payload? (rest.length + 1) number type rest with
        | none => .error .malformed
        | some (p, rest) => do foldFields step fuel (← step s number p) rest

def field? (number : Nat) : Option Field :=
  Field.all.find? (·.number == number)

def readField (r : Result) (number : Nat) (p : Payload) : Except FormatFault Result :=
  match field? number, p with
  | some (.text f), .bytes b => if Bytes.isText b then .ok (r.setText f b) else .error .notText
  | some (.int f), .number n => .ok (r.setInt f (Int32.ofNat n))
  | _, _ => .ok r

def readResult (b : Bytes) : Except FormatFault Result :=
  foldFields readField b.length {} b

def readEntry (rs : Results) (number : Nat) (p : Payload) : Except FormatFault Results :=
  match number, p with
  | 1, .bytes b => do return rs ++ [← readResult b]
  | _, _ => .ok rs

def read? (b : Bytes) : Except FormatFault Results :=
  foldFields readEntry b.length [] b

end Wire

end TwoPhase
