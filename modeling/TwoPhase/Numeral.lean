/-!
# Integers of fixed width

`fitsSigned` says which integers have a given number of bits, and `Numeral.parse` reads one from the command
line. Such an integer has an optional sign. In base 10 only digits follow. With a free base, `0x`, `0o`, `0b`
or a leading zero give the base, and underscores may separate digits. Numbers that do not fit in the given
number of bits are told from malformed ones.
-/

namespace TwoPhase

/-- The `n`th power of two. -/
def pow2 (n : Nat) : Nat :=
  Nat.pow 2 n

/-- The `n`th power of ten. -/
def pow10 (n : Nat) : Nat :=
  Nat.pow 10 n

/-- The number is a signed one of `bits` bits. -/
def fitsSigned (bits : Nat) (n : Int) : Bool :=
  -(pow2 (bits - 1) : Int) ≤ n && n < pow2 (bits - 1)

namespace Numeral

inductive Fault where
  | malformed
  | outOfRange
  deriving DecidableEq

def digit? (c : Char) : Option Nat :=
  if c.isDigit then some (c.toNat - 48)
  else if 'a' ≤ c.toLower ∧ c.toLower ≤ 'z' then some (c.toLower.toNat - 87)
  else none

/-- Reads digits in a base; a number of more than `bits` bits ends the reading. -/
def digits (bits base : Nat) (underscores : Bool) : Nat → List Char → Except Fault Nat
  | n, [] => .ok n
  | n, c :: cs =>
    if c = '_' ∧ underscores then digits bits base underscores n cs
    else match digit? c with
      | none => .error .malformed
      | some d =>
        if base ≤ d then .error .malformed
        else if pow2 bits ≤ base * n + d then .error .outOfRange
        else digits bits base underscores (base * n + d) cs

/-- The base that the start of a number gives, and the digits behind it. -/
def baseOf (cs : List Char) : Nat × List Char :=
  match cs with
  | '0' :: c :: d :: cs =>
    if c.toLower = 'b' then (2, d :: cs)
    else if c.toLower = 'o' then (8, d :: cs)
    else if c.toLower = 'x' then (16, d :: cs)
    else (8, c :: d :: cs)
  | '0' :: cs => (8, cs)
  | cs => (10, cs)

/-- Underscores stand between digits; `digit` tells that a digit or the mark of a base came last, and
`underscore` that an underscore did. -/
def separated (hex : Bool) : Bool → Bool → List Char → Bool
  | _, underscore, [] => !underscore
  | digit, underscore, c :: cs =>
    if c.isDigit || (hex && 'a' ≤ c.toLower && c.toLower ≤ 'f') then separated hex true false cs
    else if c = '_' then digit && separated hex false true cs
    else !underscore && separated hex false false cs

def underscoresFit (cs : List Char) : Bool :=
  match cs with
  | '0' :: c :: cs =>
    if ['b', 'o', 'x'].contains c.toLower then separated (c.toLower == 'x') true false cs
    else separated false false false ('0' :: c :: cs)
  | cs => separated false false false cs

/-- The number behind the sign. -/
def magnitude (free : Bool) (bits : Nat) (cs : List Char) : Except Fault Nat :=
  if cs.isEmpty then .error .malformed
  else if free then
    let (base, ds) := baseOf cs
    match digits bits base true 0 ds with
    | .ok n => if cs.contains '_' && !underscoresFit cs then .error .malformed else .ok n
    | .error e => .error e
  else digits bits 10 false 0 cs

/-- An integer of `bits` bits; `free` leaves the base to the text. -/
def parse (free : Bool) (bits : Nat) (text : String) : Except Fault Int := do
  let (negative, cs) := match text.toList with
    | '-' :: cs => (true, cs)
    | '+' :: cs => (false, cs)
    | cs => (false, cs)
  let n ← magnitude free bits cs
  if negative then
    if n ≤ pow2 (bits - 1) then return -(n : Int) else throw .outOfRange
  else if n < pow2 (bits - 1) then return n
  else throw .outOfRange

end Numeral

end TwoPhase
