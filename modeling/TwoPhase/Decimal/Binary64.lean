import TwoPhase.Numeral

/-!
# Double precision numbers

A finite number is `m · 2 ^ e` with `m < 2 ^ 53` and `-1074 ≤ e`. `ofDecimal?` rounds a decimal to
the nearest one, ties to an even `m`; `shortest` finds the fewest decimal digits that round back;
`text` writes them positionally from 0.0001 up to a million, and with an exponent elsewhere.
-/

namespace TwoPhase

inductive Binary64 where
  | nan
  | infinite (negative : Bool)
  | finite (negative : Bool) (m : Nat) (e : Int)
  deriving DecidableEq, Inhabited

namespace Binary64

/-- The quotient rounded to the nearest natural number, a tie to the even one. -/
def roundDiv (num den : Nat) : Nat :=
  let q := num / den
  let r := num % den
  if 2 * r < den then q
  else if den < 2 * r then q + 1
  else if q % 2 = 0 then q else q + 1

/-- `num / den` scaled by `2 ^ (-e)`, as a fraction of natural numbers. -/
def scaled (num den : Nat) (e : Int) : Nat × Nat :=
  if 0 ≤ e then (num, den * pow2 e.toNat) else (num * pow2 (-e).toNat, den)

/-- The number nearest to `num / den`, `none` if that is too large. -/
def ofFraction? (negative : Bool) (num den : Nat) : Option Binary64 :=
  if num = 0 then some (.finite negative 0 0)
  else
    let guess : Int := (num.log2 : Int) - den.log2 - 52
    let (a, b) := scaled num den guess
    let e := max (-1074) (if a / b < pow2 52 then guess - 1 else guess)
    let (a, b) := scaled num den e
    let m := roundDiv a b
    let (m, e) := if m = pow2 53 then (pow2 52, e + 1) else (m, e)
    if 971 < e then none else some (.finite negative m e)

/-- The number nearest to `digits · 10 ^ exponent`, `none` if that is too large. -/
def ofDecimal? (negative : Bool) (digits : Nat) (exponent : Int) : Option Binary64 :=
  if digits = 0 then some (.finite negative 0 0)
  else
    let size : Int := (Nat.toDigits 10 digits).length + exponent
    if 400 < size then none
    else if size < -400 then some (.finite negative 0 0)
    else if 0 ≤ exponent then ofFraction? negative (digits * pow10 exponent.toNat) 1
    else ofFraction? negative digits (pow10 (-exponent).toNat)

/-- An integer as a double precision number. -/
def ofInt (n : Int) : Binary64 :=
  (ofFraction? (n < 0) n.natAbs 1).getD (.infinite (n < 0))

/-- The integer part, `none` if the number is not finite. -/
def truncate? : Binary64 → Option Int
  | finite negative m e =>
    let n : Int := if 0 ≤ e then m * pow2 e.toNat else m / pow2 (-e).toNat
    some (if negative then -n else n)
  | _ => none

/-- The fewest digits that round back to `m · 2 ^ e`, and the power of ten of the first of them
plus one; of several, the nearest. -/
def shortest (m : Nat) (e : Int) : List Char × Int :=
  -- the number and the ends of the interval that rounds to it, as multiples of 1 / den
  let lowGap := if m = pow2 52 ∧ -1074 < e then 1 else 2
  let (v, low, high, den) :=
    if 0 ≤ e then
      let u := pow2 e.toNat
      (4 * m * u, (4 * m - lowGap) * u, (4 * m + 2) * u, 4)
    else (4 * m, 4 * m - lowGap, 4 * m + 2, 4 * pow2 (-e).toNat)
  let inside (n : Nat) : Bool :=
    if m % 2 = 0 then low ≤ n && n ≤ high else low < n && n < high
  -- the exponent p with 10 ^ (p - 1) ≤ v / den < 10 ^ p
  let below (p : Int) : Bool :=
    if 0 ≤ p then v < den * pow10 p.toNat else v * pow10 (-p).toNat < den
  let p : Int := ((List.range 660).find? fun (k : Nat) => below ((k : Int) - 330)).getD 0 - 330
  let grid (n : Nat) : Option Nat :=
    -- the unit of the last of n digits is 10 ^ (p - n)
    let u : Int := p - n
    let (a, b) := if 0 ≤ u then (v, den * pow10 u.toNat) else (v * pow10 (-u).toNat, den)
    let back (q : Nat) : Nat := -- q units times den, scaled as v is when u < 0
      if 0 ≤ u then q * pow10 u.toNat * den else q * den
    let fits (q : Nat) : Bool :=
      if 0 ≤ u then inside (back q)
      else
        let s := pow10 (-u).toNat
        if m % 2 = 0 then low * s ≤ back q && back q ≤ high * s
        else low * s < back q && back q < high * s
    let q := a / b
    let nearer := if 2 * (a % b) ≤ b then [q, q + 1] else [q + 1, q]
    nearer.find? fits
  match (List.range 17).findSome? fun n => grid (n + 1) with
  | some q =>
    let ds := Nat.toDigits 10 q
    let n := ((List.range 17).find? fun n => (grid (n + 1)).isSome).getD 0 + 1
    -- q may have gained a digit by rounding up to a power of ten
    let p := p + (ds.length : Int) - n
    let ds := (ds.reverse.dropWhile (· == '0')).reverse
    (ds, p)
  | none => ([], 0)

def zeros (n : Nat) : List Char :=
  List.replicate n '0'

/-- Digits with `10 ^ (p - 1)` for the first of them: `d.ddde±xx` if that power is below -4 or
above 5, otherwise positional. -/
def digitsText (ds : List Char) (p : Int) : String :=
  let x := p - 1
  if x < -4 ∨ 6 ≤ x then
    let tail := match ds.tail with
      | [] => []
      | t => '.' :: t
    let n := Nat.toDigits 10 x.natAbs
    let n := if n.length < 2 then '0' :: n else n
    String.ofList (ds.take 1 ++ tail ++ ['e', if x < 0 then '-' else '+'] ++ n)
  else if p ≤ 0 then String.ofList (['0', '.'] ++ zeros (-p).toNat ++ ds)
  else if ds.length ≤ p.toNat then String.ofList (ds ++ zeros (p.toNat - ds.length))
  else String.ofList (ds.take p.toNat ++ ['.'] ++ ds.drop p.toNat)

/-- The shortest text that reads back. -/
def text : Binary64 → String
  | nan => "NaN"
  | infinite negative => if negative then "-Inf" else "+Inf"
  | finite negative m e =>
    let body := if m = 0 then "0" else let (ds, p) := shortest m e; digitsText ds p
    if negative then "-" ++ body else body

end Binary64

end TwoPhase
