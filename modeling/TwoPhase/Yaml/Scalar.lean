import TwoPhase.Decimal.Binary64
import TwoPhase.Text.Base64
import TwoPhase.Yaml.Node

/-!
# The values of YAML scalars

A plain scalar may stand for null, a truth value or a number; any other one is text. Integers may
be signed, have a base given by `0x`, `0o`, `0b` or a leading `0`, and hold underscores; they fit in
64 bits, with or without sign. A number with a fraction or an exponent is a double precision number,
unless it is too large: then it is text. A tag asks for a kind, and a scalar of another kind is
refused.
-/

namespace TwoPhase.Yaml

inductive Scalar where
  | null
  | bool (b : Bool)
  | int (n : Int)
  | float (x : Binary64)
  | text (s : String)
  deriving DecidableEq, Inhabited

namespace Scalar

/-- Words that stand for something else than text. -/
def words : List (List String × Scalar) :=
  [(["y", "Y", "yes", "Yes", "YES", "true", "True", "TRUE", "on", "On", "ON"], .bool true),
   (["n", "N", "no", "No", "NO", "false", "False", "FALSE", "off", "Off", "OFF"], .bool false),
   (["", "~", "null", "Null", "NULL"], .null),
   ([".nan", ".NaN", ".NAN"], .float .nan),
   ([".inf", ".Inf", ".INF", "+.inf", "+.Inf", "+.INF"], .float (.infinite false)),
   (["-.inf", "-.Inf", "-.INF"], .float (.infinite true))]

def word? (s : String) : Option Scalar :=
  words.findSome? fun (ws, v) => if ws.contains s then some v else none

def digitValue? (base : Nat) (c : Char) : Option Nat :=
  match Bytes.hexValue? c with
  | some d => if d < base then some d else none
  | none => none

/-- A number in a base, of at least one digit. -/
def natural? (base : Nat) (cs : List Char) : Option Nat :=
  if cs.isEmpty then none
  else cs.foldlM (fun n c => do return base * n + (← digitValue? base c)) 0

/-- Splits a sign off; the flag tells a minus. -/
def sign : List Char → Bool × Bool × List Char
  | '-' :: cs => (true, true, cs)
  | '+' :: cs => (true, false, cs)
  | cs => (false, false, cs)

/-- The digits of an integer behind its sign, with the base that their start gives. -/
def magnitude? : List Char → Option Nat
  | '0' :: c :: cs =>
    if c == 'x' || c == 'X' then natural? 16 cs
    else if c == 'o' || c == 'O' then natural? 8 cs
    else if c == 'b' || c == 'B' then natural? 2 cs
    else natural? 8 (c :: cs)
  | cs => natural? 10 cs

/-- An integer of 64 bits; without a sign it may use the sign bit as well. -/
def integer? (cs : List Char) : Option Int := do
  let (signed, negative, digits) := sign cs
  let n ← magnitude? digits
  if negative then
    if n ≤ pow2 63 then some (-n) else none
  else if n < pow2 63 ∨ (¬ signed ∧ n < pow2 64) then some n
  else none

/-- The exponent behind a number, 0 if nothing stands there. -/
def exponent? : List Char → Option Int
  | [] => some 0
  | e :: cs =>
    if e == 'e' || e == 'E' then
      let (_, minus, ds) := sign cs
      (natural? 10 ds).map fun n => if minus then -(n : Int) else n
    else none

/-- A decimal number with an optional fraction and exponent. -/
def decimal? (cs : List Char) : Option Binary64 := do
  let (_, negative, cs) := sign cs
  let whole := cs.takeWhile Char.isDigit
  let cs := cs.dropWhile Char.isDigit
  let (fraction, cs) := match cs with
    | '.' :: cs => (cs.takeWhile Char.isDigit, cs.dropWhile Char.isDigit)
    | cs => ([], cs)
  if whole.isEmpty && fraction.isEmpty then none
  else
    let exponent ← exponent? cs
    let digits ← natural? 10 (whole ++ fraction)
    Binary64.ofDecimal? negative digits (exponent - fraction.length)

/-- The value of an untagged plain scalar. -/
def ofPlain (s : String) : Scalar :=
  match word? s with
  | some v => v
  | none =>
    match s.toList with
    | c :: _ =>
      if c == '.' then ((decimal? s.toList).map .float).getD (.text s)
      else if c.isDigit || c == '+' || c == '-' then
        let cs := s.toList.filter (· ≠ '_')
        ((integer? cs).map Scalar.int <|> (decimal? cs).map Scalar.float).getD (.text s)
      else .text s
    | [] => .text s

def standardTag (kind : String) : String :=
  "tag:yaml.org,2002:" ++ kind

/-- The value of a scalar node. -/
def resolve? (tag text : String) (plain : Bool) : Option Scalar :=
  if tag = "" then some (if plain then ofPlain text else .text text)
  else if tag = standardTag "str" then some (.text text)
  else if tag = standardTag "binary" then (Base64.decode? text).map fun b => .text b.display
  else if tag = standardTag "null" then
    match ofPlain text with
    | .null => some .null
    | _ => none
  else if tag = standardTag "bool" then
    match ofPlain text with
    | .bool b => some (.bool b)
    | _ => none
  else if tag = standardTag "int" then
    match ofPlain text with
    | .int n => some (.int n)
    | _ => none
  else if tag = standardTag "float" then
    match ofPlain text with
    | .int n => if n < pow2 63 then some (.float (Binary64.ofInt n)) else none
    | .float x => some (.float x)
    | _ => none
  else some (.text text)

/-- The integer of 64 bits that a scalar gives: an integer, or a number cut at its point. What lies
below all integers counts as the least one, and so does the first one above them. -/
def toInt? : Scalar → Option Int
  | .int n => if n < pow2 63 then some n else none
  | .float x =>
    match x with
    | .infinite true => some (-(pow2 63 : Int))
    | _ => do
      let n ← x.truncate?
      if n ≤ -(pow2 63 : Int) ∨ n = pow2 63 then some (-(pow2 63 : Int))
      else if n < pow2 63 then some n
      else none
  | _ => none

end Scalar

end TwoPhase.Yaml
