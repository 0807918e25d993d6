import TwoPhase.Json.Value
import TwoPhase.Numeral

/-!
# Reading one place of a record from several values

An object may name a member twice, and then both values are read into the same place, the later
one over the earlier. A place is therefore read from the list of all values written to it, oldest
first:

* a text, flag or number keeps the last value that is not null;
* a record takes the members of all its values together;
* an optional record starts afresh after a null;
* a list starts afresh after a null or an empty array; otherwise entry `i` is read from the
  `i`-th items of all arrays since then, and the last array says how many entries there are.

A value of the wrong type is refused wherever it stands. Names are compared without regard to
case, where the long s and the Kelvin sign count as forms of `s` and `k`.
-/

namespace TwoPhase.Json

/-- All values written to one place, oldest first. -/
abbrev Layers := List Json

mutual

def depth : Json → Nat
  | array xs => depthItems xs + 1
  | object ms => depthMembers ms + 1
  | _ => 1

def depthItems : List Json → Nat
  | [] => 0
  | x :: xs => max (depth x) (depthItems xs)

def depthMembers : List (String × Json) → Nat
  | [] => 0
  | (_, v) :: ms => max (depth v) (depthMembers ms)

end

def foldChar (c : Char) : Char :=
  if c = 'ſ' then 's' else if c = 'K' then 'k' else c.toLower

/-- `key` is `name`, which is in lower case, up to case. -/
def sameName (key name : String) : Bool :=
  key.toList.map foldChar == name.toList

/-- The values of the members called `name`, which is in lower case. -/
def named (ms : List (String × Json)) (name : String) : Layers :=
  ms.filterMap fun (k, v) => if sameName k name then some v else none

namespace Layers

/-- The last of the values that `f` accepts; `f` gives `some none` for a value to pass over. -/
def latest {α : Type} (f : Json → Option (Option α)) : Layers → Option (Option α)
  | [] => some none
  | v :: vs => do
    let x ← f v
    let y ← latest f vs
    return y <|> x

def asText : Json → Option (Option String)
  | null => some none
  | string s => some (some s)
  | _ => none

def asBool : Json → Option (Option Bool)
  | null => some none
  | bool b => some (some b)
  | _ => none

/-- An integer is written with digits alone and fits in 64 bits. -/
def integer? (text : String) : Option Int :=
  let (neg, ds) := match text.toList with
    | '-' :: ds => (true, ds)
    | ds => (false, ds)
  if ds.isEmpty || !ds.all Char.isDigit then none
  else
    let n : Int := ds.foldl (fun n c => 10 * n + (c.toNat - 48)) 0
    let n := if neg then -n else n
    if fitsSigned 64 n then some n else none

def asInt : Json → Option (Option Int)
  | null => some none
  | number t => (integer? t).map some
  | _ => none

def text? (vs : Layers) : Option String :=
  (latest asText vs).map (·.getD "")

def flag? (vs : Layers) : Option Bool :=
  (latest asBool vs).map (·.getD false)

def int? (vs : Layers) : Option Int :=
  (latest asInt vs).map (·.getD 0)

/-- The members of all the objects in the layers. -/
def members? : Layers → Option (List (String × Json))
  | [] => some []
  | null :: vs => members? vs
  | object ms :: vs => do return ms ++ (← members? vs)
  | _ :: _ => none

/-- Cuts the layers behind each value at which reading starts afresh; such values are left out. -/
def segments (afresh : Json → Bool) : Layers → List Layers
  | [] => [[]]
  | v :: vs =>
    if afresh v then [] :: segments afresh vs
    else match segments afresh vs with
      | s :: ss => (v :: s) :: ss
      | [] => [[v]]

def isNull : Json → Bool
  | null => true
  | _ => false

/-- An optional record: absent if nothing follows the last null. -/
def optional? {α : Type} (read : Layers → Option α) (vs : Layers) : Option (Option α) := do
  let parts ← (segments isNull vs).mapM fun s =>
    if s.isEmpty then some none else (read s).map some
  return parts.getLast?.join

def isReset : Json → Bool
  | null => true
  | array [] => true
  | _ => false

def items? : Json → Option (List Json)
  | array xs => some xs
  | _ => none

/-- The columns of a list of rows: column `i` holds the `i`-th items of the rows that have one. -/
def columns : Nat → List (List Json) → List Layers
  | 0, _ => []
  | n + 1, rows => rows.filterMap List.head? :: columns n (rows.map List.tail)

/-- A list, whose entries `read` reads. -/
def list? {α : Type} (read : Layers → Option α) (vs : Layers) : Option (List α) := do
  let parts ← (segments isReset vs).mapM fun s => do
    let rows ← s.mapM items?
    let width := rows.foldl (fun n r => max n r.length) 0
    let entries ← (columns width rows).mapM read
    return entries.take (rows.getLast?.getD []).length
  return parts.getLast?.getD []

/-- The last value written is an array. -/
def isListed (vs : Layers) : Bool :=
  match vs.getLast? with
  | some (array _) => true
  | _ => false

end Layers

end TwoPhase.Json
