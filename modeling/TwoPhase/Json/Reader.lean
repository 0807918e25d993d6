import TwoPhase.Json.Value

/-!
# Reading JSON text

`Json.parse?` reads one value that fills the text up to blanks; `Json.first?` reads the value that
a text starts with and leaves the rest. Blanks are space, tab, line feed and carriage return. A
`\u` escape that is half of a surrogate pair stands for U+FFFD, and nesting deeper than
`Json.maxDepth` is refused.
-/

namespace TwoPhase.Json

def maxDepth : Nat := 10000

def isSpace (c : Char) : Bool :=
  c == ' ' || c == '\t' || c == '\n' || c == '\r'

def skipSpace (cs : List Char) : List Char :=
  cs.dropWhile isSpace

/-- The value of four hexadecimal digits. -/
def unit? (a b c d : Char) : Option Nat := do
  let a ← Bytes.hexValue? a
  let b ← Bytes.hexValue? b
  let c ← Bytes.hexValue? c
  let d ← Bytes.hexValue? d
  return ((a * 16 + b) * 16 + c) * 16 + d

/-- The character that two surrogate units encode. -/
def surrogatePair? (hi lo : Nat) : Option Char :=
  if 0xd800 ≤ hi ∧ hi < 0xdc00 ∧ 0xdc00 ≤ lo ∧ lo < 0xe000 then
    some (Char.ofNat (0x10000 + (hi - 0xd800) * 0x400 + (lo - 0xdc00)))
  else none

/-- The character of a lone unit. -/
def unitChar (n : Nat) : Char :=
  if n.isValidChar then Char.ofNat n else '�'

/-- What a one-letter escape stands for. -/
def shortEscape? (c : Char) : Option Char :=
  if c = '"' ∨ c = '\\' ∨ c = '/' then some c
  else if c = 'b' then some '\x08'
  else if c = 'f' then some '\x0c'
  else if c = 'n' then some '\n'
  else if c = 'r' then some '\r'
  else if c = 't' then some '\t'
  else none

/-- The text after a point inside a string: an escaped unit that stands first and may be the low
half of a pair, and the characters after it. -/
structure Tail where
  unit : Option Nat := none
  chars : List Char := []

namespace Tail

/-- The characters, a first unit that was not paired included. -/
def flush (t : Tail) : List Char :=
  match t.unit with
  | some n => unitChar n :: t.chars
  | none => t.chars

def consChar (c : Char) (t : Tail) : Tail :=
  { chars := c :: t.flush }

/-- Puts an escaped unit in front, joined with the unit that follows if the two are a pair. -/
def consUnit (n : Nat) (t : Tail) : Tail :=
  match t.unit.bind (surrogatePair? n) with
  | some c => { chars := c :: t.chars }
  | none => { unit := some n, chars := t.flush }

end Tail

/-- The rest of a quoted string after its opening quote, and what follows the closing one. -/
def stringTail? : List Char → Option (Tail × List Char)
  | [] => none
  | '"' :: rest => some ({}, rest)
  | '\\' :: 'u' :: a :: b :: c :: d :: rest => do
    let n ← unit? a b c d
    let (t, r) ← stringTail? rest
    return (t.consUnit n, r)
  | '\\' :: c :: rest => do
    let c ← shortEscape? c
    let (t, r) ← stringTail? rest
    return (t.consChar c, r)
  | c :: rest =>
    if c.toNat < 0x20 ∨ c = '\\' then none
    else do
      let (t, r) ← stringTail? rest
      return (t.consChar c, r)
termination_by structural cs => cs

/-- The characters of a quoted string after its opening quote, and what follows the closing one. -/
def stringBody? (cs : List Char) : Option (List Char × List Char) := do
  let (t, r) ← stringTail? cs
  return (t.flush, r)

/-- A run of digits, which must not be empty. -/
def digits? (cs : List Char) : Option (List Char × List Char) :=
  match cs.takeWhile Char.isDigit with
  | [] => none
  | ds => some (ds, cs.dropWhile Char.isDigit)

/-- The integer part of a number: a zero, or digits that start with no zero. -/
def integerPart? : List Char → Option (List Char × List Char)
  | '0' :: rest => some (['0'], rest)
  | cs => digits? cs

def fraction? : List Char → Option (List Char × List Char)
  | '.' :: rest => do
    let (ds, r) ← digits? rest
    return ('.' :: ds, r)
  | cs => some ([], cs)

def exponent? : List Char → Option (List Char × List Char)
  | e :: rest =>
    if e = 'e' ∨ e = 'E' then
      match rest with
      | s :: rest' =>
        if s = '+' ∨ s = '-' then do
          let (ds, r) ← digits? rest'
          return (e :: s :: ds, r)
        else do
          let (ds, r) ← digits? rest
          return (e :: ds, r)
      | [] => none
    else some ([], e :: rest)
  | [] => some ([], [])

/-- The written form of the number that a text starts with. -/
def number? (cs : List Char) : Option (List Char × List Char) := do
  let (sign, cs) := match cs with
    | '-' :: rest => (['-'], rest)
    | _ => ([], cs)
  let (i, cs) ← integerPart? cs
  let (f, cs) ← fraction? cs
  let (e, cs) ← exponent? cs
  return (sign ++ i ++ f ++ e, cs)

/-- What follows `word`, if the text starts with it. -/
def word? (word cs : List Char) : Option (List Char) :=
  if word.isPrefixOf cs then some (cs.drop word.length) else none

mutual

/-- The value that a text starts with. `fuel` bounds the steps and `depth` the nesting. -/
def value? : Nat → Nat → List Char → Option (Json × List Char)
  | 0, _, _ => none
  | fuel + 1, depth, cs =>
    match skipSpace cs with
    | '"' :: rest => do
      let (s, r) ← stringBody? rest
      return (string (String.ofList s), r)
    | '[' :: rest =>
      match depth with
      | 0 => none
      | depth + 1 =>
        match skipSpace rest with
        | ']' :: r => some (array [], r)
        | r => do
          let (xs, r) ← items? fuel depth r
          return (array xs, r)
    | '{' :: rest =>
      match depth with
      | 0 => none
      | depth + 1 =>
        match skipSpace rest with
        | '}' :: r => some (object [], r)
        | r => do
          let (ms, r) ← members? fuel depth r
          return (object ms, r)
    | 't' :: rest => do return (bool true, ← word? ['r', 'u', 'e'] rest)
    | 'f' :: rest => do return (bool false, ← word? ['a', 'l', 's', 'e'] rest)
    | 'n' :: rest => do return (null, ← word? ['u', 'l', 'l'] rest)
    | r => do
      let (n, r) ← number? r
      return (number (String.ofList n), r)

/-- The items of an array up to its closing bracket. -/
def items? : Nat → Nat → List Char → Option (List Json × List Char)
  | 0, _, _ => none
  | fuel + 1, depth, cs => do
    let (v, r) ← value? fuel depth cs
    match skipSpace r with
    | ',' :: r => do
      let (vs, r) ← items? fuel depth r
      return (v :: vs, r)
    | ']' :: r => return ([v], r)
    | _ => none

/-- The members of an object up to its closing brace. -/
def members? : Nat → Nat → List Char → Option (List (String × Json) × List Char)
  | 0, _, _ => none
  | fuel + 1, depth, cs =>
    match skipSpace cs with
    | '"' :: rest => do
      let (k, r) ← stringBody? rest
      match skipSpace r with
      | ':' :: r => do
        let (v, r) ← value? fuel depth r
        match skipSpace r with
        | ',' :: r => do
          let (ms, r) ← members? fuel depth r
          return ((String.ofList k, v) :: ms, r)
        | '}' :: r => return ([(String.ofList k, v)], r)
        | _ => none
      | _ => none
    | _ => none

end

/-- The value that a text starts with, and the rest of the text. -/
def first? (cs : List Char) : Option (Json × List Char) :=
  value? (2 * cs.length + 2) maxDepth cs

/-- The value of a text that holds nothing else but blanks. -/
def parse? (cs : List Char) : Option Json :=
  match first? cs with
  | some (v, r) => if (skipSpace r).isEmpty then some v else none
  | none => none

end TwoPhase.Json
