import TwoPhase.Report.Wire

/-!
# Results in text form

Each result is written as `results: { … }` with one line for each field that is not empty or zero. Reading
is more liberal: fields may stand in any order and be parted by commas or semicolons, braces may be
angles, several results may stand in a list, comments run from `#` to the end of the line, numbers may be
hexadecimal or octal, and adjacent strings are joined. A field may be given once only.
-/

namespace TwoPhase

namespace TextForm

/-! ## Writing -/

/-- How a character stands inside quotes. -/
def escape (c : Char) : List Char :=
  if c = '"' ∨ c = '\\' then ['\\', c]
  else if c = '\n' then ['\\', 'n']
  else if c = '\r' then ['\\', 'r']
  else if c = '\t' then ['\\', 't']
  else if c.toNat < 0x20 ∨ c.toNat = 0x7f then '\\' :: 'x' :: Bytes.hexDigits 2 c.toNat
  else if 0x80 ≤ c.toNat ∧ c.toNat ≤ 0x9f then '\\' :: 'u' :: Bytes.hexDigits 4 c.toNat
  else [c]

/-- A text between quotes. -/
def quoted (b : Bytes) : Bytes :=
  Bytes.ofChars ('"' :: (Bytes.chars b).flatMap escape ++ ['"'])

def fieldLine (label : String) (value : Bytes) : Bytes :=
  Bytes.ofString ("  " ++ label ++ ": ") ++ value ++ [0x0a]

def writeField (r : Result) (f : Field) : Bytes :=
  match f with
  | .text t => if r.text t = [] then [] else fieldLine f.label (quoted (r.text t))
  | .int i =>
    if r.int i = 0 then [] else fieldLine f.label (Bytes.ofString (r.int i).toInt.repr)

def writeResult (r : Result) : Bytes :=
  match Field.all.flatMap (writeField r) with
  | [] => Bytes.ofString "results: \x7b\x7d\n"
  | lines => Bytes.ofString "results: \x7b\n" ++ lines ++ Bytes.ofString "\x7d\n"

def write? (rs : Results) : Except FormatFault Bytes :=
  if rs.all Result.isText then .ok (rs.flatMap writeResult) else .error .notText

/-! ## Reading -/

def isSpace (b : UInt8) : Bool :=
  b == 0x20 || b == 0x0a || b == 0x0d || b == 0x09

/-- Drops white space and comments; `comment` says that one is open. -/
def skipSpace (comment : Bool) : Bytes → Bytes
  | [] => []
  | b :: rest =>
    if comment then skipSpace (b ≠ 0x0a) rest
    else if isSpace b then skipSpace false rest
    else if b = 0x23 then skipSpace true rest
    else b :: rest

def isLetter (b : UInt8) : Bool :=
  let c := Char.ofNat b.toNat
  c.isAlpha || c == '_'

/-- Bytes that may not follow an identifier or a number directly. -/
def isWord (b : UInt8) : Bool :=
  isLetter b || Bytes.isDigit b || b == 0x2d || b == 0x2b || b == 0x2e

/-- Nothing stands next that belongs to the word before. -/
def wordEnds : Bytes → Bool
  | [] => true
  | b :: _ => !isWord b

def identifier? (b : Bytes) : Option (Bytes × Bytes) :=
  match b with
  | c :: _ =>
    if isLetter c then
      let name := b.takeWhile fun x => isLetter x || Bytes.isDigit x
      let rest := b.drop name.length
      if wordEnds rest then some (name, rest) else none
    else none
  | [] => none

def digits? (base : Nat) (b : Bytes) : Option (Nat × Bytes) :=
  let isBaseDigit (x : UInt8) : Bool :=
    match Bytes.hexValue? (Char.ofNat x.toNat) with
    | some d => d < base
    | none => false
  let ds := b.takeWhile isBaseDigit
  if ds.isEmpty then none
  else
    let n := ds.foldl (fun n x => base * n + (Bytes.hexValue? (Char.ofNat x.toNat)).getD 0) 0
    let rest := b.drop ds.length
    if wordEnds rest then some (n, rest) else none

/-- A number behind its sign: hexadecimal, octal or decimal. -/
def magnitude? : Bytes → Option (Nat × Bytes)
  | 0x30 :: c :: rest =>
    if c = 0x78 ∨ c = 0x58 then digits? 16 rest
    else if Bytes.isDigit c then digits? 8 (c :: rest)
    else if wordEnds (c :: rest) then some (0, c :: rest)
    else none
  | b => digits? 10 b

/-- An integer of 32 bits. -/
def int? (b : Bytes) : Option (Int32 × Bytes) := do
  let (negative, b) := match b with
    | 0x2d :: b => (true, b)
    | b => (false, b)
  let (m, rest) ← magnitude? b
  let n : Int := if negative then -m else m
  if fitsSigned 32 n then some (Int32.ofInt n, rest) else none

/-- The number that hexadecimal digits give, all of `b`. -/
def hexNumber? (b : Bytes) : Option Nat :=
  b.foldlM (fun n x => do return 16 * n + (← Bytes.hexValue? (Char.ofNat x.toNat))) 0

def utf8 (n : Nat) : Bytes :=
  Bytes.ofChars [Char.ofNat n]

/-- A code point of `n` hexadecimal digits; a high surrogate needs `\u` and a low one behind it. -/
def codePoint? (n : Nat) (b : Bytes) : Option (Bytes × Bytes) := do
  if b.length < n then none
  else
    let v ← hexNumber? (b.take n)
    let rest := b.drop n
    if 0x10ffff < v then none
    else if 0xd800 ≤ v ∧ v < 0xe000 then
      match rest with
      | 0x5c :: 0x75 :: rest =>
        if rest.length < 4 then none
        else
          let w ← hexNumber? (rest.take 4)
          if v < 0xdc00 ∧ 0xdc00 ≤ w ∧ w < 0xe000 then
            some (utf8 (0x10000 + (v - 0xd800) * 1024 + (w - 0xdc00)), rest.drop 4)
          else none
      | _ => none
    else some (utf8 v, rest)

def shortEscape? (b : UInt8) : Option UInt8 :=
  match Char.ofNat b.toNat with
  | '"' => some 0x22
  | '\'' => some 0x27
  | '\\' => some 0x5c
  | '?' => some 0x3f
  | 'a' => some 0x07
  | 'b' => some 0x08
  | 'n' => some 0x0a
  | 'r' => some 0x0d
  | 't' => some 0x09
  | 'v' => some 0x0b
  | 'f' => some 0x0c
  | _ => none

/-- The bytes that an escape behind a backslash gives. -/
def escaped? : Bytes → Option (Bytes × Bytes)
  | [] => none
  | c :: rest =>
    match shortEscape? c with
    | some x => some ([x], rest)
    | none =>
      let isOctal (x : UInt8) : Bool := 0x30 ≤ x && x ≤ 0x37
      if isOctal c then
        let ds := ((c :: rest).take 3).takeWhile isOctal
        let v := ds.foldl (fun n x => 8 * n + (x.toNat - 48)) 0
        if v < 256 then some ([UInt8.ofNat v], (c :: rest).drop ds.length) else none
      else if c = 0x78 then
        let ds := (rest.take 2).takeWhile fun x => (Bytes.hexValue? (Char.ofNat x.toNat)).isSome
        if ds.isEmpty then none
        else do return ([UInt8.ofNat (← hexNumber? ds)], rest.drop ds.length)
      else if c = 0x75 then codePoint? 4 rest
      else if c = 0x55 then codePoint? 8 rest
      else none

/-- The rest of a string behind its opening quote, at most `fuel` steps. -/
def stringTail (quote : UInt8) : Nat → Bytes → Except FormatFault (Bytes × Bytes)
  | 0, _ => .error .malformed
  | _ + 1, [] => .error .malformed
  | fuel + 1, b :: rest =>
    if b = quote then .ok ([], rest)
    else if b = 0 ∨ b = 0x0a then .error .malformed
    else if b = 0x5c then
      match escaped? rest with
      | none => .error .malformed
      | some (x, rest) => do
        let (s, rest) ← stringTail quote fuel rest
        return (x ++ s, rest)
    else if b.toNat < 0x80 then do
      let (s, rest) ← stringTail quote fuel rest
      return (b :: s, rest)
    else
      match Bytes.sequence? b rest with
      | none => .error .notText
      | some (_, n) => do
        let (s, tail) ← stringTail quote fuel (rest.drop n)
        return (b :: rest.take n ++ s, tail)

/-- One or more adjacent strings, joined. -/
def strings : Nat → Bytes → Except FormatFault (Bytes × Bytes)
  | 0, _ => .error .malformed
  | fuel + 1, b =>
    match b with
    | q :: rest =>
      if q = 0x22 ∨ q = 0x27 then do
        let (s, rest) ← stringTail q (rest.length + 1) rest
        let rest := skipSpace false rest
        match rest with
        | c :: _ =>
          if c = 0x22 ∨ c = 0x27 then
            let (t, rest) ← strings fuel rest
            return (s ++ t, rest)
          else return (s, rest)
        | [] => return (s, rest)
      else .error .malformed
    | [] => .error .malformed

/-- The name of a field and whether a colon follows; then white space is dropped. -/
def fieldName (b : Bytes) : Except FormatFault (Bytes × Bool × Bytes) :=
  match identifier? b with
  | none => .error .malformed
  | some (name, rest) =>
    match skipSpace false rest with
    | 0x3a :: rest => .ok (name, true, skipSpace false rest)
    | rest => .ok (name, false, rest)

/-- Drops one comma or semicolon. -/
def separator (b : Bytes) : Bytes :=
  match b with
  | c :: rest => if c = 0x2c ∨ c = 0x3b then skipSpace false rest else b
  | [] => []

def field? (name : Bytes) : Option Field :=
  Field.all.find? fun f => Bytes.ofString f.label = name

/-- The value of a field. -/
def readValue (r : Result) (f : Field) (b : Bytes) : Except FormatFault (Result × Bytes) :=
  match f with
  | .text t => do
    let (s, rest) ← strings (b.length + 1) b
    if Bytes.isText s then return (r.setText t s, rest) else throw .notText
  | .int i =>
    match int? b with
    | none => .error .malformed
    | some (n, rest) => .ok (r.setInt i n, skipSpace false rest)

/-- The fields of a result up to `close`; `seen` holds those already given. -/
def readFields (close : UInt8) : Nat → List Field → Result → Bytes →
    Except FormatFault (Result × Bytes)
  | 0, _, _, _ => .error .malformed
  | fuel + 1, seen, r, b =>
    match b with
    | [] => .error .malformed
    | c :: rest =>
      if c = close then .ok (r, skipSpace false rest)
      else do
        let (name, colon, rest) ← fieldName b
        match field? name with
        | none => throw .malformed
        | some f =>
          if !colon || seen.contains f then throw .malformed
          let (r, rest) ← readValue r f rest
          readFields close fuel (f :: seen) r (separator rest)

/-- A result between braces or angles. -/
def readResult (b : Bytes) : Except FormatFault (Result × Bytes) :=
  match b with
  | 0x7b :: rest => readFields 0x7d (rest.length + 1) [] {} (skipSpace false rest)
  | 0x3c :: rest => readFields 0x3e (rest.length + 1) [] {} (skipSpace false rest)
  | _ => .error .malformed

/-- The further results of a list, each behind a comma. -/
def readRest : Nat → Results → Bytes → Except FormatFault (Results × Bytes)
  | 0, _, _ => .error .malformed
  | fuel + 1, rs, b =>
    match b with
    | 0x5d :: rest => .ok (rs, skipSpace false rest)
    | 0x2c :: rest => do
      let (r, rest) ← readResult (skipSpace false rest)
      readRest fuel (rs ++ [r]) rest
    | _ => .error .malformed

/-- One result, or a list of them. -/
def readEntry (rs : Results) (b : Bytes) : Except FormatFault (Results × Bytes) :=
  match b with
  | 0x5b :: rest =>
    match skipSpace false rest with
    | 0x5d :: rest => .ok (rs, skipSpace false rest)
    | rest => do
      let (r, rest) ← readResult rest
      readRest (rest.length + 1) (rs ++ [r]) rest
  | b => do
    let (r, rest) ← readResult b
    return (rs ++ [r], rest)

def readAll : Nat → Results → Bytes → Except FormatFault Results
  | 0, _, _ => .error .malformed
  | fuel + 1, rs, b =>
    match b with
    | [] => .ok rs
    | b => do
      let (name, _, rest) ← fieldName b
      if name ≠ Bytes.ofString "results" then throw .malformed
      let (rs, rest) ← readEntry rs rest
      readAll fuel rs (separator rest)

def read? (b : Bytes) : Except FormatFault Results :=
  readAll (b.length + 1) [] (skipSpace false b)

end TextForm

end TwoPhase
