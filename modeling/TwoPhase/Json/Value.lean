import TwoPhase.Text.Bytes

/-!
# JSON values

An object keeps its members in the order of the text, repeated names included, and a number keeps
its written form: how members are matched and which numbers are integers is for the reader of a
particular document to say. `Json.render` writes a value on one line, and `Json.webQuoted` a string that
is safe inside a web page.
-/

namespace TwoPhase

inductive Json where
  | null
  | bool (b : Bool)
  | number (text : String)
  | string (s : String)
  | array (items : List Json)
  | object (members : List (String × Json))
  deriving Inhabited

namespace Json

/-- The escape `\uXXXX`. -/
def unicodeEscape (n : Nat) : List Char :=
  '\\' :: 'u' :: Bytes.hexDigits 4 n

/-- How one character stands inside a quoted string. -/
def escape (c : Char) : List Char :=
  if c = '"' then ['\\', '"']
  else if c = '\\' then ['\\', '\\']
  else if c = '\n' then ['\\', 'n']
  else if c = '\r' then ['\\', 'r']
  else if c = '\t' then ['\\', 't']
  else if c.toNat < 0x20 then unicodeEscape c.toNat
  else [c]

def quote (cs : List Char) : List Char :=
  '"' :: cs.flatMap escape ++ ['"']

mutual

/-- The characters of a value written on one line without blanks. -/
def write : Json → List Char
  | null => ['n', 'u', 'l', 'l']
  | bool true => ['t', 'r', 'u', 'e']
  | bool false => ['f', 'a', 'l', 's', 'e']
  | number s => s.toList
  | string s => quote s.toList
  | array xs => '[' :: writeItems xs ++ [']']
  | object ms => '{' :: writeMembers ms ++ ['}']

def writeItems : List Json → List Char
  | [] => []
  | [x] => write x
  | x :: y :: rest => write x ++ ',' :: writeItems (y :: rest)

def writeMembers : List (String × Json) → List Char
  | [] => []
  | [(k, v)] => quote k.toList ++ ':' :: write v
  | (k, v) :: m :: rest => quote k.toList ++ ':' :: write v ++ ',' :: writeMembers (m :: rest)

end

def render (v : Json) : String :=
  String.ofList v.write

/-- An integer in decimal notation. -/
def int (n : Int) : Json :=
  number n.repr

/-! ## Strings inside a web page -/

/-- How one character stands in a string that is safe inside a web page: the angle brackets, the ampersand
and the two Unicode line separators are escaped too. -/
def webEscape (c : Char) : List Char :=
  match c with
  | '"' => ['\\', '"']
  | '\\' => ['\\', '\\']
  | '\x08' => ['\\', 'b']
  | '\x0c' => ['\\', 'f']
  | '\n' => ['\\', 'n']
  | '\r' => ['\\', 'r']
  | '\t' => ['\\', 't']
  | c =>
    let n := c.toNat
    if n < 0x20 ∨ c = '<' ∨ c = '>' ∨ c = '&' ∨ n = 0x2028 ∨ n = 0x2029 then unicodeEscape n
    else [c]

def webQuoted (cs : List Char) : String :=
  String.ofList ('"' :: cs.flatMap webEscape ++ ['"'])

end Json

end TwoPhase
