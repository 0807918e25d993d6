/-!
# Texts taken for formats

A text that is taken for a format without arguments shows a mark for every verb in it. A percent sign may
be followed by flags, an index in brackets, a width, and a precision, before the verb; two percent signs
give one.
-/

namespace TwoPhase.Text

namespace Unfilled

def isFlag (c : Char) : Bool :=
  c == '#' || c == '0' || c == '+' || c == '-' || c == ' '

/-- The largest number that another digit may follow. -/
def maxNumber : Nat := 1000000

/-- Skips digits; a number that grows too large takes the rest of the text with it. -/
def skipDigits : Nat → List Char → List Char
  | _, [] => []
  | n, c :: cs =>
    if c.isDigit then
      if maxNumber < n then [] else skipDigits (10 * n + (c.toNat - 48)) cs
    else c :: cs

def isNumber (cs : List Char) : Bool :=
  !cs.isEmpty && cs.all Char.isDigit && (skipDigits 0 (cs ++ ['.']) == ['.'])

/-- What stands behind the first closing bracket, and what stands before it. -/
def closing? : List Char → Option (List Char × List Char)
  | [] => none
  | c :: cs =>
    if c = ']' then some ([], cs)
    else (closing? cs).map fun (a, b) => (c :: a, b)

/-- An index: whether one starts here, whether it is well-formed, and what follows. -/
def skipIndex : List Char → Bool × Bool × List Char
  | '[' :: cs =>
    if cs = [']'] then (true, false, cs)
    else match closing? cs with
      | some (inside, rest) => (true, isNumber inside, rest)
      | none => (true, false, cs)
  | cs => (false, false, cs)

/-- A width: the mark it leaves, whether it is a number, and what follows. -/
def skipWidth : List Char → List Char × Bool × Bool × List Char
  | '*' :: cs => ("%!(BADWIDTH)".toList, false, true, cs)
  | cs => ([], (cs.head?.map Char.isDigit).getD false, false, skipDigits 0 cs)

/-- What a percent sign gives, and what is left of the text behind its verb; none if the text ends. -/
def verb (cs : List Char) : List Char × Option (List Char) :=
  let cs := cs.dropWhile isFlag
  let (indexed, after, cs) := skipIndex cs
  let (mark, width, starred, cs) := skipWidth cs
  let bad := indexed || (after && width)
  let after := after && !starred
  let (bad, after, mark, cs) := match cs with
    | '.' :: cs =>
      let bad := bad || after
      let (indexed, after, cs) := skipIndex cs
      match cs with
      | '*' :: cs => (bad || indexed, false, mark ++ "%!(BADPREC)".toList, cs)
      | cs => (bad || indexed, after, mark, skipDigits 0 cs)
    | cs => (bad, after, mark, cs)
  let (indexed, _, cs) := if after then (false, false, cs) else skipIndex cs
  let bad := bad || indexed
  match cs with
  | [] => (mark ++ "%!(NOVERB)".toList, none)
  | '%' :: cs => (mark ++ ['%'], some cs)
  | c :: cs =>
    (mark ++ '%' :: '!' :: c :: (if bad then "(BADINDEX)" else "(MISSING)").toList, some cs)

/-- Reads at most `fuel` characters and verbs. -/
def read : Nat → List Char → List Char
  | 0, _ => []
  | _, [] => []
  | fuel + 1, '%' :: cs =>
    let (shown, rest) := verb cs
    match rest with
    | some rest => shown ++ read fuel rest
    | none => shown
  | fuel + 1, c :: cs => c :: read fuel cs

end Unfilled

/-- A text taken for a format without arguments. -/
def unfilled (cs : List Char) : List Char :=
  Unfilled.read (cs.length + 1) cs

end TwoPhase.Text
