import TwoPhase.Text.Bytes

/-!
# Splitting text

Cutting at a separator keeps empty pieces, so `n` separators give `n + 1` pieces. A line, however, ends with a
line feed, and a carriage return before it is dropped: what follows the last line feed is a line if it is not
empty. A line of more than 65535 bytes ends the reading with an error.
-/

namespace TwoPhase

namespace Text

/-- The pieces between occurrences of a character. -/
def splitAt (sep : Char) (s : String) : List String :=
  (s.toList.splitOn sep).map String.ofList

/-- The components of a qualified name, which stand between double colons. -/
def componentsChars : List Char → List (List Char)
  | [] => [[]]
  | ':' :: ':' :: cs => [] :: componentsChars cs
  | c :: cs =>
    match componentsChars cs with
    | w :: ws => (c :: w) :: ws
    | [] => [[c]]

def components (s : String) : List String :=
  (componentsChars s.toList).map String.ofList

/-- The longest runs of characters with property `p`. -/
def runs (p : Char → Bool) (s : String) : List String :=
  ((s.toList.splitOnP (fun c => !p c)).filter (!·.isEmpty)).map String.ofList

end Text

/-! ## Lines -/

/-- The longest line that can be read, in bytes. -/
def maxLine : Nat := 65535

def lineTooLong : String := "bufio.Scanner: token too long"

/-- The lines of a text up to the first one that is too long; `cut` says that there is one. -/
structure Lines where
  lines : List Bytes
  cut : Bool

namespace Lines

/-- The lines of a text, however long, with their carriage returns. -/
def whole (b : Bytes) : List Bytes :=
  let ls := b.splitOn 0x0a
  if ls.getLast? = some [] then ls.dropLast else ls

def dropReturn (l : Bytes) : Bytes :=
  if l.getLast? = some 0x0d then l.dropLast else l

/-- The lines of at most `limit` bytes before the first longer one. -/
def within (limit : Nat) (b : Bytes) : Lines :=
  let all := whole b
  let short := all.takeWhile (·.length ≤ limit)
  { lines := short.map dropReturn, cut := short.length < all.length }

def ofBytes (b : Bytes) : Lines :=
  within maxLine b

end Lines

end TwoPhase
