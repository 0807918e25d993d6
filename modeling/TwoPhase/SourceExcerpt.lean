import TwoPhase.Charset
import TwoPhase.FileTree
import TwoPhase.Text.Split

/-!
# Source excerpts

The line of a result with the two lines before and behind it, each under its number, and the line itself
marked. Line numbers have 32 bits, and so do the limits of the window.
-/

namespace TwoPhase

/-- One line of an excerpt. -/
def excerptLine (mark : Int32) (number : Int32) (text : Bytes) : Bytes :=
  Bytes.ofString ((if number = mark then "> " else "") ++ number.toInt.repr ++ "| ") ++ text ++ [0x0a]

/-- The lines of the window from `number` on. The flag says that reading stopped behind the window, so
that what follows was not looked at. -/
def excerptFrom (charset : String) (mark : Int32) : Int32 → List Bytes → Bytes × Bool
  | _, [] => ([], false)
  | number, l :: ls =>
    if number < mark - 2 then excerptFrom charset mark (number + 1) ls
    else if mark + 2 < number then ([], true)
    else
      let (rest, stopped) := excerptFrom charset mark (number + 1) ls
      (excerptLine mark number (convertCharset charset l) ++ rest, stopped)

/-- The lines around line `mark` of a file. -/
def excerpt (t : FileTree) (path : String) (mark : Int32) (charset : String) :
    Except String Bytes :=
  match t.content path with
  | .error e => .error e.message
  | .ok content =>
    let ls := Lines.ofBytes content
    let (text, stopped) := excerptFrom charset mark 1 ls.lines
    if ls.cut && !stopped then .error lineTooLong else .ok text

end TwoPhase
