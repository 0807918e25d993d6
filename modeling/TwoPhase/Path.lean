import TwoPhase.Text.Bytes

/-!
# Lexical paths

Paths are taken apart without looking at any file: `clean` drops empty components and `.`, and lets
`..` cancel the component before it. The functions work on lists of characters and of bytes alike,
since only `/` and `.` matter; those on strings are built from them.
-/

namespace TwoPhase

class PathSymbol (α : Type) where
  slash : α
  dot : α

instance : PathSymbol Char := ⟨'/', '.'⟩

instance : PathSymbol UInt8 := ⟨0x2f, 0x2e⟩

namespace Path

open PathSymbol (slash dot)

section

variable {α : Type} [DecidableEq α] [PathSymbol α]

def isAbs : List α → Bool
  | [] => false
  | c :: _ => c == slash

/-- The pieces between slashes. -/
def pieces (p : List α) : List (List α) :=
  p.splitOn slash

/-- Adds a component behind those in `stack`, which holds the last one first. At the root, `..` leads
nowhere; in a relative path it stays if nothing is left to cancel. -/
def step (rooted : Bool) (stack : List (List α)) (p : List α) : List (List α) :=
  if p = [] ∨ p = [dot] then stack
  else if p = [dot, dot] then
    match stack with
    | [] => if rooted then [] else [p]
    | q :: rest => if q = [dot, dot] then p :: stack else rest
  else p :: stack

/-- The components that are left after cancelling. -/
def components (p : List α) : List (List α) :=
  ((pieces p).foldl (step (isAbs p)) []).reverse

/-- The components between slashes. -/
def glue (ps : List (List α)) : List α :=
  [slash].intercalate ps

/-- The shortest path that leads to the same place. -/
def cleanList (p : List α) : List α :=
  if isAbs p then slash :: glue (components p)
  else match components p with
    | [] => [dot]
    | ps => glue ps

/-- Joins paths; leading empty ones are left out. -/
def joinLists (ps : List (List α)) : List α :=
  match ps.dropWhile List.isEmpty with
  | [] => []
  | ps => cleanList (glue ps)

end

def isAbsolute (p : String) : Bool :=
  isAbs p.toList

def clean (p : String) : String :=
  String.ofList (cleanList p.toList)

def join (ps : List String) : String :=
  String.ofList (joinLists (ps.map String.toList))

/-- The last component, `.` for the empty path and `/` for slashes alone. -/
def base (p : String) : String :=
  let cs := p.toList
  if cs.isEmpty then "."
  else
    match cs.reverse.dropWhile (· == '/') with
    | [] => "/"
    | rs => String.ofList (rs.takeWhile (· ≠ '/')).reverse

/-- The path before the last component. -/
def dir (p : String) : String :=
  clean (String.ofList (p.toList.reverse.dropWhile (· ≠ '/')).reverse)

/-- The end of the last component from its last dot on. -/
def extension (p : String) : String :=
  let last := p.toList.reverse.takeWhile (· ≠ '/')
  if last.contains '.' then String.ofList ('.' :: (last.takeWhile (· ≠ '.')).reverse) else ""

end Path

end TwoPhase
