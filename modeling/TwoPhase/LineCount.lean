import TwoPhase.FileTree
import TwoPhase.Glob
import TwoPhase.Text.CharClass
import TwoPhase.Text.Split

/-!
# Counting lines of code

A line counts as code if anything but white space stands outside comments. A comment that starts with two
slashes counts only at the start of a line; other comments nest, and the byte behind a mark that opens or
closes one is not looked at. Files of equal content are counted once, and files of version control systems
not at all unless one starts there.
-/

namespace TwoPhase

/-- The kinds of source file that are told apart. -/
inductive SourceKind where
  | c
  | cHeader
  | cpp
  | cppHeader
  deriving DecidableEq

namespace SourceKind

def all : List SourceKind :=
  [c, cHeader, cpp, cppHeader]

def name : SourceKind → String
  | c => "C"
  | cHeader => "C Header"
  | cpp => "C++"
  | cppHeader => "C++ Header"

/-- The kind that a suffix without its dot tells. -/
def ofSuffix? (s : String) : Option SourceKind :=
  if s = "c" then some c
  else if s = "h" then some cHeader
  else if ["cc", "cpp", "cxx", "pcc", "c++"].contains s then some cpp
  else if ["hh", "hpp", "hxx"].contains s then some cppHeader
  else none

end SourceKind

namespace LineCount

/-- The kinds that C++ code is written in. -/
def cppKinds : List String :=
  ["C++", "C++ Header", "C Header"]

/-- Languages that can be asked for, though no file of theirs is counted. -/
def otherLanguages : List String :=
  ["ActionScript", "Ada", "Assembly", "Awk", "BASH", "Bourne Shell", "C Shell", "C#", "CMake", "CSS",
    "Clojure", "D", "Dart", "Elixir", "Erlang", "F#", "FORTRAN Modern", "Go", "Groovy", "HTML", "Haskell",
    "JSON", "Java", "JavaScript", "Julia", "Kotlin", "Lua", "Makefile", "Markdown", "OCaml",
    "Objective-C", "PHP", "Pascal", "Perl", "Plain Text", "Protocol Buffers", "Python", "R", "Ruby",
    "Rust", "SQL", "Scala", "Scheme", "Swift", "TOML", "TypeScript", "XML", "YAML", "Zig"]

/-- The longest line that is read; counting stops at a longer one. -/
def longestLine : Nat := 1024 * 1024 - 1

/-! ## Lines -/

/-- The characters of a byte string with the number of bytes that each takes; a byte that belongs to no
character stands for itself. -/
def spans (b : Bytes) : List (Option Char × Nat) :=
  (Bytes.decode b).map fun c => (c, match c with | some c => c.utf8Size | none => 1)

def blankLength (cs : List (Option Char × Nat)) : Nat :=
  let blank := cs.takeWhile fun (c, _) => match c with | some c => Text.isBlank c | none => false
  blank.foldl (fun n (_, width) => n + width) 0

/-- A line without the white space around it. -/
def trimmed (b : Bytes) : Bytes :=
  let cs := spans b
  let left := blankLength cs
  let right := blankLength cs.reverse
  (b.take (b.length - right)).drop left

/-- White space starts here. -/
def startsBlank : Bytes → Bool
  | [] => false
  | b :: rest =>
    if b < 0x80 then Text.isBlank (Char.ofNat b.toNat)
    else match Bytes.sequence? b rest with
      | some (c, _) => Text.isBlank c
      | none => false

/-- Walks over a line with the number of open comments; gives that number behind the line, and whether
there is code. -/
def scan (depth : Nat) (code : Bool) (b : Bytes) : Nat × Bool :=
  match b with
  | [] => (depth, code)
  | 0x2f :: 0x2a :: rest => scan (depth + 1) code (rest.drop 1)
  | x :: rest =>
    match depth, x, rest with
    | d + 1, 0x2a, 0x2f :: rest => scan d code (rest.drop 1)
    | d + 1, _, rest => scan (d + 1) code rest
    | 0, x, rest => scan 0 (code || !startsBlank (x :: rest)) rest
termination_by b.length
decreasing_by all_goals simp_wf <;> omega

/-- Somewhere in the line a comment opens or closes. -/
def hasMark : Bytes → Bool
  | a :: b :: rest => (a == 0x2f && b == 0x2a) || (a == 0x2a && b == 0x2f) || hasMark (b :: rest)
  | _ => false

def dropByteOrderMark : Bytes → Bytes
  | 0xef :: 0xbb :: 0xbf :: rest => rest
  | b => b

/-- Where counting stands: whether a line with a number sign and an exclamation mark may still come first,
and how many comments are open. -/
structure Progress where
  first : Bool := true
  depth : Nat := 0
  code : Nat := 0

def Progress.add (p : Progress) (isCode : Bool) : Progress :=
  { p with code := if isCode then p.code + 1 else p.code }

/-- Takes in one line. -/
def Progress.step (p : Progress) (line : Bytes) : Progress :=
  let line := trimmed line
  if line.isEmpty then p
  else if p.first && [0x23, 0x21].isPrefixOf line then { p.add true with first := false }
  else
    let line := if p.depth = 0 && p.first then dropByteOrderMark line else line
    if p.depth = 0 && [0x2f, 0x2f].isPrefixOf line then p
    else if p.depth = 0 && !hasMark line then p.add true
    else
      let (depth, code) := scan p.depth false line
      { p.add code with depth }

/-- The number of lines of code in a file. -/
def ofContent (content : Bytes) : Nat :=
  ((Lines.within longestLine content).lines.foldl Progress.step {}).code

/-! ## Files -/

/-- All files at or below a path, directories in the order of their names, at most `fuel` levels deep. -/
def walkFrom (t : FileTree) : Nat → Place → String → List String
  | 0, _, _ => []
  | fuel + 1, place, path =>
    match t.entryAt? place with
    | some .directory =>
      (t.names place).flatMap fun n => walkFrom t fuel (place ++ [n]) (Path.join [path, n])
    | some (.file ..) => [path]
    | none => []

def walk (t : FileTree) (path : String) : Except FileError (List String) :=
  match t.find path with
  | .ok (place, _) => .ok (walkFrom t (t.entries.length + 1) place path)
  | .error fault => .error { operation := "lstat", path, fault }

/-- All ends of a text, the whole text first. -/
def ends : List Char → List (List Char)
  | [] => [[]]
  | c :: cs => (c :: cs) :: ends cs

def contains (text part : List Char) : Bool :=
  (ends text).any part.isPrefixOf

/-- A path with the name of a version control system in it. -/
def isVersionControl (path : String) : Bool :=
  let cs := match path.toList with
    | '/' :: c :: cs => c :: cs
    | cs => cs
  [".bzr", ".cvs", ".hg", ".git", ".svn"].any fun d => contains cs d.toList

/-- The word of an interpreter behind a number sign and an exclamation mark: behind a path to `env` and a
blank, or else the last component of a path. -/
def interpreter? (line : List Char) : Option (List Char) := do
  let rest := (line.drop 2).dropWhile (· == ' ')
  let isGap (c : Char) : Bool := c == ' ' || c == '\t' || c == '\n' || c == '\x0c' || c == '\r'
  let word := rest.takeWhile fun c => !isGap c
  let named := match rest.dropWhile fun c => !isGap c with
    | ' ' :: cs => cs.takeWhile Char.isAlpha
    | _ => []
  if 4 < word.length && "/env".toList.isSuffixOf word && !named.isEmpty then some named
  else
    let path := rest.takeWhile fun c => c.isAlpha || c == '.' || c == '/'
    let names : List (List Char) := ((ends path).drop 1).filterMap fun
      | '/' :: c :: cs => if c.isAlpha then some ((c :: cs).takeWhile Char.isAlpha) else none
      | _ => none
    names.getLast?

/-- The interpreter that the first line of a file names; the line has to end. -/
def fileInterpreter? (content : Bytes) : Option (List Char) := do
  if !content.contains 0x0a then none
  else
    let line := (Bytes.chars (content.takeWhile (· ≠ 0x0a) ++ [0x0a])).dropWhile Text.isBlank
    match line with
    | '#' :: '!' :: _ :: _ => interpreter? line
    | _ => none

/-- The kind of a file, told by its interpreter or else its suffix. -/
def kind? (path : String) (content : Bytes) : Option SourceKind :=
  match fileInterpreter? content with
  | some word => SourceKind.ofSuffix? (String.ofList word)
  | none => SourceKind.ofSuffix? (String.ofList ((Path.extension path).toList.drop 1))

/-- Whether a kind is asked for; names that are not known do not count, and without a known one every kind
is asked for. -/
def isWanted (langs : List String) (k : SourceKind) : Bool :=
  let known := langs.filter fun l => (SourceKind.all.map (·.name)).contains l || otherLanguages.contains l
  known.isEmpty || known.contains k.name

/-- The files to count with their content: of the wanted kinds, and the first of each content. -/
def collect (t : FileTree) (langs : List String) (found : List (String × Bytes)) (root : String) :
    List (String × Bytes) :=
  match walk t root with
  | .error _ => found
  | .ok paths =>
    let inside := isVersionControl root
    paths.foldl (fun found path =>
      match t.content path with
      | .ok content =>
        if !inside && isVersionControl path then found
        else match kind? path content with
          | some k =>
            if isWanted langs k && !found.any (·.2 == content) then found ++ [(path, content)]
            else found
          | none => found
      | .error _ => found) found

end LineCount

/-- The lines of code in files and directories. Only the last path has to exist. Files that a pattern
matches are not counted, nor files for which a malformed pattern is met. -/
def countLines (t : FileTree) (paths langs ignore : List String) : Except FileError Nat :=
  let files := paths.foldl (LineCount.collect t langs) []
  let counted := files.filter fun (path, _) =>
    match Glob.matchesAny path.toList ignore with
    | .ok matched => !matched
    | .error _ => false
  let count := counted.foldl (fun n (_, content) => n + LineCount.ofContent content) 0
  match paths.getLast? with
  | none => .ok 0
  | some last =>
    match LineCount.walk t last with
    | .ok _ => .ok count
    | .error e => .error e

/-- What is said when the lines cannot be counted. -/
def LineCount.complaint (e : FileError) : String :=
  "gocloc: " ++ e.message

end TwoPhase
