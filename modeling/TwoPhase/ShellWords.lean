import TwoPhase.Text.Quoted

/-!
# Words of a command line

Words are separated by blanks, tabs and line ends. A backslash takes the next character as it is, also
between double quotes; between single quotes everything stands as it is. A number sign where a word could
start begins a comment, which ends with the line.
-/

namespace TwoPhase

namespace ShellWords

/-- Where a reader of words stands. -/
inductive State where
  | between
  | comment
  | inWord
  | escaped
  | doubleQuoted
  | doubleQuotedEscaped
  | singleQuoted
  deriving DecidableEq

inductive Fault where
  | afterEscape
  | openQuote
  deriving DecidableEq

def Fault.text : Fault → String
  | afterEscape => "EOF found after escape character"
  | openQuote => "EOF found when expecting closing quote"

def isSeparator (c : Char) : Bool :=
  c == ' ' || c == '\t' || c == '\r' || c == '\n'

/-- How a character between words or inside a plain part of a word changes the state; `none` says that the
character belongs to the word. -/
def opening? (c : Char) : Option State :=
  if c = '"' then some .doubleQuoted
  else if c = '\'' then some .singleQuoted
  else if c = '\\' then some .escaped
  else none

/-- Reads the words. `word` holds the characters of the current word, the last one first. -/
def read : State → List Char → List Char → Except Fault (List (List Char))
  | .between, _, [] => .ok []
  | .comment, _, [] => .ok []
  | .inWord, word, [] => .ok [word.reverse]
  | .escaped, _, [] => .error .afterEscape
  | .doubleQuotedEscaped, _, [] => .error .afterEscape
  | .doubleQuoted, _, [] => .error .openQuote
  | .singleQuoted, _, [] => .error .openQuote
  | .between, word, c :: cs =>
    if isSeparator c then read .between word cs
    else if c = '#' then read .comment word cs
    else match opening? c with
      | some s => read s [] cs
      | none => read .inWord [c] cs
  | .comment, word, c :: cs => read (if c = '\n' then .between else .comment) word cs
  | .inWord, word, c :: cs =>
    if isSeparator c then do return word.reverse :: (← read .between [] cs)
    else match opening? c with
      | some s => read s word cs
      | none => read .inWord (c :: word) cs
  | .escaped, word, c :: cs => read .inWord (c :: word) cs
  | .doubleQuotedEscaped, word, c :: cs => read .doubleQuoted (c :: word) cs
  | .doubleQuoted, word, c :: cs =>
    if c = '"' then read .inWord word cs
    else if c = '\\' then read .doubleQuotedEscaped word cs
    else read .doubleQuoted (c :: word) cs
  | .singleQuoted, word, c :: cs =>
    if c = '\'' then read .inWord word cs else read .singleQuoted (c :: word) cs

end ShellWords

/-- A command line that cannot be split. -/
structure ShellError where
  line : String
  fault : ShellWords.Fault
  deriving DecidableEq

def ShellError.message (e : ShellError) : String :=
  "shlex.Split(" ++ Text.quoted e.line ++ "): " ++ e.fault.text

/-- The words of a command line. -/
def shellWords (line : String) : Except ShellError (List String) :=
  match ShellWords.read .between [] line.toList with
  | .ok ws => .ok (ws.map String.ofList)
  | .error fault => .error { line, fault }

end TwoPhase
