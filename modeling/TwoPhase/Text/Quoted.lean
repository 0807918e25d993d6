import TwoPhase.Text.Bytes
import TwoPhase.Text.CharClass

/-!
# Quoted text

How text is shown in error messages: between quotes, with escapes for what cannot be printed and for bytes
that are no UTF-8.
-/

namespace TwoPhase.Text

/-- How a character is shown between quotes. -/
def showChar (c : Char) : List Char :=
  match c with
  | '"' => ['\\', '"']
  | '\\' => ['\\', '\\']
  | '\x07' => ['\\', 'a']
  | '\x08' => ['\\', 'b']
  | '\x0c' => ['\\', 'f']
  | '\n' => ['\\', 'n']
  | '\r' => ['\\', 'r']
  | '\t' => ['\\', 't']
  | '\x0b' => ['\\', 'v']
  | c =>
    if isPrintable c then [c]
    else
      let n := c.toNat
      if n < 0x80 then '\\' :: 'x' :: Bytes.hexDigits 2 n
      else if n < 0x10000 then '\\' :: 'u' :: Bytes.hexDigits 4 n
      else '\\' :: 'U' :: Bytes.hexDigits 8 n

/-- Quotes byte strings; a byte that starts no character is shown by its number. -/
def quotedBytes : Bytes → List Char
  | [] => []
  | b :: rest =>
    if b.toNat < 0x80 then showChar (Char.ofNat b.toNat) ++ quotedBytes rest
    else match Bytes.sequence? b rest with
      | some (c, n) => showChar c ++ quotedBytes (rest.drop n)
      | none => '\\' :: 'x' :: Bytes.hexDigits 2 b.toNat ++ quotedBytes rest
termination_by b => b.length
decreasing_by all_goals simp only [List.length_cons, List.length_drop]; omega

def quoted (s : String) : String :=
  String.ofList ('"' :: s.toList.flatMap showChar ++ ['"'])

end TwoPhase.Text
