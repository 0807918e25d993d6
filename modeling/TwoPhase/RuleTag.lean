import TwoPhase.Report.Result
import TwoPhase.Text.CaseMap
import TwoPhase.Text.Split

/-!
# Rule tags

The message of a result starts with a tag for its rule, such as `[-][misra-cpp2008-14.6.1]` or
`[M14_6_1][autosar-M14.6.1]`. `Result.tag` writes it and `RuleTag.rule?` reads the rule off a message: the
first tag of each line counts, in the order of the lines.
-/

namespace TwoPhase

namespace RuleTag

def isWordByte (b : UInt8) : Bool :=
  (Char.ofNat b.toNat).isAlphanum || b == 0x5f || b == 0x2d

def isRuleByte (b : UInt8) : Bool :=
  isWordByte b || b == 0x2e

/-- The second bracket of a tag at the start of a line. -/
def atStart? : Bytes → Option Bytes
  | 0x5b :: rest =>
    match rest.dropWhile isWordByte with
    | 0x5d :: 0x5b :: rest =>
      match rest.dropWhile isRuleByte with
      | 0x5d :: _ => some (rest.takeWhile isRuleByte)
      | _ => none
    | _ => none
  | _ => none

/-- The second bracket of the first tag in a line. -/
def inLine? : Bytes → Option Bytes
  | [] => none
  | b :: rest => atStart? (b :: rest) <|> inLine? rest

/-- Dots become underscores. -/
def underscored (b : Bytes) : Bytes :=
  b.map fun x => if x = 0x2e then 0x5f else x

/-- The rule that the second bracket of a tag names. -/
def ruleOf? (inside : Bytes) : Option Bytes :=
  let generic : Option Bytes :=
    let back := inside.reverse
    let last := back.takeWhile (· ≠ 0x2d)
    match back.dropWhile (· ≠ 0x2d) with
    | _ :: front => some (front.reverse ++ [0x2f] ++ last.reverse)
    | [] => none
  match inside.splitOn 0x2d with
  | [a, b, c] =>
    if a = Bytes.ofString "misra" ∧ b = Bytes.ofString "cpp2008" then
      some (Bytes.ofString "misra_cpp_2008/rule_" ++ underscored c)
    else generic
  | [a, b] =>
    if a = Bytes.ofString "autosar" then some (Bytes.ofString "autosar/rule_" ++ underscored b)
    else generic
  | _ => generic

/-- The rule that a message is tagged with. -/
def rule? (message : Bytes) : Option Bytes :=
  (message.splitOn 0x0a).findSome? fun line => (inLine? line).bind ruleOf?

/-- What is said about a message without a tag. -/
def complaint (message : String) : String :=
  "invalid error message " ++ message

/-! ## Names for readers -/

/-- A run of digits, and what follows. -/
def digits? (b : Bytes) : Option (Bytes × Bytes) :=
  let ds := b.takeWhile Bytes.isDigit
  if ds.isEmpty then none else some (ds, b.drop ds.length)

def dot? : Bytes → Option Bytes
  | 0x2e :: rest => some rest
  | _ => none

/-- A bracket with `lead` and three numbers between dots, at the start of `b`; `letters` may stand before
the numbers. Gives what follows `lead`. -/
def numbered? (lead : Bytes) (letters : List UInt8) (b : Bytes) : Option Bytes := do
  if !lead.isPrefixOf b then none
  else
    let body := b.drop lead.length
    let (first, rest) ← match letters, body with
      | [], _ => some ([], body)
      | _, c :: rest => if letters.contains c then some ([c], rest) else none
      | _, [] => none
    let (x, rest) ← digits? rest
    let rest ← dot? rest
    let (y, rest) ← digits? rest
    let rest ← dot? rest
    let (z, rest) ← digits? rest
    match rest with
    | 0x5d :: _ => some (first ++ x ++ [0x2e] ++ y ++ [0x2e] ++ z)
    | _ => none

/-- The first place of a message where `read?` succeeds. -/
def anywhere? (read? : Bytes → Option Bytes) : Bytes → Option Bytes
  | [] => read? []
  | b :: rest => read? (b :: rest) <|> anywhere? read? rest

/-- The full name of the rule that a message is tagged with, empty if there is none. -/
def fullName (message : Bytes) : Bytes :=
  match anywhere? (numbered? (Bytes.ofString "[misra-cpp2008-") []) message with
  | some n => Bytes.ofString "MISRA C++:2008 Rule " ++ n
  | none =>
    match anywhere? (numbered? (Bytes.ofString "[autosar-") [0x41, 0x4d]) message with
    | some n =>
      Bytes.ofString "AUTOSAR Rule " ++ n.map fun x => if x = 0x2e then 0x2d else x
    | none => []

/-! ## Writing -/

/-- Splits a rule name at its first slash. -/
def editionAndRule? (rule : String) : Option (String × String) :=
  let cs := rule.toList
  if cs.contains '/' then
    some (String.ofList (cs.takeWhile (· ≠ '/')), String.ofList ((cs.dropWhile (· ≠ '/')).drop 1))
  else none

/-- The part of a rule name behind the first underscore, with dots for underscores. -/
def dotted (name : String) : String :=
  ".".intercalate ((Text.splitAt '_' name).drop 1)

def code (name : String) : String :=
  if "rule_".isPrefixOf name then String.ofList (name.toList.drop 5) else name

/-- The tag of a rule. -/
def text (edition name : String) : String :=
  if edition = "misra_cpp_2008" then "[-][misra-cpp2008-" ++ dotted name ++ "]: "
  else if edition = "autosar" then "[" ++ code name ++ "][autosar-" ++ dotted name ++ "]: "
  else "[" ++ Text.upper name ++ "][" ++ edition ++ "-" ++ name ++ "]: "

end RuleTag

/-- Tags a result with its rule; a rule name without a slash changes nothing. -/
def Result.tag (rule : String) (r : Result) : Result :=
  match RuleTag.editionAndRule? rule with
  | none => r
  | some (edition, name) =>
    { r with
      message := Bytes.ofString (RuleTag.text edition name) ++ r.message
      ruleset := Bytes.ofString edition
      ruleId := Bytes.ofString name }

/-- The rule of a result: its own fields, or else the tag of its message. -/
def Result.rule? (r : Result) : Option Bytes :=
  if r.ruleset ≠ [] ∧ r.ruleId ≠ [] then some (r.ruleset ++ [0x2f] ++ r.ruleId)
  else RuleTag.rule? r.message

end TwoPhase
