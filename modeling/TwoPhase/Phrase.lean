import TwoPhase.Text.Bytes

/-!
# Phrases

What the program says to its users, in English and Chinese. A phrase is known by its English text, in
which `%s`, `%d` and `%v` stand for arguments; numbers are written with a comma before every three digits.
A text that is no phrase of the catalogue is its own wording in both languages.
-/

namespace TwoPhase

inductive Language where
  | english
  | chinese
  deriving DecidableEq

/-- Any code but `en` means Chinese. -/
def Language.ofCode (code : String) : Language :=
  if code = "en" then .english else .chinese

namespace Phrase

def dependentBase : String :=
  "In a class template with a dependent base, any name that may be found in that dependent base shall be referred to using a qualified-id or this->.\nName: %s\nDependent base: %s"

def autosarDependentBase : String :=
  "Names that may be found in a dependent base of a class template shall be referred to using a qualified-id or this->.\nName: %s\nDependent base: %s"

def compliant : String := "Name %s does not rely on a dependent base"

def startTask : String := "Start analyzing for %s (%v/%v)"

def finishTask : String := "Analysis of %s completed (%s, %v/%v) [%s]"

def useProcessors : String := "Use %d CPU(s)"

def codeLines : String := "%d lines of C++ code"

def exported : String := "Exported scope dumps for %d of %d translation units"

def resultsCount : String := "%d issues found"

def interrupted : String := "Ctrl C Pressed. Stop analysis"

def startExport : String := "Start exporting scope dumps"

def startAnalysis : String := "Start analyzing C++ files"

def analysisDone : String := "Analyzing C++ files completed [%s]"

def totalTime : String := "Total time for analysis: %s"

/-- The Chinese wording of each phrase. -/
def chinese : List (String × String) :=
  [(dependentBase, "在具有依赖基类的类模板中，任何可能在该依赖基类中找到的名称都应使用限定标识或 this-> 引用。\n名称：%s\n依赖基类：%s"),
   (autosarDependentBase, "类模板中可能在依赖基类中找到的名称应使用限定标识或 this-> 引用。\n名称：%s\n依赖基类：%s"),
   (compliant, "名称 %s 不依赖于依赖基类"),
   (startTask, "开始分析 %s (%v/%v)"),
   (finishTask, "%s 分析完成 (%s, %v/%v) [%s]"),
   (useProcessors, "使用 %d 个 CPU"),
   (codeLines, "%d 行 C++ 代码"),
   (exported, "已为 %d/%d 个翻译单元导出作用域数据"),
   (resultsCount, "发现 %d 个问题"),
   (interrupted, "已按下 Ctrl C，停止分析"),
   (startExport, "开始导出作用域数据"),
   (startAnalysis, "开始分析 C++ 文件"),
   (analysisDone, "C++ 文件分析完成 [%s]"),
   (totalTime, "分析总耗时：%s")]

/-- The wording of a phrase in a language. -/
def wording (l : Language) (phrase : String) : String :=
  match l with
  | .english => phrase
  | .chinese => (chinese.lookup phrase).getD phrase

inductive Arg where
  | text (b : Bytes)
  | int (n : Int)

/-- Puts a comma before every three digits from the right. -/
def grouped : List Char → List Char
  | a :: b :: c :: d :: rest =>
    let more := grouped (b :: c :: d :: rest)
    if (rest.length + 3) % 3 = 0 then a :: ',' :: more else a :: more
  | ds => ds

def number (n : Int) : List Char :=
  let ds := grouped (Nat.toDigits 10 n.natAbs)
  if n < 0 then '-' :: ds else ds

def Arg.plain : Arg → Bytes
  | text b => b
  | int n => Bytes.ofChars (number n)

/-- How an argument is written for a verb; one of the wrong kind is shown with its type. -/
def Arg.write (verb : Char) (a : Arg) : Bytes :=
  let wrong (type : String) : Bytes :=
    Bytes.ofChars ['%', '!', verb, '('] ++ Bytes.ofString (type ++ "=") ++ a.plain ++ [0x29]
  match a with
  | text _ => if verb = 's' ∨ verb = 'v' then a.plain else wrong "string"
  | int _ => if verb = 'd' ∨ verb = 'v' then a.plain else wrong "int"

/-- Replaces the verbs of a wording by arguments, and gives the arguments that are left. -/
def fill : List Char → List Arg → Bytes × List Arg
  | [], args => ([], args)
  | '%' :: [], args => (Bytes.ofString "%!(NOVERB)", args)
  | '%' :: '%' :: cs, args =>
    let (b, args) := fill cs args
    (Bytes.ofChars ['%'] ++ b, args)
  | '%' :: verb :: cs, [] =>
    let (b, args) := fill cs []
    (Bytes.ofChars ['%', '!', verb] ++ Bytes.ofString "(MISSING)" ++ b, args)
  | '%' :: verb :: cs, a :: args =>
    let (b, args) := fill cs args
    (a.write verb ++ b, args)
  | c :: cs, args =>
    let (b, args) := fill cs args
    (Bytes.ofChars [c] ++ b, args)

/-- The arguments that no verb has taken; they are reported only if some verb has taken one. -/
def extra (args left : List Arg) : Bytes :=
  if left.isEmpty ∨ left.length = args.length then []
  else
    let item : Arg → Bytes
      | .text b => Bytes.ofString "string=" ++ b
      | .int n => Bytes.ofString "int=" ++ (Arg.int n).plain
    Bytes.ofString "%!(EXTRA " ++ ((left.map item).intersperse (Bytes.ofString ", ")).flatten
      ++ [0x29]

/-- A wording with its arguments in place. -/
def format (wording : String) (args : List Arg) : Bytes :=
  let (b, left) := fill wording.toList args
  b ++ extra args left

/-- A phrase in a language, with its arguments. -/
def say (l : Language) (phrase : String) (args : List Arg) : Bytes :=
  format (wording l phrase) args

end Phrase

end TwoPhase
