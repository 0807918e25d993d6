import TwoPhase.Text.Bytes

/-!
# YAML tokens

A `Cursor` stands in a YAML 1.1 text and hands out its tokens one at a time. Block structure is
turned into tokens by indentation: a deeper line opens a collection, a shallower one closes it.
A key without `?` is recognised only at the `:` behind it, so a token that may turn out to start
such a key is held back until that is settled; `Cursor.peek` therefore reads on as long as the
first token of the queue is a candidate, and never further.
-/

namespace TwoPhase.Yaml

/-- A place in the text, counted from zero. -/
structure Mark where
  index : Nat := 0
  line : Nat := 0
  column : Nat := 0

inductive Token where
  | streamEnd
  | version (major minor : Nat)
  | tagHandle (handle lead : String)
  | documentStart
  | documentEnd
  | blockSequenceStart
  | blockMappingStart
  | blockEnd
  | flowSequenceStart
  | flowSequenceEnd
  | flowMappingStart
  | flowMappingEnd
  | blockEntry
  | flowEntry
  | key
  | value
  | alias (name : String)
  | anchor (name : String)
  | tag (handle suffix : String)
  | scalar (text : String) (plain : Bool)
  deriving DecidableEq

/-- The candidate for a key on one level of flow collections: the number of its first token and
where it stands. A required candidate must become a key. -/
structure KeyStart where
  required : Bool
  number : Nat
  mark : Mark

structure Cursor where
  rest : List Char
  /-- Length of the whole text, which bounds every loop over it. -/
  size : Nat
  mark : Mark := {}
  /-- Column of the innermost block collection, -1 outside all of them. -/
  indent : Int := -1
  indents : List Int := []
  /-- One entry for block context and one for each open flow collection, innermost first. -/
  keys : List (Option KeyStart) := [none]
  keyAllowed : Bool := true
  queue : List Token := []
  /-- How many tokens have left the queue. -/
  taken : Nat := 0

abbrev Scan := StateT Cursor Option

namespace Scan

/-! ## Characters -/

def isBreak (c : Char) : Bool :=
  c == '\n' || c == '\r' || c.toNat == 0x85 || c.toNat == 0x2028 || c.toNat == 0x2029

def isBlank (c : Char) : Bool :=
  c == ' ' || c == '\t'

def isWordChar (c : Char) : Bool :=
  c.isAlphanum || c == '_' || c == '-'

/-- `p` holds of the character `k` places ahead. -/
def ahead (k : Nat) (p : Char → Bool) : Scan Bool := do
  return match (← get).rest[k]? with
    | some c => p c
    | none => false

/-- The text ends `k` places ahead. -/
def endAhead (k : Nat) : Scan Bool := do
  return ((← get).rest.drop k).isEmpty

/-- A blank, a break or the end of the text stands `k` places ahead. -/
def gapAhead (k : Nat) : Scan Bool := do
  return (← endAhead k) || (← ahead k fun c => isBlank c || isBreak c)

/-- A break or the end of the text stands next. -/
def lineEnds : Scan Bool := do
  return (← endAhead 0) || (← ahead 0 isBreak)

/-- Steps over `n` characters of one line. -/
def skip (n : Nat := 1) : Scan Unit :=
  modify fun c => { c with
    rest := c.rest.drop n
    mark := { c.mark with index := c.mark.index + n, column := c.mark.column + n } }

/-- Takes the characters up to the first one without property `p`; none of them is a break. -/
def takeWhile (p : Char → Bool) : Scan (List Char) := do
  let cs := (← get).rest.takeWhile p
  skip cs.length
  return cs

def skipWhile (p : Char → Bool) : Scan Unit := do
  let _ ← takeWhile p

/-- Takes a line break, if one stands next. All breaks but the two Unicode separators read as a
line feed. -/
def takeBreak : Scan (List Char) := do
  let c ← get
  let next (n : Nat) (out : Char) : Scan (List Char) := do
    set { c with
      rest := c.rest.drop n
      mark := { index := c.mark.index + n, line := c.mark.line + 1, column := 0 } }
    return [out]
  match c.rest with
  | '\r' :: '\n' :: _ => next 2 '\n'
  | b :: _ =>
    if b == '\r' || b == '\n' || b.toNat == 0x85 then next 1 '\n'
    else if isBreak b then next 1 b
    else return []
  | [] => return []

def column : Scan Nat := do
  return (← get).mark.column

def inFlow : Scan Bool := do
  return 1 < (← get).keys.length

/-! ## Candidates for keys -/

/-- Gives up the candidate of the innermost level, which must not be required. -/
def dropKey : Scan Unit := do
  let c ← get
  match c.keys with
  | some k :: ks =>
    if k.required then failure
    set { c with keys := none :: ks }
  | _ => return

/-- Makes the next token the candidate of the innermost level, if a key may start here. -/
def markKey : Scan Unit := do
  let c ← get
  if c.keyAllowed then
    let required := c.keys.length == 1 && c.indent == c.mark.column
    dropKey
    modify fun d => { d with
      keys := some ⟨required, c.taken + c.queue.length, c.mark⟩ :: d.keys.tail }

/-- A key stands on one line and within 1024 characters. -/
def stillKey (k : KeyStart) : Scan Bool := do
  let m := (← get).mark
  if k.mark.line < m.line || k.mark.index + 1024 < m.index then
    if k.required then failure
    return false
  return true

def allowKey (b : Bool) : Scan Unit :=
  modify fun c => { c with keyAllowed := b }

/-! ## The queue -/

def push (t : Token) : Scan Unit :=
  modify fun c => { c with queue := c.queue ++ [t] }

/-- Puts a token in front of the one numbered `number`. -/
def insertAt (number : Nat) (t : Token) : Scan Unit :=
  modify fun c =>
    let k := number - c.taken
    { c with queue := c.queue.take k ++ t :: c.queue.drop k }

/-- Opens a block collection at a column deeper than the current one. -/
def openBlock (col : Nat) (number : Option Nat) (t : Token) : Scan Unit := do
  if ← inFlow then return
  let c ← get
  if c.indent < col then
    set { c with indent := col, indents := c.indent :: c.indents }
    match number with
    | some n => insertAt n t
    | none => push t

/-- Closes the block collections deeper than a column. -/
def closeBlocks (col : Int) : Scan Unit := do
  if ← inFlow then return
  let c ← get
  let rec close : List Int → Int → List Token → Int × List Int × List Token
    | [], i, ts => (i, [], ts)
    | j :: js, i, ts => if col < i then close js j (ts ++ [.blockEnd]) else (i, j :: js, ts)
  let (indent, indents, closers) := close c.indents c.indent []
  set { c with indent, indents, queue := c.queue ++ closers }

/-! ## Scalars -/

/-- Blanks and breaks inside a scalar: the blanks if there was no break, otherwise the first break
(empty if it was escaped) and the further ones. -/
structure Gap where
  broken : Bool := false
  blanks : List Char := []
  first : List Char := []
  more : List Char := []

/-- What a gap adds to the text: one break folds to a space, several to all but the first. -/
def Gap.text (g : Gap) : List Char :=
  if g.broken then
    if g.first = ['\n'] then (if g.more.isEmpty then [' '] else g.more) else g.first ++ g.more
  else g.blanks

/-- Takes blanks and breaks. After a break, a tab left of `margin` is refused. -/
def takeGap (margin : Int) : Nat → Gap → Scan Gap
  | 0, g => return g
  | fuel + 1, g => do
    if ← ahead 0 isBlank then
      if g.broken && (← column) < margin && (← ahead 0 (· == '\t')) then failure
      let cs := (← get).rest.take 1
      skip
      takeGap margin fuel (if g.broken then g else { g with blanks := g.blanks ++ cs })
    else if ← ahead 0 isBreak then
      let b ← takeBreak
      takeGap margin fuel
        (if g.broken then { g with more := g.more ++ b }
         else { g with broken := true, blanks := [], first := b })
    else return g

def fuel : Scan Nat := do
  return (← get).size + 1

/-- `---` or `...` at the start of a line. -/
def atDocumentMark : Scan Bool := do
  let c ← get
  let three := c.rest.take 3
  return c.mark.column == 0 && (three == ['-', '-', '-'] || three == ['.', '.', '.'])
    && (← gapAhead 3)

/-- How many characters a plain scalar takes before a gap or an indicator that ends it. -/
def plainRun (flow : Bool) : List Char → Nat
  | [] => 0
  | c :: cs =>
    if isBlank c || isBreak c then 0
    else if c == ':' && (match cs with | [] => true | d :: _ => isBlank d || isBreak d) then 0
    else if flow && (c == ',' || c == '?' || c == '[' || c == ']' || c == '{' || c == '}') then 0
    else plainRun flow cs + 1

def plainLoop (margin : Int) : Nat → List Char → Gap → Scan (List Char × Gap)
  | 0, s, g => return (s, g)
  | n + 1, s, g => do
    if ← atDocumentMark then return (s, g)
    if ← ahead 0 (· == '#') then return (s, g)
    let run := plainRun (← inFlow) (← get).rest
    let (s, g) ← if run == 0 then pure (s, g) else do
      let cs := (← get).rest.take run
      skip run
      pure (s ++ g.text ++ cs, {})
    if !(← ahead 0 fun c => isBlank c || isBreak c) then return (s, g)
    let g ← takeGap margin (← fuel) g
    if !(← inFlow) && (← column) < margin then return (s, g)
    plainLoop margin n s g

def plainScalar : Scan Token := do
  let margin := (← get).indent + 1
  let (s, g) ← plainLoop margin (← fuel) [] {}
  if g.broken then allowKey true
  return .scalar (String.ofList s) true

/-- Takes the scalar value that `n` hexadecimal digits give. -/
def codePoint (n : Nat) : Scan Char := do
  let cs := (← get).rest.take n
  if cs.length ≠ n then failure
  let ds ← (cs.mapM Bytes.hexValue? : Option (List Nat))
  let v := ds.foldl (fun a d => 16 * a + d) 0
  skip n
  if v.isValidChar then return Char.ofNat v else failure

/-- The character of an escape behind a backslash. -/
def escaped : Scan Char := do
  let c ← (← get).rest[0]?
  skip
  match c with
  | '0' => return '\x00'
  | 'a' => return '\x07'
  | 'b' => return '\x08'
  | 't' => return '\t'
  | '\t' => return '\t'
  | 'n' => return '\n'
  | 'v' => return '\x0b'
  | 'f' => return '\x0c'
  | 'r' => return '\r'
  | 'e' => return '\x1b'
  | ' ' => return ' '
  | '"' => return '"'
  | '\'' => return '\''
  | '\\' => return '\\'
  | 'N' => return Char.ofNat 0x85
  | '_' => return Char.ofNat 0xa0
  | 'L' => return Char.ofNat 0x2028
  | 'P' => return Char.ofNat 0x2029
  | 'x' => codePoint 2
  | 'u' => codePoint 4
  | 'U' => codePoint 8
  | _ => failure

/-- The characters of a quoted scalar up to a gap, the closing quote or an escaped break; the flag
tells the last case. -/
def quotedRun (single : Bool) : Nat → List Char → Scan (List Char × Bool)
  | 0, s => return (s, false)
  | n + 1, s => do
    if ← gapAhead 0 then return (s, false)
    if single then
      if (← get).rest.take 2 == ['\'', '\''] then
        skip 2
        quotedRun single n (s ++ ['\''])
      else if ← ahead 0 (· == '\'') then return (s, false)
      else
        let cs := (← get).rest.take 1
        skip
        quotedRun single n (s ++ cs)
    else if ← ahead 0 (· == '"') then return (s, false)
    else if ← ahead 0 (· == '\\') then
      if ← ahead 1 isBreak then
        skip
        let _ ← takeBreak
        return (s, true)
      else
        skip
        let c ← escaped
        quotedRun single n (s ++ [c])
    else
      let cs := (← get).rest.take 1
      skip
      quotedRun single n (s ++ cs)

def quotedLoop (single : Bool) : Nat → List Char → Scan (List Char)
  | 0, _ => failure
  | n + 1, s => do
    if ← atDocumentMark then failure
    if ← endAhead 0 then failure
    let (run, escapedBreak) ← quotedRun single (← fuel) []
    let s := s ++ run
    if ← ahead 0 (· == if single then '\'' else '"') then
      skip
      return s
    let g ← takeGap 0 (← fuel) { broken := escapedBreak }
    quotedLoop single n (s ++ g.text)

def quotedScalar (single : Bool) : Scan Token := do
  skip
  let s ← quotedLoop single (← fuel) []
  return .scalar (String.ofList s) false

/-- Takes the indentation and the empty lines before a line of a block scalar; `indent` is 0 while
it is unknown. Gives the breaks and the deepest column met. -/
def blockBreaks (indent : Nat) : Nat → List Char → Nat → Scan (List Char × Nat)
  | 0, bs, deepest => return (bs, deepest)
  | n + 1, bs, deepest => do
    let c ← get
    let spaces := (c.rest.takeWhile (· == ' ')).length
    skip (if indent == 0 then spaces else min spaces (indent - c.mark.column))
    let col ← column
    let deepest := max deepest col
    if (indent == 0 || col < indent) && (← ahead 0 (· == '\t')) then failure
    if !(← ahead 0 isBreak) then return (bs, deepest)
    let b ← takeBreak
    blockBreaks indent n (bs ++ b) deepest

/-- Gap and indentation before a line of a block scalar. The first line fixes the indentation. -/
def blockGap (indent : Nat) : Scan (List Char × Nat) := do
  let (bs, deepest) ← blockBreaks indent (← fuel) [] 0
  if indent == 0 then
    let least := ((← get).indent + 1).toNat
    return (bs, max 1 (max deepest least))
  return (bs, indent)

/-- The lines of a block scalar. `first` and `more` are the breaks behind the last line, `deeper`
says whether that line started with a blank. -/
def blockLines (literal : Bool) (indent : Nat) :
    Nat → List Char → List Char → List Char → Bool → Scan (List Char × List Char × List Char)
  | 0, s, first, more, _ => return (s, first, more)
  | n + 1, s, first, more, deeper => do
    if (← column) ≠ indent || (← endAhead 0) then return (s, first, more)
    let blank ← ahead 0 isBlank
    let joint :=
      if !literal && !deeper && !blank && first == ['\n'] then
        (if more.isEmpty then [' '] else [])
      else first
    let line ← takeWhile fun c => !isBreak c
    let first ← takeBreak
    let (bs, _) ← blockGap indent
    blockLines literal indent n (s ++ joint ++ more ++ line) first bs blank

/-- How the breaks at the end of a block scalar are kept. -/
inductive Chomp where
  | strip
  | clip
  | keep

def chomp? : Scan (Option Chomp) := do
  if ← ahead 0 (· == '+') then
    skip
    return some .keep
  if ← ahead 0 (· == '-') then
    skip
    return some .strip
  return none

/-- An indentation indicator, 0 if there is none. -/
def indentation : Scan Nat := do
  match (← get).rest with
  | c :: _ =>
    if c.isDigit then
      if c == '0' then failure
      skip
      return c.toNat - 48
    return 0
  | [] => return 0

/-- Skips blanks and a comment up to the end of the line, and the break. -/
def finishLine : Scan Unit := do
  skipWhile isBlank
  if ← ahead 0 (· == '#') then skipWhile fun c => !isBreak c
  if !(← lineEnds) then failure
  let _ ← takeBreak

/-- The two indicators of a block scalar, in either order. -/
def blockHeader : Scan (Chomp × Nat) := do
  match ← chomp? with
  | some c => return (c, ← indentation)
  | none =>
    let increment ← indentation
    if increment == 0 then return (.clip, 0)
    return ((← chomp?).getD .clip, increment)

def blockScalar (literal : Bool) : Scan Token := do
  skip
  let (chomp, increment) ← blockHeader
  finishLine
  let base := (← get).indent
  let indent := if increment == 0 then 0 else (max base 0).toNat + increment
  let (bs, indent) ← blockGap indent
  let (s, first, more) ← blockLines literal indent (← fuel) [] [] bs false
  let s := match chomp with
    | .strip => s
    | .clip => s ++ first
    | .keep => s ++ first ++ more
  return .scalar (String.ofList s) false

/-! ## Anchors, tags and directives -/

def anchorName : Scan String := do
  skip
  let name ← takeWhile isWordChar
  if name.isEmpty then failure
  if !((← gapAhead 0) || (← ahead 0 fun c => "?:,]\x7d%@`".toList.contains c)) then failure
  return String.ofList name

/-- A byte written as `%XX`. -/
def percentByte : Scan UInt8 := do
  match (← get).rest with
  | '%' :: a :: b :: _ =>
    let a ← Bytes.hexValue? a
    let b ← Bytes.hexValue? b
    skip 3
    return UInt8.ofNat (16 * a + b)
  | _ => failure

/-- The character that one to four bytes `%XX` encode. -/
def percentChar : Scan Char := do
  let lead ← percentByte
  let n := lead.toNat
  if n < 0x80 then return Char.ofNat n
  let more := if n < 0xc0 then 0 else if n < 0xe0 then 1 else if n < 0xf0 then 2 else 3
  let tail ← (List.range more).mapM fun _ => percentByte
  match Bytes.decode (lead :: tail) with
  | [some c] => return c
  | _ => failure

def uriLoop : Nat → List Char → Scan (List Char)
  | 0, s => return s
  | n + 1, s => do
    if ← ahead 0 (· == '%') then
      let c ← percentChar
      uriLoop n (s ++ [c])
    else if ← ahead 0 fun c => isWordChar c || ";/?:@&=+$,.!~*'()[]".toList.contains c then
      let cs := (← get).rest.take 1
      skip
      uriLoop n (s ++ cs)
    else return s

/-- The URI part of a tag behind the characters `head` already taken. -/
def tagUri (head : List Char) : Scan (List Char) := do
  let s ← uriLoop (← fuel) []
  if s.isEmpty && head.isEmpty then failure
  return head.tail ++ s

/-- `!`, `!!` or `!word!`; without the closing mark it is only the start of a tag. -/
def tagHandleText : Scan (List Char) := do
  if !(← ahead 0 (· == '!')) then failure
  skip
  let word ← takeWhile isWordChar
  if ← ahead 0 (· == '!') then
    skip
    return '!' :: word ++ ['!']
  return '!' :: word

def tagToken : Scan Token := do
  let t ←
    if ← ahead 1 (· == '<') then
      skip 2
      let uri ← tagUri []
      if !(← ahead 0 (· == '>')) then failure
      skip
      pure (Token.tag "" (String.ofList uri))
    else
      let handle ← tagHandleText
      if 1 < handle.length && handle.getLast? == some '!' then
        let uri ← tagUri []
        pure (Token.tag (String.ofList handle) (String.ofList uri))
      else
        let uri ← tagUri handle
        if uri.isEmpty then pure (Token.tag "" "!")
        else pure (Token.tag "!" (String.ofList uri))
  if !(← gapAhead 0) then failure
  return t

def versionNumber : Scan Nat := do
  let ds ← takeWhile Char.isDigit
  if ds.isEmpty || 9 < ds.length then failure
  return ds.foldl (fun n c => 10 * n + (c.toNat - 48)) 0

def directive : Scan Token := do
  skip
  let name ← takeWhile isWordChar
  if name.isEmpty || !(← gapAhead 0) then failure
  skipWhile isBlank
  let t ←
    if name == "YAML".toList then
      let major ← versionNumber
      if !(← ahead 0 (· == '.')) then failure
      skip
      let minor ← versionNumber
      pure (Token.version major minor)
    else if name == "TAG".toList then
      let handle ← tagHandleText
      if handle.getLast? ≠ some '!' then failure
      if !(← ahead 0 isBlank) then failure
      skipWhile isBlank
      let uri ← tagUri []
      if !(← gapAhead 0) then failure
      pure (Token.tagHandle (String.ofList handle) (String.ofList uri))
    else failure
  finishLine
  return t

/-! ## One token -/

/-- Steps over blanks, comments and breaks to where the next token starts. -/
def toNextToken : Nat → Scan Unit
  | 0 => return
  | n + 1 => do
    if (← column) == 0 && (← ahead 0 fun c => c.toNat == 0xfeff) then skip
    let tabs := (← inFlow) || !(← get).keyAllowed
    skipWhile fun c => c == ' ' || (tabs && c == '\t')
    if ← ahead 0 (· == '#') then skipWhile fun c => !isBreak c
    if ← ahead 0 isBreak then
      let _ ← takeBreak
      if !(← inFlow) then allowKey true
      toNextToken n

/-- Ends the block structure and any candidate for a key. -/
def closeAll : Scan Unit := do
  closeBlocks (-1)
  dropKey
  allowKey false

def openFlow (t : Token) : Scan Unit := do
  markKey
  modify fun c => { c with keys := none :: c.keys }
  allowKey true
  skip
  push t

def closeFlow (t : Token) : Scan Unit := do
  dropKey
  modify fun c => { c with keys := if 1 < c.keys.length then c.keys.tail else c.keys }
  allowKey false
  skip
  push t

def blockEntry : Scan Unit := do
  if !(← inFlow) then
    if !(← get).keyAllowed then failure
    openBlock (← column) none .blockSequenceStart
  dropKey
  allowKey true
  skip
  push .blockEntry

def explicitKey : Scan Unit := do
  if !(← inFlow) then
    if !(← get).keyAllowed then failure
    openBlock (← column) none .blockMappingStart
  dropKey
  allowKey (!(← inFlow))
  skip
  push .key

/-- At `:` the candidate of this level becomes a key; without one the key was explicit or empty. -/
def valueMark : Scan Unit := do
  let candidate ← match (← get).keys with
    | some k :: _ => if ← stillKey k then pure (some k) else pure none
    | _ => pure none
  modify fun c => { c with keys := none :: c.keys.tail }
  match candidate with
  | some k =>
    insertAt k.number .key
    openBlock k.mark.column (some k.number) .blockMappingStart
    allowKey false
  | none =>
    if !(← inFlow) then
      if !(← get).keyAllowed then failure
      openBlock (← column) none .blockMappingStart
    allowKey (!(← inFlow))
  skip
  push .value

/-- A token that may start a key. -/
def keyLike (scan : Scan Token) : Scan Unit := do
  markKey
  allowKey false
  let t ← scan
  push t

/-- Indicators that no plain scalar starts with. -/
def indicators : List Char :=
  "-?:,[]\x7b\x7d#&*!|>'\"%@`".toList

/-- Reads the next token into the queue. -/
def fetch : Scan Unit := do
  toNextToken (← fuel)
  closeBlocks (← column)
  match (← get).rest with
  | [] =>
    if (← column) ≠ 0 then
      modify fun c => { c with mark := { c.mark with column := 0, line := c.mark.line + 1 } }
    closeAll
    push .streamEnd
  | c :: _ =>
    let flow ← inFlow
    if c == '%' && (← column) == 0 then
      closeAll
      push (← directive)
    else if ← atDocumentMark then
      closeAll
      skip 3
      push (if c == '-' then .documentStart else .documentEnd)
    else if c == '[' then openFlow .flowSequenceStart
    else if c == '{' then openFlow .flowMappingStart
    else if c == ']' then closeFlow .flowSequenceEnd
    else if c == '}' then closeFlow .flowMappingEnd
    else if c == ',' then
      dropKey
      allowKey true
      skip
      push .flowEntry
    else if c == '-' && (← gapAhead 1) then blockEntry
    else if c == '?' && (flow || (← gapAhead 1)) then explicitKey
    else if c == ':' && (flow || (← gapAhead 1)) then valueMark
    else if c == '*' then keyLike (do return .alias (← anchorName))
    else if c == '&' then keyLike (do return .anchor (← anchorName))
    else if c == '!' then keyLike tagToken
    else if (c == '|' || c == '>') && !flow then
      dropKey
      allowKey true
      push (← blockScalar (c == '|'))
    else if c == '\'' then keyLike (quotedScalar true)
    else if c == '"' then keyLike (quotedScalar false)
    else if !(isBlank c || indicators.contains c) || (c == '-' && !(← ahead 1 isBlank))
        || (!flow && (c == '?' || c == ':') && !(← gapAhead 1)) then
      keyLike plainScalar
    else failure

/-- Reads on while the queue is empty or its first token is a candidate for a key. -/
def fill : Nat → Scan Unit
  | 0 => failure
  | n + 1 => do
    let c ← get
    if c.queue.isEmpty then
      fetch
      fill n
    else
      match c.keys.findSome? fun k => k.bind fun k => if k.number == c.taken then some k else none with
      | some k =>
        if ← stillKey k then
          fetch
          fill n
        else
          modify fun c => { c with
            keys := c.keys.map fun j => if j.any (·.number == k.number) then none else j }
      | none => return

/-- The next token, which stays in the queue. -/
def peek : Scan Token := do
  fill (2 * (← fuel) + (← get).queue.length + 4)
  (← get).queue.head?

/-- Removes the token that `peek` gave. -/
def next : Scan Unit :=
  modify fun c => { c with queue := c.queue.tail, taken := c.taken + 1 }

end Scan

/-- The cursor at the start of a text. -/
def Cursor.ofChars (cs : List Char) : Cursor :=
  { rest := cs, size := cs.length }

end TwoPhase.Yaml
