import TwoPhase.Yaml.Token

/-!
# YAML documents

`document?` reads the first document of a YAML text into a tree of nodes. Aliases are replaced by
the node they name; an alias inside the very node that it names becomes `Node.cycle`, which has no
value. What follows the first document is not looked at beyond its first token.
-/

namespace TwoPhase.Yaml

inductive Node where
  /-- A scalar with its tag, empty if none is written; `plain` allows its text to stand for other
  things than text. -/
  | scalar (tag : String) (text : String) (plain : Bool)
  | seq (items : List Node)
  | map (pairs : List (Node × Node))
  | cycle
  deriving Inhabited

/-- What composition keeps beside the cursor: the anchors, latest first, with `none` for a node
that is still being read, and the tag handles of the document. -/
structure Names where
  anchors : List (String × Option Node) := []
  handles : List (String × String) := []

abbrev Compose := StateT Names Scan

namespace Node

def emptyScalar : Node :=
  .scalar "" "" true

def peek : Compose Token :=
  Scan.peek

def next : Compose Unit :=
  Scan.next

def openAnchor (anchor : Option String) : Compose Unit :=
  match anchor with
  | some a => modify fun n => { n with anchors := (a, none) :: n.anchors }
  | none => return

/-- Gives an open anchor its node, unless the name has been used again meanwhile. -/
def fillAnchor (a : String) (node : Node) :
    List (String × Option Node) → List (String × Option Node)
  | [] => []
  | (b, v) :: rest =>
    if a = b then (b, v <|> some node) :: rest else (b, v) :: fillAnchor a node rest

def closeAnchor (anchor : Option String) (node : Node) : Compose Unit :=
  match anchor with
  | some a => modify fun n => { n with anchors := fillAnchor a node n.anchors }
  | none => return

/-- The full tag of a handle and a suffix. -/
def fullTag (handle suffix : String) : Compose String := do
  if handle = "" then return suffix
  let lead ← ((← get).handles.lookup handle : Option String)
  return lead ++ suffix

/-- The anchor and the tag before a node, in either order. -/
def properties : Compose (Option String × Option String) := do
  match ← peek with
  | .anchor a =>
    next
    match ← peek with
    | .tag h s =>
      next
      return (some a, some (← fullTag h s))
    | _ => return (some a, none)
  | .tag h s =>
    next
    match ← peek with
    | .anchor a =>
      next
      return (some a, some (← fullTag h s))
    | _ => return (none, some (← fullTag h s))
  | _ => return (none, none)

mutual

/-- A node; `block` allows block collections and `indentless` a sequence that is not indented. -/
def node (fuel : Nat) (block indentless : Bool) : Compose Node :=
  match fuel with
  | 0 => failure
  | fuel + 1 => do
    if let .alias name ← peek then
      next
      let entry ← ((← get).anchors.lookup name : Option (Option Node))
      return entry.getD .cycle
    let (anchor, tag) ← properties
    let tag := tag.getD ""
    openAnchor anchor
    let n ← match ← peek with
      | .blockEntry =>
        if indentless then return ← finish anchor (.seq (← indentlessItems fuel))
        else missing anchor tag
      | .scalar text plain =>
        next
        pure (.scalar tag text (if tag = "" then plain else tag = "!"))
      | .flowSequenceStart =>
        next
        pure (.seq (← flowItems fuel true))
      | .flowMappingStart =>
        next
        pure (.map (← flowPairs fuel true))
      | .blockSequenceStart =>
        if block then
          next
          pure (.seq (← blockItems fuel))
        else missing anchor tag
      | .blockMappingStart =>
        if block then
          next
          pure (.map (← blockPairs fuel))
        else missing anchor tag
      | _ => missing anchor tag
    finish anchor n
where
  finish (anchor : Option String) (n : Node) : Compose Node := do
    closeAnchor anchor n
    return n
  /-- An anchor or a tag alone stands for an empty scalar. -/
  missing (anchor : Option String) (tag : String) : Compose Node := do
    if anchor.isNone && tag = "" then failure
    return .scalar tag "" (tag = "")

/-- The items of a block sequence, up to its end. -/
def blockItems (fuel : Nat) : Compose (List Node) :=
  match fuel with
  | 0 => failure
  | fuel + 1 => do
    match ← peek with
    | .blockEntry =>
      next
      let item ← match ← peek with
        | .blockEntry | .blockEnd => pure emptyScalar
        | _ => node fuel true false
      return item :: (← blockItems fuel)
    | .blockEnd =>
      next
      return []
    | _ => failure

/-- The items of a sequence that stands at the column of its key. -/
def indentlessItems (fuel : Nat) : Compose (List Node) :=
  match fuel with
  | 0 => failure
  | fuel + 1 => do
    match ← peek with
    | .blockEntry =>
      next
      let item ← match ← peek with
        | .blockEntry | .key | .value | .blockEnd => pure emptyScalar
        | _ => node fuel true false
      return item :: (← indentlessItems fuel)
    | _ => return []

/-- The pairs of a block mapping, up to its end. -/
def blockPairs (fuel : Nat) : Compose (List (Node × Node)) :=
  match fuel with
  | 0 => failure
  | fuel + 1 => do
    match ← peek with
    | .key =>
      next
      let k ← match ← peek with
        | .key | .value | .blockEnd => pure emptyScalar
        | _ => node fuel true true
      let v ← match ← peek with
        | .value =>
          next
          match ← peek with
          | .key | .value | .blockEnd => pure emptyScalar
          | _ => node fuel true true
        | _ => pure emptyScalar
      return (k, v) :: (← blockPairs fuel)
    | .blockEnd =>
      next
      return []
    | _ => failure

/-- The items of a flow sequence; all but the first stand behind a comma. -/
def flowItems (fuel : Nat) (first : Bool) : Compose (List Node) :=
  match fuel with
  | 0 => failure
  | fuel + 1 => do
    match ← peek with
    | .flowSequenceEnd =>
      next
      return []
    | .flowEntry => if first then failure else next
    | _ => if first then pure () else failure
    match ← peek with
    | .flowSequenceEnd =>
      next
      return []
    | .key =>
      next
      let pair ← flowPair fuel
      return .map [pair] :: (← flowItems fuel false)
    | _ =>
      let item ← node fuel false false
      return item :: (← flowItems fuel false)

/-- A single pair as an item of a flow sequence. A token that cannot start its key is dropped. -/
def flowPair (fuel : Nat) : Compose (Node × Node) :=
  match fuel with
  | 0 => failure
  | fuel + 1 => do
    let k ← match ← peek with
      | .value | .flowEntry | .flowSequenceEnd =>
        next
        pure emptyScalar
      | _ => node fuel false false
    let v ← match ← peek with
      | .value =>
        next
        match ← peek with
        | .flowEntry | .flowSequenceEnd => pure emptyScalar
        | _ => node fuel false false
      | _ => pure emptyScalar
    return (k, v)

/-- The pairs of a flow mapping; all but the first stand behind a comma. -/
def flowPairs (fuel : Nat) (first : Bool) : Compose (List (Node × Node)) :=
  match fuel with
  | 0 => failure
  | fuel + 1 => do
    match ← peek with
    | .flowMappingEnd =>
      next
      return []
    | .flowEntry => if first then failure else next
    | _ => if first then pure () else failure
    match ← peek with
    | .flowMappingEnd =>
      next
      return []
    | .key =>
      next
      let k ← match ← peek with
        | .value | .flowEntry | .flowMappingEnd => pure emptyScalar
        | _ => node fuel false false
      let v ← match ← peek with
        | .value =>
          next
          match ← peek with
          | .flowEntry | .flowMappingEnd => pure emptyScalar
          | _ => node fuel false false
        | _ => pure emptyScalar
      return (k, v) :: (← flowPairs fuel false)
    | _ =>
      let k ← node fuel false false
      return (k, emptyScalar) :: (← flowPairs fuel false)

end

/-- The directives before a document: version 1.1 at most once, and each tag handle at most once. -/
def directives : Nat → Bool → List (String × String) → Compose (List (String × String))
  | 0, _, _ => failure
  | n + 1, versioned, handles => do
    match ← peek with
    | .version major minor =>
      if versioned || major ≠ 1 || minor ≠ 1 then failure
      next
      directives n true handles
    | .tagHandle h lead =>
      if (handles.lookup h).isSome then failure
      next
      directives n versioned (handles ++ [(h, lead)])
    | _ => return handles

def standardHandles : List (String × String) :=
  [("!", "!"), ("!!", "tag:yaml.org,2002:")]

/-- The first document, `none` if the text holds none. -/
def firstDocument (fuel : Nat) : Compose (Option Node) := do
  let content ← match ← peek with
    | .streamEnd => return none
    | .version .. | .tagHandle .. | .documentStart =>
      let handles ← directives fuel false []
      modify fun n => { n with handles := handles ++ standardHandles }
      if (← peek) ≠ .documentStart then failure
      next
      match ← peek with
      | .version .. | .tagHandle .. | .documentStart | .documentEnd | .streamEnd =>
        pure emptyScalar
      | _ => node fuel true false
    | _ =>
      modify fun n => { n with handles := standardHandles }
      node fuel true false
  let _ ← peek
  return some content

end Node

/-- Characters that may stand in a YAML text. -/
def isAllowed (c : Char) : Bool :=
  let n := c.toNat
  n == 0x09 || n == 0x0a || n == 0x0d || (0x20 ≤ n && n ≤ 0x7e) || n == 0x85
    || (0xa0 ≤ n && n ≤ 0xfffd) || 0x10000 ≤ n

/-- The 16-bit units of a text, `true` for the high byte first. -/
def units (big : Bool) : Bytes → Option (List Nat)
  | [] => some []
  | a :: b :: rest => do
    let u := if big then a.toNat * 256 + b.toNat else b.toNat * 256 + a.toNat
    return u :: (← units big rest)
  | _ => none

/-- The characters that 16-bit units encode. -/
def ofUnits? : List Nat → Option (List Char)
  | [] => some []
  | u :: rest =>
    if 0xd800 ≤ u ∧ u < 0xdc00 then
      match rest with
      | v :: rest =>
        if 0xdc00 ≤ v ∧ v < 0xe000 then do
          return Char.ofNat (0x10000 + (u - 0xd800) * 1024 + (v - 0xdc00)) :: (← ofUnits? rest)
        else none
      | [] => none
    else if 0xdc00 ≤ u ∧ u < 0xe000 then none
    else do return Char.ofNat u :: (← ofUnits? rest)

/-- The characters of a YAML text. A byte order mark at the start chooses the encoding. -/
def characters? (b : Bytes) : Option (List Char) := do
  let cs ← match b with
    | 0xff :: 0xfe :: rest => (units false rest).bind ofUnits?
    | 0xfe :: 0xff :: rest => (units true rest).bind ofUnits?
    | 0xef :: 0xbb :: 0xbf :: rest => (Bytes.decode rest).mapM id
    | _ => (Bytes.decode b).mapM id
  if cs.all isAllowed then some cs else none

/-- Reads the first document of a text: `none` if the text is no YAML, `some none` if it is empty. -/
def document? (b : Bytes) : Option (Option Node) := do
  let cs ← characters? b
  let cursor := Cursor.ofChars cs
  let ((doc, _), _) ← ((Node.firstDocument (4 * cs.length + 8)).run {}).run cursor
  return doc

end TwoPhase.Yaml
