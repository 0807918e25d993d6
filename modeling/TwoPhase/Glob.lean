/-!
# Path patterns

A star stands for any characters but the slash, a question mark for one of them, brackets for one
character of a class, and braces for one of several alternatives; a backslash takes the meaning from the
next character. Two stars that fill a component stand for any number of components.

`Glob.matches?` compares from left to right. On a mismatch it lets the last star take one more character,
and failing that the last double star one more component. A choice between alternatives is final: what
stands before the braces is not tried again. A malformed pattern is noticed as far as it is looked at.
-/

namespace TwoPhase.Glob

/-- Splits at the first unescaped character with property `p`, which stands at depth 0 of braces if
`nested` is set; gives the part before it and the part behind it. -/
def cut? (p : Char → Bool) (nested : Bool) : Nat → List Char → Option (List Char × List Char)
  | _, [] => none
  | depth, '\\' :: c :: cs =>
    (cut? p nested depth cs).map fun (a, b) => ('\\' :: c :: a, b)
  | depth, c :: cs =>
    if depth = 0 ∧ p c then some ([], cs)
    else
      let depth := if nested then
          (if c = '{' then depth + 1 else if c = '}' then depth - 1 else depth)
        else 0
      (cut? p nested depth cs).map fun (a, b) => (c :: a, b)

/-- The part up to the closing brace and the part behind it. -/
def closing? (cs : List Char) : Option (List Char × List Char) :=
  cut? (· == '}') true 0 cs

/-- The alternatives between braces, at most `n + 1` of them. -/
def alternatives : Nat → List Char → List (List Char)
  | 0, cs => [cs]
  | n + 1, cs =>
    match cut? (· == ',') true 0 cs with
    | some (a, rest) => a :: alternatives n rest
    | none => [cs]

/-- Behind the closing bracket of a class, if there is one. -/
def classEnd? (cs : List Char) : Option (List Char) :=
  (cut? (· == ']') false 0 cs).map (·.2)

/-- A pattern is well-formed if every class and every brace is closed and no backslash ends it. -/
def isValid : Nat → Nat → List Char → Bool
  | _, depth, [] => depth == 0
  | 0, _, _ => false
  | fuel + 1, depth, c :: cs =>
    match c with
    | '\\' =>
      match cs with
      | [] => false
      | _ :: cs => isValid fuel depth cs
    | '[' =>
      let body := match cs with
        | '^' :: cs | '!' :: cs => cs
        | cs => cs
      match body with
      | [] => false
      | ']' :: _ => false
      | cs =>
        match classEnd? cs with
        | some cs => isValid fuel depth cs
        | none => false
    | '{' => isValid fuel (depth + 1) cs
    | '}' => if depth = 0 then false else isValid fuel (depth - 1) cs
    | _ => isValid fuel depth cs

def valid (cs : List Char) : Bool :=
  isValid (cs.length + 1) 0 cs

/-- The answer `no`, unless the rest of the pattern is malformed. -/
def refuse? (rest : List Char) : Option Bool :=
  if valid rest then some false else none

/-- Whether a pattern matches the empty text. -/
def matchesEmpty? : Nat → List Char → Option Bool
  | 0, _ => none
  | fuel + 1, pat =>
    if pat = [] ∨ pat = ['*'] ∨ pat = ['*', '*'] ∨ pat = ['/', '*', '*'] then some true
    else match pat with
      | '{' :: cs =>
        match closing? cs with
        | none => none
        | some (inside, rest) =>
          (alternatives inside.length inside).foldlM (fun done a =>
            if done then some true else matchesEmpty? fuel (a ++ rest)) false
      | _ => refuse? pat

/-- The character behind a possible backslash, and what follows. -/
def literal : List Char → Char × List Char
  | '\\' :: c :: cs => (c, cs)
  | '\\' :: [] => ('�', [])
  | c :: cs => (c, cs)
  | [] => ('�', [])

/-- Looks for `n` in the members of a class; `last` is the member before, if a range may start with it.
Gives the answer and the place where the search stopped. -/
def inClass (n : Char) : Nat → Option Char → List Char → Bool × List Char
  | 0, _, cs => (false, cs)
  | _, _, [] => (false, [])
  | fuel + 1, last, c :: cs =>
    if c = ']' then (false, c :: cs)
    else
      let single : Bool × List Char :=
        let (d, rest) := literal (c :: cs)
        if d = n then (true, rest) else inClass n fuel (some d) rest
      match last, cs with
      | some lo, d :: ds =>
        if c = '-' ∧ d ≠ ']' then
          let (hi, rest) := literal (d :: ds)
          if lo ≤ n ∧ n ≤ hi then (true, rest) else inClass n fuel none rest
        else single
      | _, _ => single

/-- What stands behind the next slash. -/
def nextComponent? : List Char → Option (List Char)
  | [] => none
  | c :: cs => if c = '/' then some cs else nextComponent? cs

/-- A place to go back to: what is left of the pattern and of the name. -/
abbrev Mark := Option (List Char × List Char)

/-- The comparison. `check` asks for the rest of a refused pattern to be well-formed; `segment` says that
a component starts here, and `escaped` that the character before was a backslash. -/
def run (check : Bool) : Nat → Mark → Mark → Bool → Bool → List Char → List Char → Option Bool
  | 0, _, _, _, _, _, _ => none
  | fuel + 1, stars, star, segment, escaped, pat, name =>
    match name with
    | [] => matchesEmpty? (pat.length + 1) pat
    | n :: ns =>
      let giveUp (rest : List Char) : Option Bool :=
        if check && !rest.isEmpty then refuse? rest else some false
      let backToStars (rest : List Char) : Option Bool :=
        match stars with
        | some (p, m) =>
          match nextComponent? m with
          | some m => run check fuel (some (p, m)) star true false p m
          | none => giveUp rest
        | none => giveUp rest
      let back (rest : List Char) : Option Bool :=
        match star with
        | some (p, []) => run check fuel stars star false false p []
        | some (p, m :: ms) =>
          if m ≠ '/' then run check fuel stars (some (p, ms)) false false p ms
          else backToStars rest
        | none => backToStars rest
      match pat with
      | [] => back []
      | '*' :: '*' :: rest =>
        if segment ∧ rest = [] then some true
        else match segment, rest with
          | true, '/' :: rest => run check fuel (some (rest, name)) none true false rest name
          | _, _ => run check fuel stars (some (rest, name)) false false rest name
      | '*' :: rest => run check fuel stars (some (rest, name)) false false rest name
      | '?' :: rest =>
        if n = '/' then back pat else run check fuel stars star false false rest ns
      | '[' :: cs =>
        let (negated, cs) := match cs with
          | '!' :: cs | '^' :: cs => (true, cs)
          | cs => (false, cs)
        if cs = [] ∨ cs.head? = some ']' then none
        else
          let (found, rest) := inClass n (cs.length + 1) none cs
          if found = negated then (if rest = [] then none else back rest)
          else match classEnd? rest with
            | none => none
            | some rest => run check fuel stars star false false rest ns
      | '{' :: cs =>
        match closing? cs with
        | none => none
        | some (inside, rest) => choose fuel rest name (alternatives inside.length inside)
      | '\\' :: [] => none
      | '\\' :: c :: rest =>
        if c = n then run check fuel stars star (c == '/') (c == '\\') rest ns else back pat
      | c :: rest =>
        if c = n then run check fuel stars star (c == '/') (c == '\\') rest ns
        else back (if escaped then '\\' :: pat else pat)
where
  /-- Tries alternatives in turn, each with the rest of the pattern behind it. -/
  choose (fuel : Nat) (rest name : List Char) : List (List Char) → Option Bool
    | [] => some false
    | [a] => run check fuel none none true false (a ++ rest) name
    | a :: b :: more => do
      if ← run false fuel none none true false (a ++ rest) name then return true
      choose fuel rest name (b :: more)

/-- Whether a pattern matches a path, `none` if it is malformed. -/
def matches? (pattern path : List Char) : Option Bool :=
  run true ((pattern.length + 2) * (path.length + 2) * (path.length + 2)) none none true false
    pattern path

/-- A path matches one of several patterns; the first malformed pattern before that is the error. -/
def matchesAny (path : List Char) : List String → Except String Bool
  | [] => .ok false
  | p :: ps =>
    match matches? p.toList path with
    | none => .error p
    | some true => .ok true
    | some false => matchesAny path ps

/-- What is said about a malformed pattern. -/
def complaint (pattern : String) : String :=
  "doublestar.PathMatch(" ++ pattern ++ "): syntax error in pattern"

end TwoPhase.Glob
