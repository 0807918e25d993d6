import TwoPhase.Yaml.Record

/-!
# YAML values

A node with all its scalars resolved. There are two ways to read mappings. In an ordered reading the pairs
stand as they are written, and what a merge key names is read but adds nothing. In an unordered reading it
adds its pairs, and the keys are scalars.
-/

namespace TwoPhase.Yaml

inductive Value where
  | scalar (s : Scalar)
  | seq (items : List Value)
  | map (pairs : List (Value × Value))
  deriving Inhabited

namespace Value

def isScalar : Value → Bool
  | scalar _ => true
  | _ => false

def isNull : Value → Bool
  | scalar .null => true
  | _ => false

mutual

/-- The value of a node; none if a scalar does not fit its tag or a merge key names no mapping. -/
def ofNode? (ordered : Bool) : Node → Option Value
  | .scalar tag text plain => (Scalar.resolve? tag text plain).map scalar
  | .seq xs => (ofNodes? ordered xs).map seq
  | .map ps => (ofPairs? ordered ps).map map
  | .cycle => none

def ofNodes? (ordered : Bool) : List Node → Option (List Value)
  | [] => some []
  | x :: xs => do return (← ofNode? ordered x) :: (← ofNodes? ordered xs)

def ofPairs? (ordered : Bool) : List (Node × Node) → Option (List (Value × Value))
  | [] => some []
  | (k, v) :: ps => do
    if k.isMerge then
      let merged ← match v with
        | .map qs => ofPairs? ordered qs
        | .seq xs => ofMerged? ordered xs
        | _ => none
      return (if ordered then [] else merged) ++ (← ofPairs? ordered ps)
    else
      let key ← ofNode? ordered k
      if ordered || key.isScalar then return (key, ← ofNode? ordered v) :: (← ofPairs? ordered ps)
      else none

/-- The pairs of several mappings; those of the first mapping come last and so win. -/
def ofMerged? (ordered : Bool) : List Node → Option (List (Value × Value))
  | [] => some []
  | x :: xs => do
    let later ← ofMerged? ordered xs
    match x with
    | .map qs => return later ++ (← ofPairs? ordered qs)
    | _ => none

end

mutual

/-- A value in words: items between brackets, pairs between braces. -/
def describe : Value → String
  | scalar .null => "<nil>"
  | scalar (.bool b) => if b then "true" else "false"
  | scalar (.int n) => n.repr
  | scalar (.float x) => x.text
  | scalar (.text s) => s
  | seq xs => "[" ++ " ".intercalate (describeItems xs) ++ "]"
  | map ps => "[" ++ " ".intercalate (describePairs ps) ++ "]"

def describeItems : List Value → List String
  | [] => []
  | x :: xs => describe x :: describeItems xs

def describePairs : List (Value × Value) → List String
  | [] => []
  | (k, v) :: ps => ("\x7b" ++ describe k ++ " " ++ describe v ++ "\x7d") :: describePairs ps

end

/-- The text of a scalar in its plainest notation. -/
def plainText? : Value → Option String
  | scalar (.float .nan) => some ".nan"
  | scalar (.float (.infinite negative)) => some (if negative then "-.inf" else ".inf")
  | scalar (.text s) => some s
  | scalar .null => none
  | scalar s => some (describe (.scalar s))
  | _ => none

end Value

end TwoPhase.Yaml
