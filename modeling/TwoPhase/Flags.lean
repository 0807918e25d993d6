import TwoPhase.Text.Quoted

/-!
# Command-line flags

Flags come first, as `-name=value`, `-name value` or, for switches, as `-name` alone; two dashes mean the
same as one. The first argument that is no flag ends them, and so does `--`.
-/

namespace TwoPhase

/-- Why a command line is refused. -/
inductive FlagError where
  | badForm (arg : String)
  | help
  | unknown (name : String)
  | badSwitch (value name : String)
  | noValue (name : String)
  | badValue (value name cause : String)
  deriving DecidableEq

def FlagError.message : FlagError → String
  | badForm arg => "bad flag syntax: " ++ arg
  | help => "flag: help requested"
  | unknown name => "flag provided but not defined: -" ++ name
  | badSwitch value name =>
    "invalid boolean value " ++ Text.quoted value ++ " for -" ++ name ++ ": parse error"
  | noValue name => "flag needs an argument: -" ++ name
  | badValue value name cause =>
    "invalid value " ++ Text.quoted value ++ " for flag -" ++ name ++ ": " ++ cause

/-- What a flag does to the options `σ`. A flag with a value may refuse it and says why. -/
inductive FlagAction (σ : Type) where
  | switch (set : Bool → σ → σ)
  | value (set : String → σ → Except String σ)

/-- The flags of a program by name. -/
abbrev Flags (σ : Type) := List (String × FlagAction σ)

namespace Flags

/-- The texts for the two positions of a switch. -/
def position? (text : String) : Option Bool :=
  if ["1", "t", "T", "TRUE", "true", "True"].contains text then some true
  else if ["0", "f", "F", "FALSE", "false", "False"].contains text then some false
  else none

/-- The part of a flag behind its dashes, if the argument is a flag. -/
def body? (arg : String) : Option (List Char) :=
  match arg.toList with
  | '-' :: '-' :: cs => some cs
  | '-' :: c :: cs => some (c :: cs)
  | _ => none

/-- Name and value of a flag. An equals sign at the start is no separator. -/
def nameAndValue (cs : List Char) : String × Option String :=
  let name := cs.take 1 ++ (cs.drop 1).takeWhile (· ≠ '=')
  match (cs.drop 1).dropWhile (· ≠ '=') with
  | _ :: value => (String.ofList name, some (String.ofList value))
  | [] => (String.ofList name, none)

/-- Reads flags up to the first other argument, and gives what is left. -/
def parse {σ : Type} (flags : Flags σ) (o : σ) : List String → Except FlagError (σ × List String)
  | [] => .ok (o, [])
  | arg :: rest =>
    match body? arg with
    | none => .ok (o, arg :: rest)
    | some body =>
      if arg = "--" then .ok (o, rest)
      else if body.isEmpty ∨ body.head? = some '-' ∨ body.head? = some '=' then .error (.badForm arg)
      else
        let (name, value?) := nameAndValue body
        match flags.lookup name, value?, rest with
        | none, _, _ => .error (if name = "help" ∨ name = "h" then .help else .unknown name)
        | some (.switch set), none, rest => flags.parse (set true o) rest
        | some (.switch set), some value, rest =>
          match position? value with
          | some b => flags.parse (set b o) rest
          | none => .error (.badSwitch value name)
        | some (.value set), some value, rest =>
          match set value o with
          | .ok o => flags.parse o rest
          | .error cause => .error (.badValue value name cause)
        | some (.value set), none, value :: rest =>
          match set value o with
          | .ok o => flags.parse o rest
          | .error cause => .error (.badValue value name cause)
        | some (.value _), none, [] => .error (.noValue name)
  termination_by args => args.length

end Flags

end TwoPhase
