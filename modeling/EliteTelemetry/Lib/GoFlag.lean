/-
  EliteTelemetry.Lib.GoFlag — command line flags, as Go's `flag` reads them.

  An argument with one or two dashes is a flag, with its value behind an equals sign or, if it
  is not a Boolean one, in the next argument. The first argument that is no flag ends them.
-/

import EliteTelemetry.Lib.NetAddr

namespace EliteTelemetry.Lib.GoFlag

open EliteTelemetry.Lib.NetAddr (Text before)

inductive Kind where
  | bool
  | string
  deriving DecidableEq, Repr

inductive FlagErr where
  | badSyntax (arg : String)
  | notDefined (name : String)
  | needsArgument (name : String)
  | invalidBool (value name : String)
  | help
  deriving DecidableEq, Repr

/-- What an argument is: the end of the flags, no flag for want of a name, or a flag. -/
inductive Arg where
  | stop
  | bad
  | flag (name : String) (value : Option String)
  deriving DecidableEq, Repr

def readNamed (name : Text) : Arg :=
  match name with
  | [] | '-' :: _ | '=' :: _ => .bad
  | _ =>
    let first := before '=' name
    if '=' ∈ name then .flag (String.ofList first) (some (String.ofList (name.drop (first.length + 1))))
    else .flag (String.ofList name) none

def readArg (arg : String) : Arg :=
  match arg.toList with
  | ['-', '-'] => .stop
  | '-' :: '-' :: name => readNamed name
  | '-' :: c :: name => readNamed (c :: name)
  | _ => .stop

def parseBool (s : String) : Option Bool :=
  if s ∈ ["1", "t", "T", "TRUE", "true", "True"] then some true
  else if s ∈ ["0", "f", "F", "FALSE", "false", "False"] then some false
  else none

def parse (kind : String → Option Kind) : List String → Except FlagErr (List (String × String))
  | [] => .ok []
  | arg :: args =>
    match readArg arg with
    | .stop => .ok []
    | .bad => .error (.badSyntax arg)
    | .flag name value =>
      match kind name, value with
      | none, _ => .error (if name = "help" ∨ name = "h" then .help else .notDefined name)
      | some .bool, none => (parse kind args).map ((name, "true") :: ·)
      | some .bool, some value =>
        match parseBool value with
        | some b => (parse kind args).map ((name, toString b) :: ·)
        | none => .error (.invalidBool value name)
      | some .string, some value => (parse kind args).map ((name, value) :: ·)
      | some .string, none =>
        match args with
        | [] => .error (.needsArgument name)
        | value :: args => (parse kind args).map ((name, value) :: ·)

/-- A flag that is set twice has its last value. -/
def stringFlag (flags : List (String × String)) (name : String) : String := (flags.reverse.lookup name).getD ""

def boolFlag (flags : List (String × String)) (name : String) : Bool := flags.reverse.lookup name == some "true"

example :
    let kind := fun name => if name = "v" then some Kind.bool else if name = "o" then some .string else none
    parse kind ["-v", "--o", "-x", "-o=a=b", "rest", "-v"] = .ok [("v", "true"), ("o", "-x"), ("o", "a=b")] ∧
      parse kind ["-v=maybe"] = .error (.invalidBool "maybe" "v") ∧ parse kind ["-o"] = .error (.needsArgument "o") ∧
      parse kind ["-x"] = .error (.notDefined "x") ∧ parse kind ["---v"] = .error (.badSyntax "---v") := by
  decide +kernel

end EliteTelemetry.Lib.GoFlag
