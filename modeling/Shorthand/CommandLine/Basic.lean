import Shorthand.Text.Lines
import Shorthand.Text.Terminal

/-!
# Command lines

Arguments are taken from left to right. An option is given by its long name or, alone or in a
cluster, by its letter; its value stands behind an equals sign, in the rest of the cluster, or in
the next argument. After `--` every argument stands for itself.

    --input=f   --input f   -i f   -if   -i=f   -vif

An option that waits for its value is settled when the next argument has been recognised: only then
is it found to have no value, or to be there twice.
-/

namespace Shorthand.CommandLine

structure Parameter where
  /-- The long name, without its dashes. -/
  long : String
  /-- The letter. -/
  short : Option Char
  /-- What its value is called in messages; none for a flag. -/
  valueName : Option String
  /-- Whether it may be given more than once. -/
  repeats : Bool
  deriving DecidableEq, Repr

/-- The option as messages show it. -/
def Parameter.display (p : Parameter) : String :=
  match p.valueName with
  | none => "--" ++ p.long
  | some v => "--" ++ p.long ++ " <" ++ v ++ ">"

def help : Parameter := ⟨"help", some 'h', none, false⟩

/-- What a command takes. -/
structure Command where
  parameters : List Parameter
  /-- Whether it takes arguments that are no options. -/
  takesOperands : Bool

def Command.long? (cmd : Command) (name : String) : Option Parameter :=
  (help :: cmd.parameters).find? fun p => p.long == name

def Command.short? (cmd : Command) (letter : Char) : Option Parameter :=
  (help :: cmd.parameters).find? fun p => p.short == some letter

/-! ## Usage -/

def Parameter.usageLine (p : Parameter) : List Char :=
  let letter := match p.short with
    | some c => ['-', c, ',', ' ']
    | none => "    ".toList
  "  ".toList ++ letter ++ p.display.toList ++ ['\n']

def Command.usage (cmd : Command) (name : String) : List Char :=
  ("Usage: " ++ name ++ " [OPTIONS]").toList ++
    (if cmd.takesOperands then " [QUERIES]...".toList else []) ++ "\n\nOptions:\n".toList ++
    (cmd.parameters ++ [help]).flatMap (·.usageLine)

/-! ## Refusals -/

/-- Why arguments are not taken. -/
inductive Refusal where
  | unknown (argument : String)
  | valueRequired (parameter : Parameter)
  | repeated (parameter : Parameter)
  | unneededValue (parameter : Parameter) (value : String)
  /-- The user asked for help. -/
  | help
  deriving DecidableEq, Repr

namespace Refusal

def kind : Refusal → String
  | .unknown _ => "UnknownArgument"
  | .valueRequired _ => "InvalidValue"
  | .repeated _ => "ArgumentConflict"
  | .unneededValue _ _ => "TooManyValues"
  | .help => "DisplayHelp"

/-- What the user wrote, as a terminal shows it, so that it cannot act on the terminal. -/
def cited (s : String) : String := String.ofList (Text.Terminal.withoutControls s.toList)

def text : Refusal → String
  | .unknown a => "error: unexpected argument '" ++ cited a ++ "' found"
  | .valueRequired p => "error: a value is required for '" ++ p.display ++ "' but none was supplied"
  | .repeated p => "error: the argument '" ++ p.display ++ "' cannot be used multiple times"
  | .unneededValue p v =>
    "error: unexpected value '" ++ cited v ++ "' for '" ++ p.display ++
      "' found; no more were expected"
  | .help => ""

def message (r : Refusal) : String :=
  String.ofList ((Text.lines r.text.toList).headD [])

/-- The exit code of a command whose arguments are not taken. -/
def exitCode : Refusal → Nat
  | .help => 0
  | _ => 2

end Refusal

/-! ## What is given -/

/-- What the arguments say. -/
structure Given where
  /-- The options in order, by their long names; a flag has the value `""`. -/
  options : List (String × String)
  operands : List String
  deriving DecidableEq, Repr

namespace Given

def nothing : Given := ⟨[], []⟩

/-- The values of an option, in order. -/
def values (g : Given) (long : String) : List String :=
  (g.options.filter fun o => o.1 == long).map (·.2)

def value? (g : Given) (long : String) : Option String := (g.values long).head?

def has (g : Given) (long : String) : Bool := g.options.any fun o => o.1 == long

end Given

/-! ## Algorithm -/

/-- How far the arguments have been taken. -/
structure State where
  given : Given
  /-- An option that stood without a value of its own, and the argument after it if there was
  one. -/
  waiting : Option (Parameter × Option String)
  /-- Whether `--` has been passed. -/
  onlyOperands : Bool
  deriving DecidableEq, Repr

def State.start : State := ⟨.nothing, none, false⟩

def State.record (s : State) (p : Parameter) (value : String) : Except Refusal State :=
  if p.long == help.long then .error .help
  else if !p.repeats && s.given.has p.long then .error (.repeated p)
  else .ok { s with given := { s.given with options := s.given.options ++ [(p.long, value)] } }

/-- Takes the option that waits. -/
def State.settle (s : State) : Except Refusal State :=
  match s.waiting with
  | none => .ok s
  | some (p, none) => .error (.valueRequired p)
  | some (p, some value) => State.record { s with waiting := none } p value

/-- Settles, then takes an option with its value. -/
def State.take (s : State) (p : Parameter) (value : String) : Except Refusal State := do
  let s ← s.settle
  s.record p value

/-- Settles, then lets an option wait for its value. -/
def State.await (s : State) (p : Parameter) : Except Refusal State := do
  let s ← s.settle
  return { s with waiting := some (p, none) }

def State.operand (cmd : Command) (s : State) (argument : String) : Except Refusal State :=
  if cmd.takesOperands then do
    let s ← s.settle
    return { s with given := { s.given with operands := s.given.operands ++ [argument] } }
  else .error (.unknown argument)

/-- Takes an argument with two dashes; `body` is what follows them. -/
def State.long (cmd : Command) (s : State) (body : List Char) : Except Refusal State :=
  let name := String.ofList (body.takeWhile (· ≠ '='))
  let value? := match body.dropWhile (· ≠ '=') with
    | [] => none
    | _ :: value => some (String.ofList value)
  match cmd.long? name with
  | none => .error (.unknown ("--" ++ name))
  | some p =>
    match p.valueName, value? with
    | none, none => s.take p ""
    | none, some value => .error (.unneededValue p value)
    | some _, none => s.await p
    | some _, some value => s.take p value

/-- Takes a cluster of letters. -/
def State.cluster (cmd : Command) : State → List Char → Except Refusal State
  | s, [] => .ok s
  | s, c :: cs =>
    match cmd.short? c with
    | none => .error (.unknown (String.ofList ['-', c]))
    | some p =>
      match p.valueName, cs with
      | none, cs => do
        let s ← s.take p ""
        s.cluster cmd cs
      | some _, [] => s.await p
      | some _, '=' :: value => s.take p (String.ofList value)
      | some _, value => s.take p (String.ofList value)

/-- Takes an argument that is no option: a value that is waited for, or an operand. -/
def State.plain (cmd : Command) (s : State) (argument : String) : Except Refusal State :=
  match s.waiting with
  | some (p, none) => .ok { s with waiting := some (p, some argument) }
  | _ => s.operand cmd argument

def State.step (cmd : Command) (s : State) (argument : String) : Except Refusal State :=
  if s.onlyOperands then s.operand cmd argument
  else
    match argument.toList with
    | ['-', '-'] => .ok { s with onlyOperands := true }
    | '-' :: '-' :: body => s.long cmd body
    | '-' :: c :: cs => s.cluster cmd (c :: cs)
    | _ => s.plain cmd argument

def parse (cmd : Command) (arguments : List String) : Except Refusal Given := do
  let s ← arguments.foldlM (State.step cmd) State.start
  let s ← s.settle
  return s.given

/-! ## Lists in one value -/

/-- The values of an option that takes lists, all lists in one. -/
def Given.items (g : Given) (long : String) : List String :=
  (g.values long).flatMap fun value => (value.toList.splitOn ',').map String.ofList

end Shorthand.CommandLine
