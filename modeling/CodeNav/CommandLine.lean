/-
Module: CodeNav.CommandLine
Purpose: The arguments of the program.
Main exports:
  Arguments, Invocation, Invocation.parse, Invocation.Fault.message, Arguments.usage
-/
import CodeNav.Decimal.Numeral

namespace CodeNav

/-- What the program is told to do. -/
structure Arguments where
  /-- The directory of the settings files. -/
  directory : Option String
  environment : Option String
  /-- The port that takes the place of the one set elsewhere. -/
  port : Option Nat
deriving Repr, DecidableEq

/-- A call of the program: to run, or to show how it is used. -/
inductive Invocation where
  | run (arguments : Arguments)
  | help
deriving Repr, DecidableEq

namespace Invocation

/-- What is wrong with arguments. -/
inductive Fault where
  | unknown (argument : String)
  | valueMissing (option : String)
  | repeated (option : String)
  | badPort (text : String)
deriving Repr, DecidableEq

/-- The wording of a fault. -/
def Fault.message : Fault → String
  | .unknown argument => "unexpected argument '" ++ argument ++ "' found"
  | .valueMissing option => "a value is required for '" ++ option ++ "' but none was supplied"
  | .repeated option => "the argument '" ++ option ++ "' cannot be used multiple times"
  | .badPort text => "invalid value '" ++ text ++ "' for '--port <PORT>'"

/-- The options that take a value. -/
def options : List String :=
  ["--config-dir", "--env", "--port"]

/-- Splits arguments that join an option and its value by an equals sign. -/
def split (argument : String) : List String :=
  let name := argument.toList.takeWhile (· != '=')
  if options.contains (String.ofList name) && name.length < argument.length then
    [String.ofList name, String.ofList (argument.toList.drop (name.length + 1))]
  else [argument]

/-- Takes the value of an option over. -/
def assign (arguments : Arguments) (option value : String) : Except Fault Arguments :=
  match option with
  | "--config-dir" =>
    if arguments.directory.isSome then .error (.repeated option)
    else .ok { arguments with directory := some value }
  | "--env" =>
    if arguments.environment.isSome then .error (.repeated option)
    else .ok { arguments with environment := some value }
  | _ =>
    if arguments.port.isSome then .error (.repeated option)
    else
      match Decimal.natural? (capacity 16) value with
      | some port => .ok { arguments with port := some port }
      | none => .error (.badPort value)

/-- Reads options with their values. -/
def collect (arguments : Arguments) : List String → Except Fault Invocation
  | [] => .ok (.run arguments)
  | argument :: rest =>
    if argument == "--help" || argument == "-h" then .ok .help
    else if !options.contains argument then .error (.unknown argument)
    else
      match rest with
      | [] => .error (.valueMissing argument)
      | value :: rest =>
        match assign arguments argument value with
        | .ok arguments => collect arguments rest
        | .error fault => .error fault

/-- The call that arguments amount to. -/
def parse (arguments : List String) : Except Fault Invocation :=
  collect ⟨none, none, none⟩ (arguments.flatMap split)

end Invocation

/-- How the program is used. -/
def Arguments.usage : String :=
  "\n".intercalate
    ["Serve code intelligence from uploaded LSIF dumps",
     "",
     "Options:",
     "  --config-dir <CONFIG_DIR>  Directory holding default.toml, <env>.toml and local.toml",
     "  --env <ENV>                Configuration environment",
     "  --port <PORT>              Overrides server.port",
     "  -h, --help                 Print help"]

end CodeNav
