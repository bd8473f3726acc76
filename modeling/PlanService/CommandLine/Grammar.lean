/-! # Grammars of command lines

What may be written after a program's name: commands inside commands, each with options and
at most one operand.  Every command understands the options of the grammar besides its own,
and a command that has commands also understands `help`.
-/

namespace PlanService.CommandLine

inductive ValueKind where
  | text
  -- The name of a file, which is never empty.
  | path
  -- A number of 64 bits.
  | natural
  deriving Repr, DecidableEq, Inhabited

inductive Role where
  -- It is there or not.
  | flag
  -- It has a value; without the option there may be a default.
  | value (kind : ValueKind) (default : Option String)
  -- It asks for the help of the command.
  | help
  -- It asks for the version of the program.
  | version
  deriving Repr, DecidableEq, Inhabited

/-- An option, written `--name` or with one letter after one hyphen. -/
structure Opt where
  name : String
  letter : Char
  role : Role
  about : String
  deriving Repr, DecidableEq, Inhabited

namespace Opt

def kind? (opt : Opt) : Option ValueKind :=
  match opt.role with
  | .value kind _ => some kind
  | _ => none

def default? (opt : Opt) : Option String :=
  match opt.role with
  | .value _ default => default
  | _ => none

def help : Opt := ⟨"help", 'h', .help, "Print help"⟩

def version : Opt := ⟨"version", 'V', .version, "Print version"⟩

end Opt

/-- What stands by itself, without an option. -/
structure Operand where
  name : String
  needed : Bool
  about : String
  deriving Repr, DecidableEq, Inhabited

/-- A command with what may follow it. -/
structure Command where
  name : String
  about : String
  options : List Opt := []
  operand : Option Operand := none
  commands : List Command := []
  -- Whether one of its commands has to follow.
  commandNeeded : Bool := false
  deriving Repr, Inhabited

namespace Command

def help : Command where
  name := "help"
  about := "Print this message or the help of the given subcommand(s)"

def choices (command : Command) : List Command :=
  if command.commands.isEmpty then [] else command.commands ++ [help]

def choice? (command : Command) (name : String) : Option Command :=
  command.choices.find? (·.name == name)

end Command

/-- A program: its outermost command and the options that all commands understand. -/
structure Grammar where
  program : Command
  version : String
  shared : List Opt := []
  deriving Repr, Inhabited

end PlanService.CommandLine
