import PlanService.CommandLine.Reading

/-! # Help and complaints

What is printed when a command line is not carried out.
-/

namespace PlanService.CommandLine

/-- A name as the place of a value is written: in capitals between brackets. -/
def placeholder (name : String) : String :=
  let capitals := name.toList.map fun c => if c = '-' then '_' else c.toUpper
  String.ofList ('<' :: (capitals ++ ['>']))

def columns (rows : List (String × String)) : List String :=
  let width := (rows.map (·.1.length)).foldl max 0
  rows.map fun (left, right) =>
    let gap := String.ofList (List.replicate (width - left.length) ' ')
    s!"  {left}{gap}  {right}"

/-- A section with a heading; nothing if it is empty. -/
def headed (heading : String) (rows : List (String × String)) : List String :=
  if rows.isEmpty then [] else "" :: s!"{heading}:" :: columns rows

namespace Opt

def usage (opt : Opt) : String :=
  match opt.kind? with
  | some _ => s!"--{opt.name} {placeholder opt.name}"
  | none => s!"--{opt.name}"

def row (opt : Opt) : String × String :=
  let default :=
    match opt.default? with
    | some text => s!" [default: {text}]"
    | none => ""
  (s!"-{opt.letter}, {opt.usage}", opt.about ++ default)

end Opt

/-- The operand as it is written: in brackets if it may be left out. -/
def Operand.usage (operand : Operand) : String :=
  if operand.needed then placeholder operand.name
  else String.ofList ('[' :: (operand.name.toList.map Char.toUpper ++ [']']))

def Command.usage (command : Command) (path : String) : String :=
  let operand :=
    match command.operand with
    | some operand => s!" {operand.usage}"
    | none => ""
  let inner :=
    if command.commands.isEmpty then ""
    else if command.commandNeeded then " <COMMAND>"
    else " [COMMAND]"
  s!"Usage: {path} [OPTIONS]{operand}{inner}"

def Grammar.help (grammar : Grammar) (path : String) (command : Command) : List String :=
  let version := if path = grammar.program.name then [Opt.version] else []
  let operands := command.operand.toList
  let options := command.options ++ grammar.shared ++ [Opt.help] ++ version
  command.about :: "" :: command.usage path ::
    (headed "Commands" (command.choices.map fun c => (c.name, c.about)) ++
      headed "Arguments" (operands.map fun o => (o.usage, o.about)) ++
      headed "Options" (options.map Opt.row))

/-- What is wrong with a command line; nothing if it only asks for something else. -/
def Stop.complaint? : Stop → Option String
  | .help _ _ | .version | .helpNeeded _ _ => none
  | .commandMissing path => some s!"'{path}' requires a subcommand but one was not provided"
  | .unknownCommand name => some s!"unrecognized subcommand '{name}'"
  | .unknownArgument word => some s!"unexpected argument '{word}' found"
  | .operandMissing operand =>
    some s!"the following required arguments were not provided: {operand.usage}"
  | .valueMissing opt => some s!"a value is required for '{opt.usage}' but none was supplied"
  | .valueRefused opt text => some s!"invalid value '{text}' for '{opt.usage}'"
  | .valueUnwanted opt text =>
    some s!"unexpected value '{text}' for '{opt.usage}' found; no more were expected"
  | .repeated opt => some s!"the argument '{opt.usage}' cannot be used multiple times"

end PlanService.CommandLine
