import PlanService.CommandLine.Grammar

/-! # Reading a command line

The words are taken one by one, at each command with what is known so far.  A value that is
complete is not looked at before something follows for which that matters: `pending` holds
the last option or operand until then, so that of two faults the one that is met first in
this order is reported.
-/

namespace PlanService.CommandLine

/-- Why a command line is not carried out: it asks for something else, or it is faulty. -/
inductive Stop where
  -- The help of a command is asked for.
  | help (path : String) (command : Command)
  | version
  -- Nothing follows a command that needs one of its commands.
  | helpNeeded (path : String) (command : Command)
  | commandMissing (path : String)
  | unknownCommand (name : String)
  | unknownArgument (word : String)
  | operandMissing (operand : Operand)
  | valueMissing (opt : Opt)
  | valueRefused (opt : Opt) (text : String)
  | valueUnwanted (opt : Opt) (text : String)
  | repeated (opt : Opt)
  deriving Repr, Inhabited

inductive Value where
  | set
  | text (text : String)
  | natural (n : Nat)
  deriving Repr, DecidableEq, Inhabited

/-- A number in digits, maybe after a `+`, that fits in 64 bits. -/
def natural? (text : String) : Option Nat :=
  let digits :=
    match text.toList with
    | '+' :: digits => digits
    | digits => digits
  if digits.isEmpty || !digits.all Char.isDigit then none
  else
    let n := Nat.ofDigitChars 10 digits 0
    if n < Nat.pow 2 64 then some n else none

def ValueKind.read (kind : ValueKind) (opt : Opt) (text : String) : Except Stop Value :=
  match kind with
  | .text => .ok (.text text)
  | .path => if text.isEmpty then .error (.valueMissing opt) else .ok (.text text)
  | .natural =>
    match natural? text with
    | some n => .ok (.natural n)
    | none => .error (.valueRefused opt text)

/-- What was read last. -/
inductive Pending where
  -- An option; its value is still to come if there is none.
  | option (opt : Opt) (value : Option String)
  | operand (operand : Operand) (text : String)
  deriving Repr, DecidableEq

structure Level where
  name : String
  values : List (String × Value)
  deriving Repr, DecidableEq, Inhabited

namespace Level

def text? (level : Level) (name : String) : Option String :=
  match level.values.lookup name with
  | some (.text text) => some text
  | _ => none

def natural? (level : Level) (name : String) : Option Nat :=
  match level.values.lookup name with
  | some (.natural n) => some n
  | _ => none

def has (level : Level) (name : String) : Bool :=
  (level.values.lookup name).isSome

end Level

structure Reading where
  -- The names of the commands up to this one.
  path : String
  command : Command
  -- The options that are understood here.
  options : List Opt
  values : List (String × Value) := []
  pending : Option Pending := none
  operandTaken : Bool := false
  -- Whether `--` has come, after which everything is an operand.
  trailing : Bool := false
  deriving Repr

namespace Reading

def ofGrammar (grammar : Grammar) : Reading where
  path := grammar.program.name
  command := grammar.program
  options := grammar.program.options ++ grammar.shared ++ [Opt.help, Opt.version]

def enter (grammar : Grammar) (outer : Reading) (command : Command) : Reading where
  path := s!"{outer.path} {command.name}"
  command
  options := command.options ++ grammar.shared ++ [Opt.help]

def awaitsValue (reading : Reading) : Bool :=
  match reading.pending with
  | some (.option _ none) => true
  | _ => false

/-! ## Settling what is pending -/

/-- Notes a value.  An option counts once. -/
def note (reading : Reading) (opt : Opt) (value : Except Stop Value) : Except Stop Reading :=
  if reading.values.any (·.1 == opt.name) then .error (.repeated opt)
  else do return { reading with values := reading.values ++ [(opt.name, ← value)] }

def apply (reading : Reading) (opt : Opt) (text : Option String) : Except Stop Reading :=
  match opt.role, text with
  | .help, _ => .error (.help reading.path reading.command)
  | .version, _ => .error .version
  | .flag, _ => reading.note opt (.ok .set)
  | .value _ _, none => .error (.valueMissing opt)
  | .value kind _, some text => reading.note opt (kind.read opt text)

def settle (reading : Reading) : Except Stop Reading :=
  let settled := { reading with pending := none }
  match reading.pending with
  | none => .ok settled
  | some (.option opt text) => settled.apply opt text
  | some (.operand operand text) =>
    .ok { settled with values := settled.values ++ [(operand.name, .text text)] }

def settleAndApply (reading : Reading) (opt : Opt) (text : Option String) :
    Except Stop Reading := do
  (← reading.settle).apply opt text

def settleAndAwait (reading : Reading) (opt : Opt) : Except Stop Reading := do
  return { ← reading.settle with pending := some (.option opt none) }

/-! ## Taking words -/

def unexpected (reading : Reading) (word : String) : Stop :=
  if reading.trailing ∧ (reading.command.choice? word).isSome then .unknownArgument word
  else if reading.command.commands.isEmpty then .unknownArgument word
  else .unknownCommand word

def takeOperand (reading : Reading) (word : String) : Except Stop Reading :=
  match reading.command.operand, reading.operandTaken with
  | some operand, false => do
    return { ← reading.settle with
      pending := some (.operand operand word), operandTaken := true }
  | _, _ => .error (reading.unexpected word)

/-- Takes `--name` or `--name=value`, given without the hyphens. -/
def takeNamed (reading : Reading) (word : List Char) : Except Stop Reading :=
  let name := String.ofList (word.takeWhile (· ≠ '='))
  match reading.options.find? (·.name == name) with
  | none => .error (.unknownArgument s!"--{name}")
  | some opt =>
    match opt.kind?, word.dropWhile (· ≠ '=') with
    | some _, _ :: text => reading.settleAndApply opt (some (String.ofList text))
    | some _, [] => reading.settleAndAwait opt
    | none, _ :: text => .error (.valueUnwanted opt (String.ofList text))
    | none, [] => reading.settleAndApply opt none

/-- Takes the letters after one hyphen.  The first option with a value takes what is left
as its value, without one `=` in front. -/
def takeLetters (reading : Reading) : List Char → Except Stop Reading
  | [] => .ok reading
  | letter :: rest =>
    match reading.options.find? (·.letter == letter) with
    | none => .error (.unknownArgument (String.ofList ['-', letter]))
    | some opt =>
      match opt.kind?, rest with
      | some _, [] => reading.settleAndAwait opt
      | some _, '=' :: text | some _, text =>
        reading.settleAndApply opt (some (String.ofList text))
      | none, rest => do (← reading.settleAndApply opt none).takeLetters rest

def takePlain (reading : Reading) (word : String) : Except Stop Reading :=
  match reading.pending with
  | some (.option opt none) => .ok { reading with pending := some (.option opt (some word)) }
  | _ => reading.takeOperand word

def take (reading : Reading) (word : String) : Except Stop Reading :=
  if reading.trailing then reading.takeOperand word
  else
    match word.toList with
    | ['-', '-'] => .ok { reading with trailing := true }
    | '-' :: '-' :: named => reading.takeNamed named
    | '-' :: letter :: letters => reading.takeLetters (letter :: letters)
    | _ => reading.takePlain word

def choice? (reading : Reading) (word : String) : Option Command :=
  if reading.trailing || reading.awaitsValue then none else reading.command.choice? word

/-- Leaves a command after its last word, or after the command inside it. -/
def leave (reading : Reading) (entered : Bool) : Except Stop Level := do
  let reading ← reading.settle
  if reading.command.commandNeeded && !entered then
    if reading.values.isEmpty then throw (.helpNeeded reading.path reading.command)
    else throw (.commandMissing reading.path)
  match reading.command.operand with
  | some operand =>
    if operand.needed && !reading.operandTaken then throw (.operandMissing operand)
  | none => pure ()
  let defaults := reading.options.filterMap fun opt =>
    opt.default?.map fun text => (opt.name, Value.text text)
  return { name := reading.command.name, values := reading.values ++ defaults }

def helpFor (path : String) (command : Command) : List String → Stop
  | [] => .help path command
  | word :: words =>
    match command.choice? word with
    | some inner => helpFor s!"{path} {inner.name}" inner words
    | none => .unknownCommand word

def read (grammar : Grammar) (reading : Reading) : List String → Except Stop (List Level)
  | [] => do return [← reading.leave false]
  | word :: words =>
    match reading.choice? word with
    | some command =>
      if command.name = Command.help.name then
        .error (helpFor reading.path reading.command words)
      else do
        let inner ← (reading.enter grammar command).read grammar words
        return (← reading.leave true) :: inner
    | none => do (← reading.take word).read grammar words

end Reading

/-- Reads the words after the program's name: what was given at each command, from the
outermost to the innermost. -/
def Grammar.read (grammar : Grammar) (words : List String) : Except Stop (List Level) :=
  (Reading.ofGrammar grammar).read grammar words

end PlanService.CommandLine
