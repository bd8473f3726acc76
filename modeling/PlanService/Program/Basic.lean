import PlanService.Config.Sources
import PlanService.Program.Controller

/-! # The program

From the command line to the exit code: reading the words, setting up the log, loading the
configuration, and then serving or talking to a service.
-/

namespace PlanService

inductive Exit where
  | success
  | failure
  -- The command line was faulty.
  | misuse
  deriving Repr, DecidableEq, Inhabited

def Exit.code : Exit → Nat
  | success => 0
  | failure => 1
  | misuse => 2

namespace Program

open Script (act printLine)

def versionLine : String :=
  s!"{Invocation.grammar.program.name} {Invocation.grammar.version}"

/-- What is printed and said about a command line that is not carried out. -/
def onStop : CommandLine.Stop → Dialogue Exit
  | .help path command => do
    Dialogue.act (.print (.help path command))
    return .success
  | .version => do
    Dialogue.act (.print (.line versionLine))
    return .success
  | .helpNeeded path command => do
    Dialogue.act (.warn (Output.help path command).text)
    return .misuse
  | stop => do
    if let some complaint := stop.complaint? then Dialogue.act (.warn s!"error: {complaint}")
    return .misuse

def logFile (dir : String) : String :=
  if dir.isEmpty then "planworker.log" else s!"{dir}/planworker.log"

/-- Sets up the log: in the configured directory, if there is one.  The level of the command
line goes before the configured one. -/
def setUpLog (logLevel : Option String) (logging : Config.Logging) : Script Unit := do
  let name := logLevel.or logging.level
  if let some warning := LogLevel.warning? name then act (.warn warning)
  if let some dir := logging.dir then
    unless ← act (.openLog dir (LogLevel.ofChoice name)) do throw "Failed to setup logging"

def serve (config : Config) : Script Unit := do
  unless ← act (.listen config) do throw s!"Failed to bind {config.api.address}"
  printLine s!"PlanWorker listening on {config.api.url}"
  act .serve
  printLine "PlanWorker stopped"

def perform (config : Config) : Option Order → Script Unit
  | none => act (.print (.help Invocation.grammar.program.name Invocation.grammar.program))
  | some .serve => serve config
  | some .worker => do
    act (.warn "Please use serve command instead.")
    serve config
  | some (.controller url command) =>
    command.script (Client.ofUrl (url.getD config.api.url)) config.client

def script (files : Config.Files) (invocation : Invocation) : Script Unit := do
  setUpLog invocation.logLevel (Config.loadLogging files invocation.config)
  match Config.load files invocation.config with
  | .error _ => throw "Failed to load configuration"
  | .ok config => perform config invocation.order

/-- Runs a script to the end, with its error as the last thing said. -/
def conclude (script : Script Unit) : Dialogue Exit := do
  match ← script.run with
  | .ok () => return .success
  | .error message =>
    Dialogue.act (.warn s!"Error: {message}")
    return .failure

def dialogue (files : Config.Files) (words : List String) : Dialogue Exit :=
  match Invocation.read words with
  | .error stop => onStop stop
  | .ok invocation => conclude (script files invocation)

end Program

end PlanService
