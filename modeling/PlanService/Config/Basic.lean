import PlanService.Bus
import PlanService.Catalog
import PlanService.Engine.Simulated
import PlanService.Yaml.Decoder

/-! # Configuration

The settings of a service and of its command line, in sections.  A file lists what differs
from the defaults; each key of a section that it does not give keeps its default, except that
a catalog is taken as it is written.
-/

namespace PlanService

open Yaml (Decoder)
open Yaml.Decoder (Field)

namespace Config

structure Api where
  host : String := "127.0.0.1"
  port : Nat := 8000
  deriving Repr, DecidableEq, Inhabited

structure Logging where
  level : Option String := none
  dir : Option String := none
  deriving Repr, DecidableEq, Inhabited

structure Worker where
  -- How many commands may wait.
  commandBuffer : Nat := 256
  deriving Repr, DecidableEq, Inhabited

structure Completion where
  -- How many completions are kept for slow readers.
  channelCapacity : Nat := Bus.defaultCapacity
  deriving Repr, DecidableEq, Inhabited

structure Client where
  -- How many seconds to wait for a task; without it, for ever.
  completionTimeoutSecs : Option Nat := none
  deriving Repr, DecidableEq, Inhabited

structure Engine where
  -- How many milliseconds a step takes.
  stepMs : Nat := 100
  -- How many steps a plan takes that does not say.
  defaultSteps : Nat := 10
  deriving Repr, DecidableEq, Inhabited

end Config

structure Config where
  api : Config.Api := {}
  logging : Config.Logging := {}
  worker : Config.Worker := {}
  completion : Config.Completion := {}
  client : Config.Client := {}
  engine : Config.Engine := {}
  catalog : Catalog := .builtin
  deriving Repr, DecidableEq, Inhabited

namespace Config

/-! ## What follows from the settings -/

def Api.address (api : Api) : String := s!"{api.host}:{api.port}"

def Api.url (api : Api) : String := s!"http://{api.address}"

def Client.completionTimeout (client : Client) : Option Millis :=
  client.completionTimeoutSecs.map (· * 1000)

def Engine.simulated (engine : Engine) (catalog : Catalog) : Simulated.Config where
  step := engine.stepMs
  defaultSteps := engine.defaultSteps
  plans := catalog.planNames

/-! ## Reading a file -/

def wordLimit : Nat := Nat.pow 2 64 - 1

def Api.decoder : Decoder Api :=
  Decoder.record
    [Field.defaulted "host" Decoder.text fun host s => { s with host },
     Field.defaulted "port" (Decoder.natural (Nat.pow 2 16 - 1)) fun port s => { s with port }]
    {}

def Logging.decoder : Decoder Logging :=
  Decoder.record
    [Field.defaulted "level" (Decoder.option Decoder.text) fun level s => { s with level },
     Field.defaulted "dir" (Decoder.option Decoder.text) fun dir s => { s with dir }]
    {}

def Worker.decoder : Decoder Worker :=
  Decoder.record
    [Field.defaulted "command-buffer" (Decoder.natural wordLimit)
      fun commandBuffer s => { s with commandBuffer }]
    {}

def Completion.decoder : Decoder Completion :=
  Decoder.record
    [Field.defaulted "channel-capacity" (Decoder.natural wordLimit)
      fun channelCapacity s => { s with channelCapacity }]
    {}

def Client.decoder : Decoder Client :=
  Decoder.record
    [Field.defaulted "completion-timeout-secs" (Decoder.option (Decoder.natural wordLimit))
      fun completionTimeoutSecs s => { s with completionTimeoutSecs }]
    {}

def Engine.decoder : Decoder Engine :=
  Decoder.record
    [Field.defaulted "step-ms" (Decoder.natural wordLimit) fun stepMs s => { s with stepMs },
     Field.defaulted "default-steps" (Decoder.natural wordLimit)
      fun defaultSteps s => { s with defaultSteps }]
    {}

def planDecoder : Decoder Plan :=
  Decoder.record
    [Field.needed "name" Decoder.text fun name p => { p with name },
     Field.defaulted "description" (Decoder.option Decoder.text)
      fun description p => { p with description }]
    ⟨"", none⟩

def deviceDecoder : Decoder Device :=
  Decoder.record
    [Field.needed "name" Decoder.text fun name d => { d with name },
     Field.defaulted "protocols" (Decoder.list Decoder.text)
      fun protocols d => { d with protocols }]
    ⟨"", []⟩

/-- A catalog; a list that it does not give is empty. -/
def catalogDecoder : Decoder Catalog :=
  Decoder.record
    [Field.defaulted "plans" (Decoder.list planDecoder) fun plans c => { c with plans },
     Field.defaulted "devices" (Decoder.list deviceDecoder) fun devices c => { c with devices }]
    ⟨[], []⟩

/-- The settings that a file gives, over the defaults. -/
def decoder : Decoder Config :=
  Decoder.record
    [Field.defaulted "api" Api.decoder fun api s => { s with api },
     Field.defaulted "logging" Logging.decoder fun logging s => { s with logging },
     Field.defaulted "worker" Worker.decoder fun worker s => { s with worker },
     Field.defaulted "completion" Completion.decoder fun completion s => { s with completion },
     Field.defaulted "client" Client.decoder fun client s => { s with client },
     Field.defaulted "engine" Engine.decoder fun engine s => { s with engine },
     Field.defaulted "catalog" catalogDecoder fun catalog s => { s with catalog }]
    {}

end Config

end PlanService
