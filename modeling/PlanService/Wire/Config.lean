import PlanService.Config.Basic
import PlanService.Wire.Bodies

/-! # The JSON form of a configuration

All sections with all keys; a setting that is not given is `null`.
-/

namespace PlanService.Config

def optionalJson {α : Type} (toJson : α → Json) : Option α → Json
  | some a => toJson a
  | none => .null

def Api.toJson (s : Api) : Json :=
  .object [("host", .string s.host), ("port", Json.ofNat s.port)]

def Logging.toJson (s : Logging) : Json :=
  .object [("level", optionalJson Json.string s.level), ("dir", optionalJson Json.string s.dir)]

def Worker.toJson (s : Worker) : Json :=
  .object [("command-buffer", Json.ofNat s.commandBuffer)]

def Completion.toJson (s : Completion) : Json :=
  .object [("channel-capacity", Json.ofNat s.channelCapacity)]

def Client.toJson (s : Client) : Json :=
  .object [("completion-timeout-secs", optionalJson Json.ofNat s.completionTimeoutSecs)]

def Engine.toJson (s : Engine) : Json :=
  .object [("step-ms", Json.ofNat s.stepMs), ("default-steps", Json.ofNat s.defaultSteps)]

def toJson (config : Config) : Json :=
  .object
    [("api", config.api.toJson), ("logging", config.logging.toJson),
     ("worker", config.worker.toJson), ("completion", config.completion.toJson),
     ("client", config.client.toJson), ("engine", config.engine.toJson),
     ("catalog", config.catalog.toJson)]

end PlanService.Config
