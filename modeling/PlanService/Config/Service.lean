import PlanService.Config.Basic
import PlanService.Session

/-! # The configured service

What is brought up to serve: a worker of a simulated engine, with the configured bus and
catalog.
-/

namespace PlanService.Config

/-- The service that a configuration describes. -/
def service (config : Config) : Session Simulated :=
  Session.start { config := config.engine.simulated config.catalog } Simulated.initialEvents
    (.ofCapacity config.completion.channelCapacity) config.catalog

end PlanService.Config
