import PlanService.Client.Network
import PlanService.Config.Service
import PlanService.Config.Sources
import PlanService.Main
import PlanService.Program.Rehearsal
import PlanService.Proofs.Board.Announcement
import PlanService.Proofs.Worker.Admission
import PlanService.Proofs.Worker.Lockstep
import PlanService.Proofs.Worker.Waiting
import PlanService.Wire.Config
import PlanService.Proofs.Worker.Attribution
import PlanService.Proofs.Worker.Requests
import PlanService.Proofs.Engine.Verdict
import PlanService.Proofs.Board.Ending
import PlanService.Proofs.Engine.Course
import PlanService.Proofs.Worker.Verdict
import PlanService.Proofs.Api.Streaming
import PlanService.Proofs.Bus.Readers
import PlanService.Proofs.Worker.Reference
import PlanService.Proofs.Worker.Transition
import PlanService.Proofs.Api.Abandonment
import PlanService.Proofs.Engine.Protocol
import PlanService.Proofs.Api.Command
import PlanService.Proofs.Session.Run
import PlanService.Proofs.Session.Records
import PlanService.Proofs.Session.Effects
import PlanService.Proofs.Json.ReadBack
import PlanService.Proofs.Wire.ReadBack
import PlanService.Proofs.Http.Address
import PlanService.Proofs.Client.Proxy
import PlanService.Proofs.Json.Nesting
import PlanService.Proofs.Json.OneLine
import PlanService.Proofs.Wire.RoundTrip
import PlanService.Proofs.Text.Split
import PlanService.Proofs.Text.Utf8
import PlanService.Proofs.EventStream
import PlanService.Proofs.Client.Watching
import PlanService.Proofs.Client.Submission
import PlanService.Proofs.Client.Live
import PlanService.Proofs.Program.Script
import PlanService.Proofs.Program.Running
import PlanService.Proofs.Worker.Panic
import PlanService.Proofs.Engine.Pace
import PlanService.Proofs.Http.Naming
import PlanService.Proofs.Client.Catalog
import PlanService.Proofs.Engine.Bookkeeping
import PlanService.Proofs.Engine.Deadlines
import PlanService.Proofs.Worker.Shutdown
import PlanService.Proofs.Config.Overlay
