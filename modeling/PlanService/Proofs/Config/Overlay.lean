import PlanService.Config.Sources
import PlanService.Proofs.Yaml.Likeness

/-! # A file is an overlay on the defaults

Each setting of a file that loads is what is written under its keys, and with nothing written there what it
is by default; a catalog is either the builtin one or what is written, in which a list that is left out is
empty (`Written`).  Nothing else in the file counts: neither the order of its entries nor what stands under
keys that are no settings (`likeness`).  `file_is_overlay` says both of every file that loads.

Each section is a record, and what is shown of it is which part of it belongs to which key; the sections
themselves are the parts of the whole.
-/

namespace PlanService.Config

open Yaml (Document Node Overlay Reading Likeness)
open Yaml.Decoder (Field Sets record_sets text natural option record_needed list_reading text_respects
  natural_respects option_respects list_respects)

attribute [ext] Plan Device Catalog Config Api Logging Worker Completion Client Engine

/-! ## What a file says -/

/-- A plan is written by its name, and maybe a description. -/
structure PlanWritten (document : Document) (node : Node) (plan : Plan) : Prop where
  named : document.reach ["name"] node ≠ []
  name : ∀ written ∈ document.reach ["name"] node, text document written = .ok plan.name
  description : Overlay (option text).reading document node ["description"] none plan.description

/-- A device is written by its name, and maybe a list of protocols. -/
structure DeviceWritten (document : Document) (node : Node) (device : Device) : Prop where
  named : document.reach ["name"] node ≠ []
  name : ∀ written ∈ document.reach ["name"] node, text document written = .ok device.name
  protocols : Overlay (Reading.list text.reading) document node ["protocols"] [] device.protocols

/-- A catalog is written by its lists, of which one that is left out is empty. -/
structure CatalogWritten (document : Document) (node : Node) (catalog : Catalog) : Prop where
  plans : Overlay (Reading.list PlanWritten) document node ["plans"] [] catalog.plans
  devices : Overlay (Reading.list DeviceWritten) document node ["devices"] [] catalog.devices

/-- The settings are those of the document whose root is the node, over the defaults. -/
structure Written (document : Document) (node : Node) (config : Config) : Prop where
  host : Overlay text.reading document node ["api", "host"] ({} : Config).api.host config.api.host
  port : Overlay (natural (Nat.pow 2 16 - 1)).reading document node ["api", "port"]
    ({} : Config).api.port config.api.port
  level : Overlay (option text).reading document node ["logging", "level"]
    ({} : Config).logging.level config.logging.level
  dir : Overlay (option text).reading document node ["logging", "dir"]
    ({} : Config).logging.dir config.logging.dir
  commandBuffer : Overlay (natural wordLimit).reading document node ["worker", "command-buffer"]
    ({} : Config).worker.commandBuffer config.worker.commandBuffer
  channelCapacity : Overlay (natural wordLimit).reading document node ["completion", "channel-capacity"]
    ({} : Config).completion.channelCapacity config.completion.channelCapacity
  completionTimeoutSecs : Overlay (option (natural wordLimit)).reading document node
    ["client", "completion-timeout-secs"]
    ({} : Config).client.completionTimeoutSecs config.client.completionTimeoutSecs
  stepMs : Overlay (natural wordLimit).reading document node ["engine", "step-ms"]
    ({} : Config).engine.stepMs config.engine.stepMs
  defaultSteps : Overlay (natural wordLimit).reading document node ["engine", "default-steps"]
    ({} : Config).engine.defaultSteps config.engine.defaultSteps
  catalog : Overlay CatalogWritten document node ["catalog"] .builtin config.catalog

/-! ## What does not matter -/

/-- A section of scalars under these keys. -/
def settingsLikeness (keys : List String) : Likeness :=
  .fields (keys.map fun key => (key, .scalar))

def catalogLikeness : Likeness :=
  .fields
    [("plans", .items (settingsLikeness ["name", "description"])),
     ("devices", .items (.fields [("name", .scalar), ("protocols", .items .scalar)]))]

/-- Whether two files differ in nothing but the order of entries and keys that are no settings. -/
def likeness : Likeness :=
  .fields
    [("api", settingsLikeness ["host", "port"]),
     ("logging", settingsLikeness ["level", "dir"]),
     ("worker", settingsLikeness ["command-buffer"]),
     ("completion", settingsLikeness ["channel-capacity"]),
     ("client", settingsLikeness ["completion-timeout-secs"]),
     ("engine", settingsLikeness ["step-ms", "default-steps"]),
     ("catalog", catalogLikeness)]

/-! ## The parts of the records -/

theorem Api.decoder_sets :
    Sets Api.decoder {} "host" text Api.host ∧
      Sets Api.decoder {} "port" (natural (Nat.pow 2 16 - 1)) Api.port := by
  constructor <;> exact record_sets ⟨⟨_, rfl, Field.defaulted_reads fun _ _ => rfl⟩, by simp⟩ _

theorem Logging.decoder_sets :
    Sets Logging.decoder {} "level" (option text) Logging.level ∧
      Sets Logging.decoder {} "dir" (option text) Logging.dir := by
  constructor <;> exact record_sets ⟨⟨_, rfl, Field.defaulted_reads fun _ _ => rfl⟩, by simp⟩ _

theorem Worker.decoder_sets : Sets Worker.decoder {} "command-buffer" (natural wordLimit) Worker.commandBuffer :=
  record_sets ⟨⟨_, rfl, Field.defaulted_reads fun _ _ => rfl⟩, by simp⟩ _

theorem Completion.decoder_sets :
    Sets Completion.decoder {} "channel-capacity" (natural wordLimit) Completion.channelCapacity :=
  record_sets ⟨⟨_, rfl, Field.defaulted_reads fun _ _ => rfl⟩, by simp⟩ _

theorem Client.decoder_sets :
    Sets Client.decoder {} "completion-timeout-secs" (option (natural wordLimit)) Client.completionTimeoutSecs :=
  record_sets ⟨⟨_, rfl, Field.defaulted_reads fun _ _ => rfl⟩, by simp⟩ _

theorem Engine.decoder_sets :
    Sets Engine.decoder {} "step-ms" (natural wordLimit) Engine.stepMs ∧
      Sets Engine.decoder {} "default-steps" (natural wordLimit) Engine.defaultSteps := by
  constructor <;> exact record_sets ⟨⟨_, rfl, Field.defaulted_reads fun _ _ => rfl⟩, by simp⟩ _

theorem planDecoder_sets :
    Sets planDecoder ⟨"", none⟩ "name" text Plan.name ∧
      Sets planDecoder ⟨"", none⟩ "description" (option text) Plan.description :=
  ⟨record_sets ⟨⟨_, rfl, Field.needed_reads fun _ _ => rfl⟩, by simp⟩ _,
   record_sets ⟨⟨_, rfl, Field.defaulted_reads fun _ _ => rfl⟩, by simp⟩ _⟩

theorem deviceDecoder_sets :
    Sets deviceDecoder ⟨"", []⟩ "name" text Device.name ∧
      Sets deviceDecoder ⟨"", []⟩ "protocols" (Yaml.Decoder.list text) Device.protocols :=
  ⟨record_sets ⟨⟨_, rfl, Field.needed_reads fun _ _ => rfl⟩, by simp⟩ _,
   record_sets ⟨⟨_, rfl, Field.defaulted_reads fun _ _ => rfl⟩, by simp⟩ _⟩

theorem catalogDecoder_sets :
    Sets catalogDecoder ⟨[], []⟩ "plans" (Yaml.Decoder.list planDecoder) Catalog.plans ∧
      Sets catalogDecoder ⟨[], []⟩ "devices" (Yaml.Decoder.list deviceDecoder) Catalog.devices := by
  constructor <;> exact record_sets ⟨⟨_, rfl, Field.defaulted_reads fun _ _ => rfl⟩, by simp⟩ _

/-- The sections, by their keys. -/
structure Sections : Prop where
  api : Sets decoder {} "api" Api.decoder api
  logging : Sets decoder {} "logging" Logging.decoder logging
  worker : Sets decoder {} "worker" Worker.decoder worker
  completion : Sets decoder {} "completion" Completion.decoder completion
  client : Sets decoder {} "client" Client.decoder client
  engine : Sets decoder {} "engine" Engine.decoder engine
  catalog : Sets decoder {} "catalog" catalogDecoder catalog

theorem sections : Sections := by
  constructor <;> exact record_sets ⟨⟨_, rfl, Field.defaulted_reads fun _ _ => rfl⟩, by simp⟩ _

variable {document : Document} {node : Node}

/-! ## What is read is what is written -/

theorem planWritten_of_read {plan : Plan} (read : planDecoder document node = .ok plan) :
    PlanWritten document node plan where
  named := by
    rw [Document.reach_singleton]
    exact record_needed List.mem_cons_self rfl read
  name := (planDecoder_sets.1 read).given
  description := planDecoder_sets.2 read

theorem deviceWritten_of_read {device : Device} (read : deviceDecoder document node = .ok device) :
    DeviceWritten document node device where
  named := by
    rw [Document.reach_singleton]
    exact record_needed List.mem_cons_self rfl read
  name := (deviceDecoder_sets.1 read).given
  protocols := (deviceDecoder_sets.2 read).imp fun _ => list_reading

theorem catalogWritten_of_read {catalog : Catalog} (read : catalogDecoder document node = .ok catalog) :
    CatalogWritten document node catalog where
  plans := (catalogDecoder_sets.1 read).imp fun _ read =>
    (list_reading read).imp fun _ _ => planWritten_of_read
  devices := (catalogDecoder_sets.2 read).imp fun _ read =>
    (list_reading read).imp fun _ _ => deviceWritten_of_read

theorem written_of_read {config : Config} (read : decoder document node = .ok config) :
    Written document node config where
  host := (sections.api read).under fun _ part => Api.decoder_sets.1 part
  port := (sections.api read).under fun _ part => Api.decoder_sets.2 part
  level := (sections.logging read).under fun _ part => Logging.decoder_sets.1 part
  dir := (sections.logging read).under fun _ part => Logging.decoder_sets.2 part
  commandBuffer := (sections.worker read).under fun _ part => Worker.decoder_sets part
  channelCapacity := (sections.completion read).under fun _ part => Completion.decoder_sets part
  completionTimeoutSecs := (sections.client read).under fun _ part => Client.decoder_sets part
  stepMs := (sections.engine read).under fun _ part => Engine.decoder_sets.1 part
  defaultSteps := (sections.engine read).under fun _ part => Engine.decoder_sets.2 part
  catalog := (sections.catalog read).imp fun _ => catalogWritten_of_read

/-! ## Like files give the same -/

theorem Api.decoder_respects : Api.decoder.Respects (settingsLikeness ["host", "port"]) := by
  intro document document' node node' s t alike read read'
  exact Api.ext (Api.decoder_sets.1.agree text_respects (by simp) alike read read')
    (Api.decoder_sets.2.agree (natural_respects _) (by simp) alike read read')

theorem Logging.decoder_respects : Logging.decoder.Respects (settingsLikeness ["level", "dir"]) := by
  intro document document' node node' s t alike read read'
  exact Logging.ext (Logging.decoder_sets.1.agree (option_respects text_respects) (by simp) alike read read')
    (Logging.decoder_sets.2.agree (option_respects text_respects) (by simp) alike read read')

theorem Worker.decoder_respects : Worker.decoder.Respects (settingsLikeness ["command-buffer"]) := by
  intro document document' node node' s t alike read read'
  exact Worker.ext (Worker.decoder_sets.agree (natural_respects _) (by simp) alike read read')

theorem Completion.decoder_respects : Completion.decoder.Respects (settingsLikeness ["channel-capacity"]) := by
  intro document document' node node' s t alike read read'
  exact Completion.ext (Completion.decoder_sets.agree (natural_respects _) (by simp) alike read read')

theorem Client.decoder_respects : Client.decoder.Respects (settingsLikeness ["completion-timeout-secs"]) := by
  intro document document' node node' s t alike read read'
  exact Client.ext
    (Client.decoder_sets.agree (option_respects (natural_respects _)) (by simp) alike read read')

theorem Engine.decoder_respects : Engine.decoder.Respects (settingsLikeness ["step-ms", "default-steps"]) := by
  intro document document' node node' s t alike read read'
  exact Engine.ext (Engine.decoder_sets.1.agree (natural_respects _) (by simp) alike read read')
    (Engine.decoder_sets.2.agree (natural_respects _) (by simp) alike read read')

theorem planDecoder_respects : planDecoder.Respects (settingsLikeness ["name", "description"]) := by
  intro document document' node node' s t alike read read'
  exact Plan.ext (planDecoder_sets.1.agree text_respects (by simp) alike read read')
    (planDecoder_sets.2.agree (option_respects text_respects) (by simp) alike read read')

theorem deviceDecoder_respects :
    deviceDecoder.Respects (.fields [("name", .scalar), ("protocols", .items .scalar)]) := by
  intro document document' node node' s t alike read read'
  exact Device.ext (deviceDecoder_sets.1.agree text_respects (by simp) alike read read')
    (deviceDecoder_sets.2.agree (list_respects text_respects) (by simp) alike read read')

theorem catalogDecoder_respects : catalogDecoder.Respects catalogLikeness := by
  intro document document' node node' s t alike read read'
  exact Catalog.ext
    (catalogDecoder_sets.1.agree (list_respects planDecoder_respects) (by simp) alike read read')
    (catalogDecoder_sets.2.agree (list_respects deviceDecoder_respects) (by simp) alike read read')

theorem decoder_respects : decoder.Respects likeness := by
  intro document document' node node' s t alike read read'
  exact Config.ext (sections.api.agree Api.decoder_respects (by simp) alike read read')
    (sections.logging.agree Logging.decoder_respects (by simp) alike read read')
    (sections.worker.agree Worker.decoder_respects (by simp) alike read read')
    (sections.completion.agree Completion.decoder_respects (by simp) alike read read')
    (sections.client.agree Client.decoder_respects (by simp) alike read read')
    (sections.engine.agree Engine.decoder_respects (by simp) alike read read')
    (sections.catalog.agree catalogDecoder_respects (by simp) alike read read')

/-! ## Files -/

/-- The document in a file. -/
def documentOf (content : Option (List UInt8)) : Option Document := do
  (Document.ofText (← content.bind Text.Utf8.decodeString)).toOption

/-- A file that loads has a document, and the settings are read from there. -/
theorem exists_of_loaded {content : Option (List UInt8)} {config : Config}
    (loaded : ofContent content = .ok config) :
    ∃ document, documentOf content = some document ∧ decoder document document.top = .ok config := by
  rw [ofContent] at loaded
  split at loaded
  · cases loaded
  next text isText =>
    split at loaded
    next read =>
      cases loaded
      rw [Yaml.decode] at read
      obtain ⟨document, parsed, read⟩ := exists_of_bind_eq_ok read
      refine ⟨document, ?_, read⟩
      rw [documentOf, isText]
      exact congrArg Except.toOption parsed
    · cases loaded

/-- The settings of a file that loads are those written in it over the defaults, and another file that
loads and differs in nothing but the order of its entries and keys that are no settings gives the same. -/
theorem file_is_overlay {content : Option (List UInt8)} {config : Config}
    (loaded : ofContent content = .ok config) :
    ∃ document, documentOf content = some document ∧ Written document document.top config ∧
      ∀ content' document' config', documentOf content' = some document' → ofContent content' = .ok config' →
        likeness document document' document.top document'.top = true → config' = config := by
  obtain ⟨document, holds, read⟩ := exists_of_loaded loaded
  refine ⟨document, holds, written_of_read read, fun content' document' config' holds' loaded' alike => ?_⟩
  obtain ⟨other, isOther, read'⟩ := exists_of_loaded loaded'
  obtain rfl : other = document' := Option.some.inj (isOther.symm.trans holds')
  exact (decoder_respects alike read read').symm

def flyFile : List UInt8 :=
  Text.Utf8.encode
    "engine:\n  step-ms: 5\n  default-steps: 3\ncatalog:\n  plans:\n  - name: fly\n".toList

/-- The same settings in another order, with a key that nobody asks for. -/
def reorderedFlyFile : List UInt8 :=
  Text.Utf8.encode
    "catalog:\n  plans:\n  - x: 1\n    name: fly\nengine:\n  default-steps: 3\n  step-ms: 5\n".toList

def flyConfig : Config where
  engine := { stepMs := 5, defaultSteps := 3 }
  catalog := ⟨[⟨"fly", none⟩], []⟩

/-- Both files give the steps that they say, a catalog of one plan and no devices, and the defaults
otherwise. -/
theorem flyConfig_in_either_order :
    ofContent (some flyFile) = .ok flyConfig ∧ ofContent (some reorderedFlyFile) = .ok flyConfig ∧
      ∃ document document', documentOf (some flyFile) = some document ∧
        documentOf (some reorderedFlyFile) = some document' ∧ Written document document.top flyConfig ∧
          likeness document document' document.top document'.top = true := by
  have loaded : ofContent (some flyFile) = .ok flyConfig := by decide +kernel
  have loads : ∃ config', ofContent (some reorderedFlyFile) = .ok config' := ⟨flyConfig, by decide +kernel⟩
  have alike : (documentOf (some flyFile)).any (fun document => (documentOf (some reorderedFlyFile)).any
      fun document' => likeness document document' document.top document'.top) = true := by decide +kernel
  obtain ⟨document, holds, written, same⟩ := file_is_overlay loaded
  obtain ⟨config', loaded'⟩ := loads
  rw [holds, Option.any_some] at alike
  obtain ⟨document', holds', alike⟩ := (Option.any_eq_true _ _).mp alike
  have agrees : config' = flyConfig := same _ document' config' holds' loaded' alike
  exact ⟨loaded, agrees ▸ loaded', document, document', holds, holds', written, alike⟩

end PlanService.Config
