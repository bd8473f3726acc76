import PlanService.Config.Basic
import PlanService.Text.Utf8

/-! # Where the configuration comes from

A file that is named has to load.  Without one, the file in the working directory is tried,
then the user's own; one that does not load is passed over, and without any the defaults
hold.
-/

namespace PlanService.Config

inductive FileError where
  -- It is not there, or is no text.
  | unreadable
  -- It is not the configuration of a service.
  | unparsable (fault : Yaml.Fault)
  deriving Repr, DecidableEq

def FileError.message : FileError → String
  | unreadable => "Failed to read config file"
  | unparsable _ => "Failed to parse config file"

/-- Why there is no configuration: the named file does not load. -/
structure LoadError where
  path : String
  cause : FileError
  deriving Repr, DecidableEq

def LoadError.message (error : LoadError) : String :=
  s!"Failed to load config from {error.path}"

def localPath : String := ".planworker.yml"

def userPath (configDir : String) : String := s!"{configDir}/planworker/planworker.yml"

def ofContent (content : Option (List UInt8)) : Except FileError Config :=
  match content.bind Text.Utf8.decodeString with
  | none => .error .unreadable
  | some text =>
    match Yaml.decode decoder text with
    | .ok config => .ok config
    | .error fault => .error (.unparsable fault)

/-- What is in the files, by their paths, and where the user's own is, if anywhere. -/
structure Files where
  content : String → Option (List UInt8)
  configDir : Option String

def firstLoaded (files : Files) : List String → Option Config
  | [] => none
  | path :: rest =>
    match ofContent (files.content path) with
    | .ok config => some config
    | .error _ => firstLoaded files rest

def load (files : Files) (path : Option String) : Except LoadError Config :=
  match path with
  | some path =>
    match ofContent (files.content path) with
    | .ok config => .ok config
    | .error cause => .error ⟨path, cause⟩
  | none =>
    .ok ((firstLoaded files (localPath :: (files.configDir.map userPath).toList)).getD {})

/-- The logging section alone; the defaults if there is no configuration. -/
def loadLogging (files : Files) (path : Option String) : Logging :=
  match load files path with
  | .ok config => config.logging
  | .error _ => {}

end PlanService.Config
