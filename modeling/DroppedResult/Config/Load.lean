import DroppedResult.Config.Decode
import DroppedResult.Config.Validate
import DroppedResult.FileSystem
import DroppedResult.Toml.Document

/-!
# Loading configurations

A configuration is read from a document, decoded and validated.  A run takes the
file it is given; without one, the file `must-use-result.toml` of the working
directory if it is there, and the defaults if it is not.
-/

namespace DroppedResult

/-- Why a configuration cannot be loaded. -/
inductive ConfigError where
  | unreadable (reason : String)
  /-- The text is no document, or a setting has the wrong type. -/
  | malformed
  | unsound (reason : String)
  deriving DecidableEq

namespace ConfigError

def message : ConfigError → String
  | unreadable reason => "Failed to read configuration: " ++ reason
  | malformed => "Invalid configuration syntax: not a configuration document"
  | unsound reason => "Invalid configuration: " ++ reason

end ConfigError

namespace Config

def fileName : String :=
  "must-use-result.toml"

/-- The configuration that a text denotes. -/
def parse (text : String) : Except ConfigError Config :=
  match (Toml.parse text).bind ofDocument? with
  | none => .error .malformed
  | some c =>
    match c.validate with
    | .ok () => .ok c
    | .error fault => .error (.unsound fault.message)

def load (fs : FileSystem) (path : FilePath) : Except ConfigError Config :=
  match fs.readText path with
  | .error cause => .error (.unreadable cause.message)
  | .ok text => parse text

/-- The configuration of a run, given the file that it asks for. -/
def find (fs : FileSystem) (explicit : Option FilePath) : Except ConfigError Config :=
  match explicit with
  | some path => load fs path
  | none =>
    let path := FilePath.ofText fileName
    if fs.pathExists path then load fs path else .ok standard

end Config

end DroppedResult
