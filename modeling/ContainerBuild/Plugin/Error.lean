import ContainerBuild.Files.Basic
import ContainerBuild.Params.Error

namespace ContainerBuild

/-!
# Failures of configuring plugins
-/

/-- Why a template cannot be loaded, changed or filled in. -/
inductive PluginError where
  | unreadable (path : String) (cause : FileError)
  | invalid (path : String) (fault : Json.Fault)
  | missingPhase (phase : String)
  | missingPlugin (name : String)
  /-- Neither the caller nor the parameters say where the templates are. -/
  | noDirectory
  | params (error : ParamsError)
deriving DecidableEq

/-- What is wrong, in words. -/
def PluginError.message : PluginError → String
  | .unreadable path cause => "Can't open template '" ++ path ++ "': " ++ cause.message
  | .invalid path fault => "invalid JSON in '" ++ path ++ "': " ++ fault.description
  | .missingPhase phase => "Invalid template: plugin phase '" ++ phase ++ "' misses"
  | .missingPlugin name => "no such plugin in template: \"" ++ name ++ "\""
  | .noDirectory => "user params carry no build_json_dir"
  | .params error => error.message

end ContainerBuild
