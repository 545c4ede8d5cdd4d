import ContainerBuild.Naming.BuildId
import ContainerBuild.ReadError

namespace ContainerBuild

/-!
# Failures of build parameters
-/

/-- Why parameters cannot be made from a request. -/
inductive RequestFault where
  | noBuildFrom
  | malformedBuildFrom
  | unknownBuildFromKind
  | noGitUri
  | noBaseImage
  | noNameLabel
  | intentAndComposes
  | severalVariations
  | noKojiBuild
deriving DecidableEq

/-- What is wrong, in words. -/
def RequestFault.message : RequestFault → String
  | .noBuildFrom => "build_from must be defined"
  | .malformedBuildFrom => "build_from must be \"source_type:source_value\""
  | .unknownBuildFromKind => "first part in build_from, may be only image or imagestream"
  | .noGitUri => "git_uri must be provided"
  | .noBaseImage => "base_image must be provided"
  | .noNameLabel => "name_label must be provided"
  | .intentAndComposes => "Please only define signing_intent -OR- compose_ids, not both"
  | .severalVariations =>
      "Build variations are mutually exclusive. " ++
        "Must set either scratch, is_auto, isolated, or none."
  | .noKojiBuild =>
      "At least one param from 'sources_for_koji_build_id' or 'sources_for_koji_build_nvr' " ++
        "must be specified"

/-- Why build parameters cannot be read, made, checked or stored. -/
inductive ParamsError where
  | unreadable (error : ReadError)
  | notAnObject
  | unknownKind (kind : String)
  | missing (names : List String)
  | invalidBuildId (value : String)
  | invalid (fault : RequestFault)
  | notCustomStrategy
deriving DecidableEq

namespace ParamsError

/-- What is wrong, in words. -/
def message : ParamsError → String
  | .unreadable error => error.message
  | .notAnObject => "user params must be a JSON object"
  | .unknownKind kind => "unknown user params kind '" ++ kind ++ "'"
  | .missing names =>
      "Missing required params: " ++ ", ".intercalate (names.map fun name => "'" ++ name ++ "'")
  | .invalidBuildId value =>
      "Build ID '" ++ value ++ "' doesn't match regex '" ++ BuildId.pattern ++ "'"
  | .invalid fault => fault.message
  | .notCustomStrategy => "record does not use the custom strategy"

end ParamsError
end ContainerBuild
