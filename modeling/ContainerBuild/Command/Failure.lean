import ContainerBuild.Plugin.Error
import ContainerBuild.Store

namespace ContainerBuild

/-!
# Failures of commands

What a user is told when a command fails: what was being done, and below it what went wrong, from
the outermost cause to the innermost.  A cause repeats what lies below it where the message of an
error does.
-/

/-- The causes that an error of reading comes down to. -/
def ReadError.causes (error : ReadError) : List String :=
  error.message :: error.cause?.toList.map Json.Fault.description

/-- The causes that an error of parameters comes down to. -/
def ParamsError.causes : ParamsError → List String
  | .unreadable error => error.causes
  | error => [error.message]

/-- The causes that an error of configuring plugins comes down to. -/
def PluginError.causes : PluginError → List String
  | .unreadable path cause => [(PluginError.unreadable path cause).message, cause.message]
  | .invalid path fault => [(PluginError.invalid path fault).message, fault.description]
  | .params error => error.causes
  | error => [error.message]

namespace Command

/-- How a command fails: the lines it has printed before, and the causes, outermost first. -/
structure Failure where
  printed : List String := []
  causes : List String
deriving DecidableEq

namespace Failure

/-- The causes after the first, numbered from a number on. -/
def numbered (number : Nat) : List String → List String
  | [] => []
  | cause :: rest =>
      let digits := toString number
      (String.ofList (List.replicate (5 - digits.length) ' ') ++ digits ++ ": " ++ cause) ::
        numbered (number + 1) rest

/-- The causes as they are shown to a user. -/
def text (failure : Failure) : String :=
  match failure.causes with
  | [] => "Error"
  | [outermost] => "Error: " ++ outermost
  | [outermost, cause] => "Error: " ++ outermost ++ "\n\nCaused by:\n    " ++ cause
  | outermost :: causes =>
      "\n".intercalate (["Error: " ++ outermost, "", "Caused by:"] ++ numbered 0 causes)

end Failure
end Command
end ContainerBuild
