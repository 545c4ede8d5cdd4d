import ContainerBuild.Command.Run

namespace ContainerBuild

/-!
# The program

The outer layer: files, the environment and the streams of the machine.
-/

/-- The number of an error of the operating system, which may come with either sign. -/
def errorNumber (code : UInt32) : UInt32 := min code (0 - code)

/-- What an error of the machine says about a file. -/
def fileError (error : IO.Error) : FileError :=
  match error with
  | .noFileOrDirectory .. => .notFound
  | .permissionDenied .. => .permissionDenied
  | .inappropriateType _ code _ =>
      if errorNumber code = 20 then .notADirectory else .isADirectory
  | .invalidArgument _ code _ =>
      if errorNumber code = 36 then .nameTooLong else .other (toString error)
  | .userError _ => .notText
  | error => .other (toString error)

/-- Run a script on the files of the machine. -/
def Script.perform {α : Type} : Script α → IO α
  | .done value => pure value
  | .read path next => do
      let text ← try
          let text ← IO.FS.readFile path
          pure (.ok text)
        catch error =>
          pure (.error (fileError error))
      (next text).perform

/-- Answer a command line: print what there is to print, complain where complaints go, and tell the
outcomes apart by a number. -/
def serve (arguments : List String) : IO UInt32 := do
  let fallback ← IO.getEnv Command.directoryVariable
  let outcome ← (Command.answer arguments fallback).perform
  IO.print outcome.output
  match outcome with
  | .failure report => IO.eprintln report.text
  | .success _ | .help | .misuse => pure ()
  return UInt32.ofNat outcome.exitCode

end ContainerBuild

/-- Answer the command line of the process. -/
def main (arguments : List String) : IO UInt32 := ContainerBuild.serve arguments
