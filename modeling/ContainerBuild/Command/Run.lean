import ContainerBuild.Command.Arguments
import ContainerBuild.Command.Inspection
import ContainerBuild.Plugin.Render
import ContainerBuild.Record.Anomaly
import ContainerBuild.Record.Codec

namespace ContainerBuild
namespace Command

/-!
# Commands

What each command does: it reads files and comes to the lines it prints, or to a failure.  A
command that fails has printed nothing, except for `check`, which fails after its report.
-/

/-- A part of a command. -/
abbrev Task := ExceptT Failure Script

/-- A part that reads nothing and has printed nothing. -/
def Task.ofExcept {α : Type} (result : Except (List String) α) : Task α :=
  ExceptT.mk (pure (result.mapError fun causes => { causes }))

/-- The text of a file. -/
def loadText (path : String) : Task String := do
  Task.ofExcept ((← Script.readFile path).mapError fun cause =>
    ["reading " ++ path, cause.message])

/-- The record in a text that comes from a file. -/
def decode (path text : String) : Except (List String) Record :=
  (Record.decode text).mapError fun error => ("decoding " ++ path) :: error.causes

/-- The record in a file. -/
def load (path : String) : Task Record := do
  Task.ofExcept (decode path (← loadText path))

/-- The parameters of the record in a file. -/
def loadParams (path : String) : Task Params := do
  let record ← load path
  match ← Task.ofExcept (record.params.mapError ParamsError.causes) with
  | some params => pure params
  | none => Task.ofExcept (.error [path ++ " carries no " ++ Record.paramsVariable])

/-! ## One by one -/

/-- Show a summary of a record. -/
def runInspect (path : String) (json : Bool) : Task (List String) := do
  let record ← load path
  let rows ← inspection record
  pure (if json then [(rowsToJson rows).pretty] else rowLines rows)

/-- Report the anomalies of a record, and fail if there are any and they matter. -/
def runCheck (path : String) (strict : Bool) : Task (List String) := do
  let record ← load path
  match record.anomalies.map Anomaly.message with
  | [] => pure ["no anomalies"]
  | messages =>
      if strict then
        throw { printed := messages
                causes := [toString messages.length ++ " anomalies in " ++ path] }
      else
        pure messages

/-- The text of a record read and written anew.  The values of the two texts have to agree. -/
def reencode (path text : String) (layout : Json.Layout) : Except (List String) String := do
  let record ← decode path text
  let encoded := record.encode layout
  let asCause := Except.mapError fun fault : Json.Fault => [fault.description]
  let before ← asCause (Json.parse text)
  let after ← asCause (Json.parse encoded)
  if before.sameValue after then .ok encoded
  else .error ["re-encoded " ++ path ++ " differs from the input"]

/-- Read a record and write it anew. -/
def runRoundtrip (path : String) (pretty : Bool) : Task (List String) := do
  let text ← loadText path
  let encoded ← Task.ofExcept (reencode path text (if pretty then .pretty else .compact))
  pure [encoded]

/-- Show the parameters that a record carries, as they would be emitted. -/
def runUserParams (path : String) : Task (List String) := do
  let params ← loadParams path
  let value ← Task.ofExcept ((Json.parse params.emit).mapError fun fault => [fault.description])
  pure [value.pretty]

/-- Where the templates are: where the command line says, or else the parameters, or else the
environment. -/
def chooseDirectory (given : Option String) (params : Params) (fallback : Option String) :
    Option String :=
  given <|> params.shared.buildJsonDir <|> fallback

/-- Show the plugin configuration for the parameters that a record carries. -/
def runRenderPlugins (path : String) (directory fallback : Option String) :
    Task (List String) := do
  let params ← loadParams path
  let rendered ← (params.configure (chooseDirectory directory params fallback)).run
  let text ← Task.ofExcept (rendered.mapError fun error =>
    "rendering plugin configuration" :: error.causes)
  pure [text]

/-- Store the record of one more file. -/
def storeFile (store : Store) (path : String) : Task Store := do
  let record ← load path
  let (_, store) ← Task.ofExcept ((store.create record).mapError fun error =>
    ["storing " ++ path, error.message])
  pure store

/-- Count the records of several files by phase. -/
def runSummary (paths : List String) : Task (List String) := do
  let store ← paths.foldlM storeFile Store.empty
  pure (store.counts.entries.map fun (phase, count) => columns phase (toString count))

/-! ## The program -/

/-- The variable of the environment that says where the templates are if nothing else does. -/
def directoryVariable : String := "BUILDREC_BUILD_JSON_DIR"

/-- Do what a command says; an empty fallback directory is none. -/
def run (fallback : Option String) : Command → Task (List String)
  | .inspect file json => runInspect file json
  | .check file strict => runCheck file strict
  | .roundtrip file pretty => runRoundtrip file pretty
  | .userParams file => runUserParams file
  | .renderPlugins file directory => runRenderPlugins file directory (fallback.filter (· != ""))
  | .summary files => runSummary files

/-- What becomes of a run of the program. -/
inductive Outcome where
  | success (lines : List String)
  /-- Help is shown, the wording of which is not modelled. -/
  | help
  | failure (report : Failure)
  /-- The command line cannot be understood. -/
  | misuse
deriving DecidableEq

namespace Outcome

/-- The number that tells outcomes apart. -/
def exitCode : Outcome → Nat
  | .success _ | .help => 0
  | .failure _ => 1
  | .misuse => 2

/-- The lines that are printed, apart from help. -/
def lines : Outcome → List String
  | .success lines => lines
  | .failure report => report.printed
  | .help | .misuse => []

/-- What is printed, every line ended. -/
def output (outcome : Outcome) : String := String.join (outcome.lines.map (· ++ "\n"))

end Outcome

/-- The name and the version of the program. -/
def versionText : String := "buildrec 0.1.0"

/-- Answer a command line. -/
def answer (arguments : List String) (fallback : Option String) : Script Outcome :=
  match Request.parse arguments with
  | none => pure .misuse
  | some .version => pure (.success [versionText])
  | some .help => pure .help
  | some (.command command) => do
      match ← (command.run fallback).run with
      | .ok lines => pure (.success lines)
      | .error report => pure (.failure report)

end Command
end ContainerBuild
