import ContainerBuild.Params.Basic
import ContainerBuild.Record.Basic

namespace ContainerBuild
namespace Record

/-!
# The parameters that a record carries

A build in a builder image has its parameters as a payload in its environment.
-/

/-- The variable that carries the parameters. -/
def paramsVariable : String := "USER_PARAMS"

/-- The payload of the parameters. -/
def paramsText? (record : Record) : Option String :=
  record.spec.strategy.custom.bind (·.envValue? paramsVariable)

/-- The parameters, if there are any. -/
def params (record : Record) : Except ParamsError (Option Params) :=
  match record.paramsText? with
  | none => .ok none
  | some text => (Params.load text).map some

/-- The tag of the image, as the parameters have it. -/
def imageTag (record : Record) : Except ParamsError (Option String) :=
  record.params.map fun params => params.bind (·.shared.imageTag)

/-- Change the custom strategy of a record. -/
def withCustom (record : Record) (custom : CustomStrategy) : Record :=
  { record with spec := { record.spec with
    strategy := { record.spec.strategy with custom := some custom } } }

/-- Store parameters as a payload. -/
def setParams (record : Record) (params : Params) : Except ParamsError Record :=
  match record.spec.strategy.custom with
  | some custom => .ok (record.withCustom (custom.setEnv paramsVariable params.emit))
  | none => .error .notCustomStrategy

/-- Spell the payload of the parameters anew, without a change of what it says.  The result tells
whether anything changed. -/
def normalizeParams (record : Record) (style : Json.PayloadStyle) :
    Except ParamsError (Bool × Record) :=
  match record.spec.strategy.custom, record.paramsText? with
  | some custom, some text => do
      let value ← (ReadError.inField paramsVariable (Json.parse text)).mapError .unreadable
      let spelled := value.payload style
      if spelled = text then
        .ok (false, record)
      else
        .ok (true, record.withCustom (custom.setEnv paramsVariable spelled))
  | _, _ => .ok (false, record)

end Record
end ContainerBuild
