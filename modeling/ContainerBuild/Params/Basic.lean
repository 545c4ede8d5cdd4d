import ContainerBuild.Json.Writer
import ContainerBuild.Params.Image
import ContainerBuild.Params.Sources
import ContainerBuild.Text.Blank

namespace ContainerBuild

/-!
# Build parameters as a payload

The parameters of a build travel as a payload, an object whose `kind` says which kind of build
they are for; a payload without one is for an image build.  Loading ignores what the kind does
not name.  Emitting leaves out what says nothing (null, `false`, zero, and what is empty), adds
the kind and sorts by name.
-/

/-- The parameters of a build. -/
inductive Params where
  | image (params : ImageParams)
  | sources (params : SourcesParams)
deriving DecidableEq

namespace Params

/-- The member that has the kind. -/
def kindKey : String := "kind"

/-- The name of the kind of parameters. -/
def kind : Params → String
  | .image _ => ImageParams.kind
  | .sources _ => SourcesParams.kind

/-- The shared parameters. -/
def shared : Params → SharedParams
  | .image params => params.shared
  | .sources params => params.shared

/-- Change the shared parameters. -/
def modifyShared (change : SharedParams → SharedParams) : Params → Params
  | .image params => .image { params with shared := change params.shared }
  | .sources params => .sources { params with shared := change params.shared }

/-- All parameters by name. -/
def toMembers : Params → Members Json
  | .image params => params.toMembers
  | .sources params => params.toMembers

/-! ## Loading -/

/-- The name of the kind that a payload says it has. -/
def kindOf (members : Members Json) : Except ParamsError String :=
  match members.lookup kindKey with
  | none => .ok ImageParams.kind
  | some (.string kind) => .ok kind
  | some other => .error (.unknownKind other.compact)

/-- Load parameters from the members of a payload.  Taking the kind out moves the last member
into its place, and faults are reported in that order. -/
def ofMembers (members : Members Json) : Except ParamsError Params := do
  let kind ← kindOf members
  let rest := members.takeOut kindKey
  if kind = ImageParams.kind then
    .ok (.image (← ImageParams.ofMembers rest))
  else if kind = SourcesParams.kind then
    .ok (.sources (← SourcesParams.ofMembers rest))
  else
    .error (.unknownKind kind)

/-- Load parameters from a payload; a blank one says nothing and is for an image build. -/
def load (text : String) : Except ParamsError Params := do
  if (Text.trimStart text.toList).isEmpty then
    .ok (.image .default)
  else
    match ← (ReadError.ofFault (Json.parse text)).mapError .unreadable with
    | .object members => ofMembers members
    | _ => .error .notAnObject

/-! ## Emitting -/

/-- The object that a payload holds. -/
def payload (params : Params) : Json :=
  .object ((params.toMembers.filter fun member => member.2.isTruthy) ++
    [(kindKey, .string params.kind)])

/-- Emit parameters as a payload. -/
def emit (params : Params) : String := params.payload.payload .spaced

/-! ## Checking -/

/-- Put a name before the first one that is not less. -/
def placeName (name : String) : List String → List String
  | [] => [name]
  | other :: rest => if other < name then other :: placeName name rest else name :: other :: rest

/-- The required parameters that have no value, sorted. -/
def missing (params : Params) : List String :=
  let names := match params with
    | .image params => params.missing
    | .sources params => params.shared.missing
  names.foldr placeName []

/-- Check that every required parameter has a value. -/
def validate (params : Params) : Except ParamsError Unit :=
  match params.missing with
  | [] => .ok ()
  | names => .error (.missing names)

/-- The node selectors: auto, explicit, isolated, platform, scratch. -/
def selectors : Params → List (Option NodeSelector)
  | .image params =>
      [params.autoSelector, params.explicitSelector, params.isolatedSelector,
        params.platformSelector, params.scratchSelector]
  | .sources _ => []

/-- Equality of what parameters say: the order of members of generic values does not count. -/
def sameValue (a b : Params) : Bool :=
  a.kind == b.kind && (Json.object a.toMembers).sameValue (.object b.toMembers) &&
    a.selectors == b.selectors

end Params
end ContainerBuild
