import ContainerBuild.Json.Fields
import ContainerBuild.Params.Shared

namespace ContainerBuild

/-!
# Settings of a cluster

What a cluster prescribes for the builds it runs.  Settings are read straight from their text.
They may be an object, with names, or an array of the values in order; either may leave
settings out, and names that are not settings are skipped.
-/

/-- What a cluster prescribes. -/
structure Settings where
  /-- Used when a request does not say what to build in. -/
  buildFrom : Option String
  /-- In hours. -/
  orchestratorDeadline : Option UInt32
  /-- In hours. -/
  workerDeadline : Option UInt32
  reactorConfigMap : Option String
  /-- Used when a request does not say whether it is for scratch. -/
  scratch : Option Bool
  autoSelector : NodeSelector
  explicitSelector : NodeSelector
  isolatedSelector : NodeSelector
  scratchSelector : NodeSelector
  platformSelectors : Dict String NodeSelector
deriving DecidableEq

namespace Settings

/-- Settings that prescribe nothing. -/
def default : Settings :=
  ⟨none, none, none, none, none, .empty, .empty, .empty, .empty, .empty⟩

/-- The names of the settings, in order. -/
def fieldNames : List String :=
  ["build_from", "orchestrator_deadline", "worker_deadline", "reactor_config_map", "scratch",
    "auto_build_node_selector", "explicit_build_node_selector", "isolated_build_node_selector",
    "scratch_build_node_selector", "platform_node_selectors"]

open Json (Answer Fault Tree)

/-- Read a node selector. -/
def readSelector : Tree → Except Fault NodeSelector := Tree.dict (Tree.scalar Json.asString)

/-- Ask for all settings; each is asked for by its name and its place, with what it is if it is
left out. -/
def ask (field : {α : Type} → String → Nat → (Tree → Except Fault α) → α → Answer α) :
    Answer Settings :=
  Settings.mk
    <$> field "build_from" 0 (Tree.orNull (Tree.scalar Json.asString)) none
    <*> field "orchestrator_deadline" 1 (Tree.orNull (Tree.scalar Json.asUInt32)) none
    <*> field "worker_deadline" 2 (Tree.orNull (Tree.scalar Json.asUInt32)) none
    <*> field "reactor_config_map" 3 (Tree.orNull (Tree.scalar Json.asString)) none
    <*> field "scratch" 4 (Tree.orNull (Tree.scalar Json.asBool)) none
    <*> field "auto_build_node_selector" 5 readSelector .empty
    <*> field "explicit_build_node_selector" 6 readSelector .empty
    <*> field "isolated_build_node_selector" 7 readSelector .empty
    <*> field "scratch_build_node_selector" 8 readSelector .empty
    <*> field "platform_node_selectors" 9 (Tree.dict readSelector) .empty

/-- Read settings from the tree of their text. -/
def ofTree : Tree → Except Fault Settings
  | .object members closed =>
      let fields : Tree.Fields := ⟨members, closed⟩
      ((fun settings _ => settings)
        <$> ask (fun name _ read default => fields.defaulted name read default)
        <*> fields.others fieldNames Tree.skip).settle
  | .array items closed =>
      let slots : Tree.Slots := ⟨items, closed⟩
      ((fun settings _ => settings)
        <$> ask (fun _ place read default => slots.defaulted place read default)
        <*> slots.ended fieldNames.length).settle
  | tree => tree.scalar fun _ => .error .wrongType

/-- Read settings from their text. -/
def parse (text : String) : Except Fault Settings := (Json.Document.ofText text).read ofTree

end Settings
end ContainerBuild
