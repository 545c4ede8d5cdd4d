import ContainerBuild.Files.Script
import ContainerBuild.Json.Writer
import ContainerBuild.Plugin.Basic
import ContainerBuild.Plugin.Customization
import ContainerBuild.Plugin.Error

namespace ContainerBuild

/-!
# Templates

A template lists, phase by phase, the plugins that a build runs, and comes with the customization
of its site.  No phase is listed twice, whatever the text says.  No operation adds, drops or moves
a phase, and one that fails has no new template to offer.
-/

/-- Phases with their plugins, in order.  No two have one name. -/
structure Phases where
  entries : Members (List Plugin)
  distinct : entries.names.Nodup
deriving DecidableEq

namespace Phases

/-- The phases that a sequence describes: a repeated one keeps its first place and its last
plugins. -/
def ofPairs (pairs : List (String × List Plugin)) : Phases :=
  ⟨Members.ofPairs pairs, Members.nodup_names_ofPairs pairs⟩

instance : Coe (Members (List Plugin)) Phases := ⟨ofPairs⟩

/-- Put plugins into a phase. -/
def put (phase : String) (plugins : List Plugin) (phases : Phases) : Phases :=
  ⟨Members.put phase plugins phases.entries, Members.nodup_names_put phase plugins phases.distinct⟩

end Phases

/-- The plugins of every phase, and what the site changes about them. -/
structure Template where
  listed : Phases
  customization : Customization
deriving DecidableEq

namespace Template

open Json (Fault Tree)

/-- The phases with their plugins, in order. -/
def phases (template : Template) : Members (List Plugin) := template.listed.entries

theorem distinct (template : Template) : template.phases.names.Nodup := template.listed.distinct

/-- Templates are equal if they list the same and are customized alike. -/
theorem eq_of_phases {template other : Template} (phases : template.phases = other.phases)
    (customization : template.customization = other.customization) : template = other := by
  rcases template with ⟨⟨entries, _⟩, _⟩
  rcases other with ⟨⟨others, _⟩, _⟩
  have same : entries = others := phases
  subst same
  exact congrArg _ customization

/-! ## From text -/

/-- Read phases, an object of arrays of plugins, a repeated one as often as it is written. -/
def readPhases (tree : Tree) : Except Fault (Members (List Plugin)) :=
  tree.pairs (Tree.list Plugin.ofTree)

/-- Read phases from their text. -/
def parsePhases (text : String) : Except Fault (Members (List Plugin)) :=
  (Json.Document.ofText text).read readPhases

/-- Read a template from the text of its phases, without a customization. -/
def parse (text : String) : Except Fault Template :=
  (parsePhases text).map fun pairs => ⟨.ofPairs pairs, .empty⟩

/-- The customization that a file has, where a file that cannot be read counts as empty. -/
def loadCustomization (path : String) : ExceptT PluginError Script Customization := do
  match ← Script.readFile path with
  | .ok text => (Customization.parse text).mapError (PluginError.invalid path)
  | .error _ => pure .empty

/-- Load a template from a file of a directory, and its customization, if one is named, from
another. -/
def load (directory file : String) (customization : Option String) :
    ExceptT PluginError Script Template := do
  let path := Files.join directory file
  let text ← (← Script.readFile path).mapError (PluginError.unreadable path)
  let template ← (parse text).mapError (PluginError.invalid path)
  match customization with
  | some file => do
      let customization ← loadCustomization (Files.join directory file)
      pure { template with customization }
  | none => pure template

/-! ## As text -/

/-- The phases as a value. -/
def toJson (template : Template) : Json :=
  .object (template.phases.map fun phase => (phase.1, .array (phase.2.map Plugin.toJson)))

/-- The text of a template: its phases on one line, with blanks and in ASCII. -/
def text (template : Template) : String := template.toJson.spaced

/-! ## Operations -/

/-- The plugins of a phase. -/
def phase? (template : Template) (phase : String) : Option (List Plugin) :=
  template.phases.lookup phase

/-- The plugins of a phase that has to be there. -/
def phase (template : Template) (phase : String) : Except PluginError (List Plugin) :=
  match template.phase? phase with
  | some plugins => .ok plugins
  | none => .error (.missingPhase phase)

/-- Put other plugins into a phase that is there. -/
def withPhase (template : Template) (phase : String) (plugins : List Plugin) : Template :=
  { template with listed := template.listed.put phase plugins }

/-- Take the first plugin of a name out of a phase, if there is one. -/
def remove (template : Template) (phase name : String) : Except PluginError Template := do
  let plugins ← template.phase phase
  .ok (template.withPhase phase (Plugin.removeFirst name plugins))

/-- Give every plugin of a name in a phase its arguments, or add such a plugin. -/
def add (template : Template) (phase name : String) (args : Members Json) :
    Except PluginError Template := do
  let plugins ← template.phase phase
  .ok (template.withPhase phase (Plugin.configure name args plugins))

/-- The first plugin of a name in a phase. -/
def get (template : Template) (phase name : String) : Except PluginError Plugin := do
  match Plugin.find? name (← template.phase phase) with
  | some plugin => .ok plugin
  | none => .error (.missingPlugin name)

/-- Whether a phase is there and has a plugin of a name. -/
def has (template : Template) (phase name : String) : Bool :=
  match template.get phase name with
  | .ok _ => true
  | .error _ => false

/-- Set an argument of the first plugin of a name in a phase. -/
def setArg (template : Template) (phase name key : String) (value : Json) :
    Except PluginError Template := do
  let plugins ← template.phase phase
  match Plugin.modifyFirst? name (fun plugin => plugin.setArg key value) plugins with
  | some plugins => .ok (template.withPhase phase plugins)
  | none => .error (.missingPlugin name)

/-- Set an argument if there is a value for it.  The result tells whether there was. -/
def setArgIfSome (template : Template) (phase name key : String) (value : Option Json) :
    Except PluginError (Bool × Template) :=
  match value with
  | some value => (template.setArg phase name key value).map fun changed => (true, changed)
  | none => .ok (false, template)

/-! ## Customizing -/

/-- What an operation comes to, or the template as it was if the operation fails. -/
def orUnchanged (template : Template) (result : Except PluginError Template) : Template :=
  match result with
  | .ok changed => changed
  | .error _ => template

/-- Take out the plugin that an entry names, if it can be understood and there is such a phase. -/
def disable (template : Template) (entry : Json) : Template :=
  match Disabling.ofJson? entry with
  | some plugin => template.orUnchanged (template.remove plugin.phase plugin.name)
  | none => template

/-- Put in the plugin that an entry names, if it can be understood and there is such a phase. -/
def enable (template : Template) (entry : Json) : Template :=
  match Enabling.ofJson? entry with
  | some plugin => template.orUnchanged (template.add plugin.phase plugin.name plugin.args)
  | none => template

/-- Apply the customization: first take plugins out, then put plugins in. -/
def customized (template : Template) : Template :=
  template.customization.enabled.foldl enable
    (template.customization.disabled.foldl disable template)

end Template
end ContainerBuild
