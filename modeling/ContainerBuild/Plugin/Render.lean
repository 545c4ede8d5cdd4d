import ContainerBuild.Params.Basic
import ContainerBuild.Plugin.ImageRules
import ContainerBuild.Plugin.SourcesRules

namespace ContainerBuild
namespace Params

/-!
# The plugin configuration of a build

A build takes the template of its kind, applies the customization of the site and then its rules.
Parameters that are not complete are refused before anything else.
-/

/-- What a build fills in, in order. -/
def rules : Params → List Rule
  | .image params => params.rules
  | .sources params => params.rules

/-- The file that has the template of a build. -/
def templateFile : Params → String
  | .image params => params.templateFile
  | .sources params => params.templateFile

/-- The file that has the customization for a build, if it takes one. -/
def customizationFile : Params → Option String
  | .image params => params.customizeConf
  | .sources _ => none

/-- Refuse parameters that are not complete. -/
def ensureComplete (params : Params) : Except PluginError Unit :=
  params.validate.mapError PluginError.params

/-- Fill a template in. -/
def fill (params : Params) (template : Template) : Except PluginError Template := do
  params.ensureComplete
  params.rules.foldlM Rule.apply template.customized

/-- Fill a template in, as text. -/
def render (params : Params) (template : Template) : Except PluginError String :=
  (params.fill template).map Template.text

/-- The directory of the templates: the given one, or else the one that the parameters name. -/
def templateDirectory (params : Params) (directory : Option String) : Except PluginError String :=
  match directory <|> params.shared.buildJsonDir with
  | some directory => .ok directory
  | none => .error .noDirectory

/-- The plugin configuration of a build, as text, from the templates of a directory. -/
def configure (params : Params) (directory : Option String) :
    ExceptT PluginError Script String := do
  params.ensureComplete
  let directory ← params.templateDirectory directory
  let template ← Template.load directory params.templateFile params.customizationFile
  params.render template

end Params
end ContainerBuild
