import ContainerBuild.Params.Shared
import ContainerBuild.Plugin.Template

namespace ContainerBuild

/-!
# Rules

A rule fills in arguments of one plugin of one phase.  All that it assigns is fixed before it
looks at a template, so what becomes of a plugin depends on its own entry and the rule alone.
-/

/-- What a build fills in for a plugin. -/
structure Rule where
  phase : String
  plugin : String
  /-- The arguments that are set, in order. -/
  args : Members Json
  /-- Whether a template without the plugin is refused, as soon as there is an argument to set. -/
  mandatory : Bool := false
deriving DecidableEq

namespace Rule

/-- Set the arguments of a rule one after another. -/
def assign (rule : Rule) (template : Template) : Except PluginError Template :=
  rule.args.foldlM (fun template (key, value) => template.setArg rule.phase rule.plugin key value)
    template

/-- Apply a rule.  One that is not mandatory leaves a template without its plugin alone. -/
def apply (template : Template) (rule : Rule) : Except PluginError Template :=
  if rule.mandatory || template.has rule.phase rule.plugin then rule.assign template
  else .ok template

/-! ## Phases that rules speak of -/

/-- Before the build. -/
def prebuild : String := "prebuild_plugins"

/-- The build itself. -/
def buildStep : String := "buildstep_plugins"

/-- After the build. -/
def postbuild : String := "postbuild_plugins"

/-- At the very end, whatever the outcome. -/
def exit : String := "exit_plugins"

/-! ## Parts of rules -/

/-- A string that is not empty. -/
def nonempty (value : Option String) : Option String := value.filter (· != "")

/-- A number that is not zero. -/
def nonzero (value : Option UInt64) : Option UInt64 := value.filter (· != 0)

/-- An argument with a text, if there is one. -/
def textArg (key : String) (value : Option String) : Members Json :=
  Members.optional key (value.map .string)

/-- An argument with texts, if there are any to speak of. -/
def textsArg (key : String) (value : Option (List String)) : Members Json :=
  Members.optional key (value.map Json.ofStrings)

/-- An argument with a number, if there is one. -/
def numberArg (key : String) (value : Option UInt64) : Members Json :=
  Members.optional key (value.map fun number => .ofNat number.toNat)

/-- The target, for the plugin that asks the build system about it. -/
def target (params : SharedParams) : Rule :=
  ⟨prebuild, "koji", textArg "target" params.kojiTarget, false⟩

/-- The target, for the plugin that tags the build. -/
def tagTarget (params : SharedParams) : Rule :=
  ⟨exit, "koji_tag_build", textArg "target" params.kojiTarget, false⟩

end Rule
end ContainerBuild
