import ContainerBuild.Json.Fields

namespace ContainerBuild

/-!
# Customizations

What a site changes about every template: plugins that it takes out and plugins that it puts in.
The entries are kept as they were written.  One that cannot be understood is skipped when the
customization is applied, so reading never judges them.
-/

/-- The changes of a site, as they were written. -/
structure Customization where
  disabled : List Json
  enabled : List Json
deriving DecidableEq

/-- A plugin that a site takes out. -/
structure Disabling where
  phase : String
  name : String
deriving DecidableEq

/-- A plugin that a site puts in, with its arguments. -/
structure Enabling where
  phase : String
  name : String
  args : Members Json
deriving DecidableEq

/-- The plugin that an entry takes out: an object with names, or an array of exactly the values in
order. -/
def Disabling.ofJson? : Json → Option Disabling
  | .object members =>
      match members.lookup "plugin_type", members.lookup "plugin_name" with
      | some (.string phase), some (.string name) => some ⟨phase, name⟩
      | _, _ => none
  | .array [.string phase, .string name] => some ⟨phase, name⟩
  | _ => none

/-- The plugin that an entry puts in: an object with names, or an array of exactly the values in
order. -/
def Enabling.ofJson? : Json → Option Enabling
  | .object members =>
      match members.lookup "plugin_type", members.lookup "plugin_name",
          members.lookup "plugin_args" with
      | some (.string phase), some (.string name), some (.object args) => some ⟨phase, name, args⟩
      | _, _, _ => none
  | .array [.string phase, .string name, .object args] => some ⟨phase, name, args⟩
  | _ => none

namespace Customization

/-- The customization that changes nothing. -/
def empty : Customization := ⟨[], []⟩

/-- The names of the two lists. -/
def fieldNames : List String := ["disable_plugins", "enable_plugins"]

open Json (Answer Fault Tree)

/-- Read the entries of a list. -/
def readEntries : Tree → Except Fault (List Json) :=
  Tree.list (Tree.generic (Tree.levelLimit - 2))

/-- Ask for both lists; each is asked for by its name and its place. -/
def ask (field : String → Nat → Answer (List Json)) : Answer Customization :=
  Customization.mk <$> field "disable_plugins" 0 <*> field "enable_plugins" 1

/-- Read a customization from the tree of its text: an object with names, or an array of the lists
in order.  Either may leave lists out, and other names are skipped. -/
def ofTree : Tree → Except Fault Customization
  | .object members closed =>
      let fields : Tree.Fields := ⟨members, closed⟩
      ((fun customization _ => customization)
        <$> ask (fun name _ => fields.defaulted name readEntries [])
        <*> fields.others fieldNames Tree.skip).settle
  | .array items closed =>
      let slots : Tree.Slots := ⟨items, closed⟩
      ((fun customization _ => customization)
        <$> ask (fun _ place => slots.defaulted place readEntries [])
        <*> slots.ended fieldNames.length).settle
  | tree => tree.scalar fun _ => .error .wrongType

/-- Read a customization from its text. -/
def parse (text : String) : Except Fault Customization := (Json.Document.ofText text).read ofTree

end Customization
end ContainerBuild
