import ContainerBuild.Json.Fields

namespace ContainerBuild

/-!
# Plugins

A plugin of a build has a name and, it may be, arguments; whatever else its entry says is kept as
it stands.  Entries of one phase may share a name.  Most operations on a list of plugins speak of
the first of a name only.
-/

/-- An entry for a plugin. -/
structure Plugin where
  name : String
  args : Option (Members Json)
  /-- The members that are not modelled, in the order of the text. -/
  extra : Members Json
deriving DecidableEq

namespace Plugin

/-- The names that are modelled. -/
def fieldNames : List String := ["name", "args"]

/-- The entry that says no more than a name and arguments. -/
def ofArgs (name : String) (args : Members Json) : Plugin := ⟨name, some args, []⟩

/-- How deep a member of an entry may go: the entry itself lies in a phase of a template. -/
def levels : Nat := Json.Tree.levelLimit - 3

/-- Read arguments, an object. -/
def readArgs (tree : Json.Tree) : Except Json.Fault (Members Json) :=
  (tree.pairs (Json.Tree.generic (levels - 1))).map Members.ofPairs

/-- Read an entry from the tree of its text. -/
def ofTree : Json.Tree → Except Json.Fault Plugin :=
  Json.Tree.askObject fun fields =>
    Plugin.mk
      <$> fields.required "name" (Json.Tree.scalar Json.asString)
      <*> fields.optional "args" readArgs
      <*> Members.ofPairs <$> fields.others fieldNames (Json.Tree.generic levels)

/-- An entry as a value. -/
def toJson (plugin : Plugin) : Json :=
  .object <|
    [("name", .string plugin.name)] ++
    Members.optional "args" (plugin.args.map .object) ++
    plugin.extra

/-- The value of an argument. -/
def arg? (plugin : Plugin) (key : String) : Option Json := plugin.args.bind (·.lookup key)

/-- Set an argument; a plugin without arguments gets some. -/
def setArg (plugin : Plugin) (key : String) (value : Json) : Plugin :=
  { plugin with args := some (Members.put key value (plugin.args.getD [])) }

/-! ## Lists of plugins -/

/-- The first plugin of a name. -/
def find? (name : String) (plugins : List Plugin) : Option Plugin :=
  List.find? (fun plugin => plugin.name == name) plugins

/-- A list without the first plugin of a name. -/
def removeFirst (name : String) (plugins : List Plugin) : List Plugin :=
  plugins.eraseP fun plugin => plugin.name == name

/-- A list in which every plugin of a name has the given arguments.  If there is none, one is
added at the end. -/
def configure (name : String) (args : Members Json) (plugins : List Plugin) : List Plugin :=
  if plugins.any fun plugin => plugin.name == name then
    plugins.map fun plugin =>
      if plugin.name = name then { plugin with args := some args } else plugin
  else
    plugins ++ [ofArgs name args]

/-- A list in which the first plugin of a name is changed, if there is one. -/
def modifyFirst? (name : String) (change : Plugin → Plugin) : List Plugin → Option (List Plugin)
  | [] => none
  | plugin :: rest =>
      if plugin.name = name then some (change plugin :: rest)
      else (modifyFirst? name change rest).map (plugin :: ·)

end Plugin
end ContainerBuild
