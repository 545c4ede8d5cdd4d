namespace ContainerBuild

/-!
# Command lines

A command line names a command, and then its files and switches in any order.  A switch begins
with two dashes; some take a value, after an equals sign or as the next argument.  After an
argument that is just two dashes everything is a file.

Arguments are gone through from left to right.  A request for help or for the version is answered
where it stands, so it counts unless something before it is wrong.
-/

/-- What the program is asked to do. -/
inductive Command where
  | inspect (file : String) (json : Bool)
  | check (file : String) (strict : Bool)
  | roundtrip (file : String) (pretty : Bool)
  | userParams (file : String)
  | renderPlugins (file : String) (directory : Option String)
  | summary (files : List String)
deriving DecidableEq

namespace Command

/-- What a command line asks for. -/
inductive Request where
  | command (command : Command)
  | help
  | version
deriving DecidableEq

/-- Why a command line is not followed to its end. -/
inductive Stop where
  /-- The command line asks for help. -/
  | help
  /-- The command line cannot be understood. -/
  | misuse
deriving DecidableEq

/-- Which arguments a command takes. -/
structure Usage where
  /-- The switches without a value. -/
  flags : List String := []
  /-- The switches with a value. -/
  options : List String := []
  /-- Whether there may be more than one file. -/
  severalFiles : Bool := false

/-- The arguments that a command is given. -/
structure Arguments where
  files : List String := []
  flags : List String := []
  options : List (String × String) := []
deriving DecidableEq

namespace Arguments

/-- Take one more file. -/
def takeFile (usage : Usage) (arguments : Arguments) (file : String) : Except Stop Arguments :=
  if file = "" ∨ (¬ usage.severalFiles ∧ arguments.files ≠ []) then .error .misuse
  else .ok { arguments with files := arguments.files ++ [file] }

/-- Take a switch without a value; it may be given once. -/
def takeFlag (arguments : Arguments) (name : String) : Except Stop Arguments :=
  if name ∈ arguments.flags then .error .misuse
  else .ok { arguments with flags := arguments.flags ++ [name] }

/-- Take a switch with its value; it may be given once. -/
def takeOption (arguments : Arguments) (name value : String) : Except Stop Arguments :=
  if value = "" ∨ (arguments.options.lookup name).isSome then .error .misuse
  else .ok { arguments with options := arguments.options ++ [(name, value)] }

/-- Whether an argument can be a value: it is no switch, or a dash alone. -/
def isValue (argument : String) : Bool :=
  argument = "-" ∨ argument.toList.head? ≠ some '-'

/-- The name of a switch, and the value after an equals sign if there is one. -/
def splitValue (switch : List Char) : String × Option String :=
  match switch.span (· != '=') with
  | (name, _ :: value) => (String.ofList name, some (String.ofList value))
  | (name, []) => (String.ofList name, none)

/-- Take all arguments from left to right. -/
def take (usage : Usage) (arguments : Arguments) : List String → Except Stop Arguments
  | [] => .ok arguments
  | argument :: rest =>
      match argument.toList with
      | ['-'] => do take usage (← arguments.takeFile usage argument) rest
      | ['-', '-'] => rest.foldlM (fun arguments file => arguments.takeFile usage file) arguments
      | '-' :: '-' :: switch =>
          match splitValue switch with
          | (name, some value) =>
              if name ∈ usage.options then do take usage (← arguments.takeOption name value) rest
              else .error .misuse
          | (name, none) =>
              if name = "help" then .error .help
              else if name ∈ usage.flags then do take usage (← arguments.takeFlag name) rest
              else if name ∈ usage.options then
                match rest with
                | value :: rest =>
                    if isValue value then do
                      take usage (← arguments.takeOption name value) rest
                    else
                      .error .misuse
                | [] => .error .misuse
              else .error .misuse
      | '-' :: 'h' :: _ => .error .help
      | '-' :: _ => .error .misuse
      | _ => do take usage (← arguments.takeFile usage argument) rest

end Arguments

/-! ## Commands by name -/

/-- Read a command about one file. -/
def readOne (usage : Usage) (make : String → Arguments → Command) (arguments : List String) :
    Except Stop Command := do
  let arguments ← ({} : Arguments).take usage arguments
  match arguments.files with
  | [file] => .ok (make file arguments)
  | _ => .error .misuse

/-- Read a command about one file with one switch. -/
def readFlagged (flag : String) (make : String → Bool → Command) (arguments : List String) :
    Except Stop Command :=
  readOne { flags := [flag] } (fun file given => make file (given.flags.contains flag)) arguments

/-- The switch that says where the templates are. -/
def directoryOption : String := "build-json-dir"

/-- Read a command about several files. -/
def readSeveral (make : List String → Command) (arguments : List String) :
    Except Stop Command := do
  let arguments ← ({} : Arguments).take { severalFiles := true } arguments
  if arguments.files.isEmpty then .error .misuse else .ok (make arguments.files)

/-- The commands by name, each with how its arguments are read. -/
def table : List (String × (List String → Except Stop Command)) := [
  ("inspect", readFlagged "json" .inspect),
  ("check", readFlagged "strict" .check),
  ("roundtrip", readFlagged "pretty" .roundtrip),
  ("user-params", readOne {} fun file _ => .userParams file),
  ("render-plugins", readOne { options := [directoryOption] } fun file given =>
    .renderPlugins file (given.options.lookup directoryOption)),
  ("summary", readSeveral .summary)]

/-- Read a request for help about the program or about one of its commands. -/
def readHelp : List String → Except Stop Request
  | [] => .ok .help
  | ["help"] => .ok .help
  | [name] => if (table.lookup name).isSome then .ok .help else .error .misuse
  | _ => .error .misuse

/-- Read a command line; none if it cannot be understood. -/
def Request.parse (arguments : List String) : Option Request :=
  match arguments with
  | [] => none
  | name :: rest =>
      let outcome : Except Stop Request := match name.toList with
        | '-' :: 'V' :: _ => .ok .version
        | '-' :: 'h' :: _ => .ok .help
        | _ =>
            if name = "--version" then .ok .version
            else if name = "--help" then .ok .help
            else if name = "help" then readHelp rest
            else match table.lookup name with
              | some read => (read rest).map .command
              | none => .error .misuse
      match outcome with
      | .ok request => some request
      | .error .help => some .help
      | .error .misuse => none

end Command
end ContainerBuild
