import ApiTypes.Json.Basic

/-!
The settings of a generation and their JSON form. Any value is taken for a setting; whether it
counts as true decides.
-/

namespace ApiTypes

structure FormatterOptions where
  enabled : Json := .bool false
  printWidth : Json := .int 100
  command : Json := .array [.string "npx", .string "--no-install", .string "prettier"]
  deriving Inhabited

namespace FormatterOptions

def set (options : FormatterOptions) (name : String) (value : Json) :
    Except Malformed FormatterOptions :=
  if name = "enabled" then .ok { options with enabled := value }
  else if name = "print_width" then .ok { options with printWidth := value }
  else if name = "command" then .ok { options with command := value }
  else .error .option

def ofMembers (members : Members) : Except Malformed FormatterOptions :=
  members.foldlM (fun options (name, value) => options.set name value) {}

end FormatterOptions

inductive FormatterSetting where
  | options (options : FormatterOptions)
  /-- A value that is no table of options. -/
  | other (value : Json)
  /-- Nothing, since the settings were replaced as a whole. -/
  | absent
  deriving Inhabited

structure Settings where
  emitEnums : Json := .bool false
  generationComment : Json := .bool true
  formatter : FormatterSetting := .options {}
  /-- Whether the settings still have a JSON form. -/
  exportable : Bool := true
  deriving Inhabited

namespace Settings

/-- The settings that a table replaces all others by. -/
def replaced (members : Members) : Settings where
  emitEnums := (members.lookup "emit_enums").getD (.bool false)
  generationComment := (members.lookup "add_generation_comment").getD (.bool true)
  formatter := ((members.lookup "formatter").map FormatterSetting.other).getD .absent
  exportable := !Members.has members "to_dict"

def setFormatter (settings : Settings) : Json → Except Malformed Settings
  | .object members => do
    let options ← FormatterOptions.ofMembers members
    return { settings with formatter := .options options }
  | value =>
    match settings.formatter with
    | .absent => .ok settings
    | _ => .ok { settings with formatter := .other value }

/-- The settings with one set. Unknown names are passed over. A few names reach behind the
settings: one replaces them all, one takes their JSON form away, and two cannot be set. -/
def set (settings : Settings) (name : String) (value : Json) : Except Malformed Settings :=
  if name = "emit_enums" then .ok { settings with emitEnums := value }
  else if name = "add_generation_comment" then .ok { settings with generationComment := value }
  else if name = "formatter" then settings.setFormatter value
  else if name = "to_dict" then .ok { settings with exportable := false }
  else if name = "__dict__" then
    match value with
    | .object members => .ok (replaced members)
    | _ => .error .assignment
  else if name = "__class__" then .error .assignment
  else if name = "__weakref__" then .error .readOnly
  else .ok settings

/-- The settings of a JSON object: its members are set in order, over the default ones. -/
def ofJson (value : Json) : Except Malformed Settings := do
  let members ← value.members
  members.foldlM (fun settings (name, value) => settings.set name value) {}

def formatterOptions (settings : Settings) : Except Malformed FormatterOptions :=
  match settings.formatter with
  | .options options => .ok options
  | _ => .error .members

def withFormatting (settings : Settings) : Except Malformed Settings := do
  let options ← settings.formatterOptions
  return { settings with formatter := .options { options with enabled := .bool true } }

/-- The settings as a JSON object. The command is written as the list of its elements. -/
def toJson (settings : Settings) : Except Malformed Json :=
  if !settings.exportable then .error .call
  else do
    let options ← settings.formatterOptions
    let command ← options.command.elements
    return .object [("emit_enums", settings.emitEnums),
      ("add_generation_comment", settings.generationComment),
      ("formatter", .object [("enabled", options.enabled), ("print_width", options.printWidth),
        ("command", .array command)])]

end Settings

end ApiTypes
