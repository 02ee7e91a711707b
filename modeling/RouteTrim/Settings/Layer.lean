import RouteTrim.Notice
import RouteTrim.OrderedMap
import RouteTrim.Settings.Build
import RouteTrim.Text.Blank

/-!
# Layers of settings

Settings are composed of layers, each put over the ones before it. A layer is a list of entries as
a data file or the environment gives them: an entry whose key is known sets that key, whatever its
value; any other entry sets nothing.
-/

set_option autoImplicit false

namespace RouteTrim.Settings

/-- The entries of a layer in the order in which they are given. -/
abbrev Layer := List (Value × Value)

/-- The settings with an entry put over them. -/
def overlayEntry (settings : Settings) (entry : Value × Value) : Settings :=
  match Key.ofValue? entry.1 with
  | some key => settings.set key entry.2
  | none => settings

/-- The settings with a layer put over them. -/
def overlay (settings : Settings) (layer : Layer) : Settings :=
  layer.foldl overlayEntry settings

/-- The keys of a layer that set nothing. -/
def unknownKeys (layer : Layer) : List Value :=
  (layer.map Prod.fst).filter fun key => (Key.ofValue? key).isNone

/-- Puts a layer over the settings, with a notice for each of its unknown keys. -/
def merge (settings : Settings) (layer : Layer) : Noted Settings := do
  (unknownKeys layer).forM fun key => Noted.tell (.unknownKey key)
  return overlay settings layer

/-! ## The environment -/

/-- Environment variables in the order in which they were set. -/
abbrev Environment := OrderedMap String String

/-- What the names of the variables that set something start with. -/
def variableStart : String := "LINKPRUNE_"

def settingsFileVariable : String := "LINKPRUNE_CONFIG"

/-- A letter in lower case, as far as names of keys go. The Kelvin sign is the one character
beyond ASCII whose lower case is an ASCII letter. -/
def lowerLetter (c : Char) : Char :=
  if c.toNat = 0x212A then 'k' else c.toLower

/-- The key that a variable sets. -/
def variableKey? (name : String) : Option Key :=
  if name = settingsFileVariable then none
  else
    (Text.dropLeading? variableStart.toList name.toList) >>= fun key =>
      Key.ofName? (String.ofList (key.map lowerLetter))

/-- The value that a variable gives to a key: a catalogue is a list with commas. -/
def variableValue (key : Key) (value : String) : Value :=
  match key with
  | .providers =>
    let names := (Text.split ',' value.toList).map Text.trim
    .list ((names.filter fun name => !name.isEmpty).map fun name => .text (String.ofList name))
  | _ => .text value

/-- The layer that the environment gives. Variables that name no key are left out. -/
def environmentLayer (environment : Environment) : Layer :=
  environment.entries.filterMap fun (name, value) =>
    (variableKey? name).map fun key => (.text key.name, variableValue key value)

end RouteTrim.Settings
