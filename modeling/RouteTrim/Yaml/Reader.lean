import RouteTrim.Value

/-!
# The reader of settings files

Settings files are YAML. The reader comes from outside, as the parser of source files does: no rule
about settings depends on how it reads a text. `RouteTrim.Yaml.Meaning` has the one that the program
runs with.
-/

set_option autoImplicit false

namespace RouteTrim.Yaml

/-- The reader of settings files. -/
class Reader where
  read : String → Except Unread Value

end RouteTrim.Yaml
