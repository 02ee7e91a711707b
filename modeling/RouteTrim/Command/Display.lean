import RouteTrim.Graph.Pruning
import RouteTrim.Json.Reader
import RouteTrim.Route.Entry
import RouteTrim.Text.Markup
import RouteTrim.Text.Search

/-!
# What commands show

Messages, tables and panels in the console's markup. Text that comes from the project is escaped,
so that it shows as it is.

Not every console shows everything: one that writes ASCII has no check mark, and none has a
character for a surrogate without a partner. What a console shows comes from outside (`Console`).
-/

set_option autoImplicit false

namespace RouteTrim.Command

open RouteTrim.Route (Link)

/-- Something on the console. -/
inductive Display where
  | message (markup : String)
  | table (title : String) (headers : List String) (rows : List (List String))
  | panel (title border body : String)
  deriving DecidableEq, Repr

/-- A text as markup that shows it unchanged. -/
def escaped (text : String) : String :=
  String.ofList (Text.escapeMarkup text.toList)

def styled (style text : String) : String :=
  "[" ++ style ++ "]" ++ text ++ "[/" ++ style ++ "]"

namespace Display

/-- A message that something was done. -/
def success (text : String) : Display :=
  message (styled "bold green" "✓" ++ " " ++ escaped text)

/-- A message that something failed. -/
def failure (text : String) : Display :=
  message (styled "bold red" "✗" ++ " " ++ escaped text)

/-- A message to take note of. -/
def warning (text : String) : Display :=
  message (styled "bold yellow" "⚠" ++ " " ++ escaped text)

def titled (title border body : String) : Display :=
  panel (styled "bold" title) border body

def linkRow (link : Link) : List String :=
  [escaped link.name,
    (link.segment.map escaped).getD (styled "dim" "null"),
    styled (if link.priority = "high" then "yellow" else "white") link.priority,
    escaped (", ".intercalate link.history),
    escaped link.loadChildren]

/-- The table of links. -/
def links (items : List Link) : Display :=
  table "Deep Links" ["Name", "Segment", "Priority", "Default History", "Load Children"]
    (items.map linkRow)

def registry (text : String) : Display :=
  titled "Registry" "cyan" text

def listedModules : Nat := 50

/-- The numbers of modules that stay and go. -/
def pruningPanel (pruning : Pruning) : Display :=
  titled "Tree Shaking" (if pruning.purgedPaths.isEmpty then "cyan" else "green")
    (styled "bold" "Retained:" ++ " " ++ toString pruning.retained.size ++ "\n"
      ++ styled "bold" "Purged:" ++ " " ++ toString pruning.purged.size)

/-- The table of the modules that go; of many only the first ones are listed. -/
def purgedTable (pruning : Pruning) : Display :=
  let rows := (pruning.purgedPaths.take listedModules).map fun module => [escaped module]
  let more := pruning.purged.size - listedModules
  table "Purged Modules" ["Module"]
    (if more = 0 then rows
      else rows ++ [[styled "dim" ("... " ++ toString more ++ " more")]])

def pruningResult (pruning : Pruning) : List Display :=
  if pruning.purgedPaths.isEmpty then [pruningPanel pruning]
  else [pruningPanel pruning, purgedTable pruning]

/-- The result of writing a registry: whether another one stood in its place, and the files. -/
def linkingResult (target : String) (replaced : Bool) (written : List String) : List Display :=
  let what := if written.isEmpty then "nothing (already up to date)" else ", ".intercalate written
  (if replaced then [warning ("Replaced an existing deep link config in " ++ target)] else [])
    ++ [success ("Updated " ++ what)]

/-- The texts of something on the console. -/
def texts : Display → List String
  | message markup => [markup]
  | table title headers rows => title :: headers ++ rows.flatten
  | panel title border body => [title, border, body]

end Display

/-- The console that commands show things on. -/
class Console where
  /-- Whether it has characters for something. -/
  shows : Display → Bool

/-- A console that shows every character, which leaves out those that stand for surrogates. -/
instance wideConsole : Console where
  shows item := item.texts.all fun text => !text.toList.any Json.isPrivateStandIn

end RouteTrim.Command
