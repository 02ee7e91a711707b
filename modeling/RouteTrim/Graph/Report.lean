import RouteTrim.Failure
import RouteTrim.Graph.Basic
import RouteTrim.Path.Basic

/-!
# Dependency reports

The bundler's report comes in two shapes. The plain one maps each module to the list of its
importers. The other one has a list `modules` of objects that name a module, by `identifier` or
else by `name`, and give the reasons for which it is in the bundle, each with the `moduleIdentifier`
of an importer; entries that name nothing are passed over. There, names carry the loaders that a
module went through, each followed by `!`.

All names are brought to their normal spelling. A module that is reported again keeps its place and
takes its last importers.
-/

set_option autoImplicit false

namespace RouteTrim.Report

/-- A name without the loaders in front of it. -/
def stripLoader (identifier : String) : String :=
  String.ofList (Text.afterLast '!' identifier.toList)

def fieldOf (name : String) : Value → Except Failure Value
  | .map entries => .ok ((Value.field? name entries).getD .null)
  | _ => .error .noSuchField

/-- The items that a value is walked through: none if it counts as not given. Texts and maps are
walked through by characters and keys, which are texts. -/
def itemsOf (value : Value) : Except Failure (List Value) :=
  if value.isTruthy then
    match value with
    | .list items => .ok items
    | .text s => .ok (s.toList.map fun c => .text (String.singleton c))
    | .map entries => .ok (entries.map Prod.fst)
    | _ => .error .notIterable
  else .ok []

def moduleOf : Value → Except Failure String
  | .text name => .ok (Path.normalize (stripLoader name))
  | _ => .error .noSuchField

/-- The importer that a reason names, if it names one. -/
def importerOf (reason : Value) : Except Failure (Option String) := do
  let importer ← fieldOf "moduleIdentifier" reason
  if importer.isTruthy then return some (← moduleOf importer) else return none

/-- The module that an entry of a report names and its importers. -/
def readModule (entry : Value) : Except Failure (Option (String × List String)) := do
  let identifier ← fieldOf "identifier" entry
  let identifier ← if identifier.isTruthy then pure identifier else fieldOf "name" entry
  if !identifier.isTruthy then return none
  let reasons ← itemsOf (← fieldOf "reasons" entry)
  let importers ← reasons.mapM importerOf
  return some (← moduleOf identifier, (importers.filterMap id).eraseDups)

def readModules (modules : List Value) : Except Failure ImportGraph := do
  let entries ← modules.mapM readModule
  return .ofList (entries.filterMap id)

/-- The importers of a module in the plain shape. -/
def readImporters (entry : Value × Value) : Except Failure (String × List String) :=
  let module := entry.1.display
  match entry.2 with
  | .list items =>
    .ok (Path.normalize module, (items.map fun item => Path.normalize item.display).eraseDups)
  | other => .error (.importersNotList module other.typeName)

/-- The graph of a report. -/
def read : Value → Except Failure ImportGraph
  | .map entries =>
    match Value.field? "modules" entries with
    | some (.list modules) => readModules modules
    | _ => .ofList <$> entries.mapM readImporters
  | _ => .error .graphNotObject

end RouteTrim.Report
