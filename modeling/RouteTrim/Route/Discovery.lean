import RouteTrim.Notice
import RouteTrim.Route.Descriptor
import RouteTrim.Route.Extract

/-!
# The routes of a project

Every page source below the app's source directory is read for routes, in the order of the store,
and each route is joined with its module. Declaration files, descriptors and compiled factories
declare no routes. A file that does not contain the decorator's name is not parsed.
-/

set_option autoImplicit false

namespace RouteTrim.Route

open RouteTrim.Path (WorkingFolder)
open RouteTrim.Settings (BuildConfig)
open RouteTrim.Text (endsWith occursIn)
open RouteTrim.Tree (Parser)

variable [WorkingFolder] [Parser]

/-- Whether a file may declare routes. -/
def isPageSource (config : BuildConfig) (path : String) : Bool :=
  !endsWith ".d.ts".toList path.toList
    && !endsWith config.descriptorSuffix.toList path.toList
    && !occursIn config.compiledFactoryMarker.toList path.toList
    && Path.isWithin path config.srcDir

/-- The files that may declare routes, in the order of the store. -/
def pageSources (store : FileStore) (config : BuildConfig) : List String :=
  (store.pathsEnding [".ts"]).filter (isPageSource config)

/-- The links of one page source. -/
def pageLinks (store : FileStore) (config : BuildConfig) (path : String) :
    Except Failure (List Link) := do
  let content ← store.content path
  if !occursIn config.routeDecorator.toList content.toList then return []
  let entries ← extract content path config
  entries.mapM (Entry.resolve config store)

/-- The links of a project. One fault anywhere leaves none. -/
def projectLinks (store : FileStore) (config : BuildConfig) : Except Failure (List Link) := do
  let links := (← (pageSources store config).mapM (pageLinks store config)).flatten
  checkLinks links
  return links

/-- The links of a project, with a notice of their number. -/
def projectRoutes (store : FileStore) (config : BuildConfig) : Noted (List Link) := do
  let links ← projectLinks store config
  Noted.tell (.routesFound links.length config.srcDir)
  return links

end RouteTrim.Route
