import RouteTrim.Graph.Cascade
import RouteTrim.Notice
import RouteTrim.Settings.BuildConfig

/-!
# Pruning

Only the framework's components and the app's own sources may be pruned. The barrel of the framework
imports every component, which is no use of it; taking the barrel's edges away and cascading leaves
modules without importers, and those are purged. The compiled root factory makes an object of every
service that the framework provides, so a service that only the factory imports is unused as well.
A few modules are required and stay in any case.
-/

set_option autoImplicit false

namespace RouteTrim

open RouteTrim.Settings (BuildConfig Provider)

/-- The result of a pruning: the modules that stay and the ones that go, each with the importers
that it has left. -/
structure Pruning where
  retained : ImportGraph
  purged : ImportGraph
  deriving Repr

namespace Pruning

/-- The modules that go, in the order of the graph. -/
def purgedPaths (pruning : Pruning) : List String :=
  pruning.purged.keys

def isPurged (pruning : Pruning) (module : String) : Bool :=
  pruning.purged.contains module

end Pruning

namespace ImportGraph

/-- Whether a module may be pruned at all. -/
def isEligible (config : BuildConfig) (module : String) : Bool :=
  Path.isWithin module config.frameworkComponentsDir || Path.isWithin module config.srcDir

def eligiblePart (graph : ImportGraph) (eligible : String → Bool) : ImportGraph :=
  (graph.filter fun module _ => eligible module).mapValues fun module importers =>
    dropImporter module importers

def releaseController (rootFactory : String) (graph : ImportGraph) (provider : Provider) :
    ImportGraph :=
  if isOnlyImporter rootFactory (graph.importers provider.controllerPath) then
    (graph.releaseEdge provider.controllerPath rootFactory).1
  else graph

/-- Releases the user interface of a service whose controller has no importers. -/
def releaseComponent (rootFactory : String) (graph : ImportGraph) (provider : Provider) :
    ImportGraph :=
  if graph.get? provider.controllerPath = some [] then
    (graph.releaseEdge provider.componentFactoryPath rootFactory).1
  else graph

/-- The pass over the catalogue of services: first all controllers, then all user interfaces. -/
def releaseProviders (graph : ImportGraph) (config : BuildConfig) : ImportGraph :=
  let rootFactory := config.rootFactoryModule
  let graph := config.providers.foldl (releaseController rootFactory) graph
  config.providers.foldl (releaseComponent rootFactory) graph

/-- Divides a graph by whether anything still needs a module. -/
def divide (graph : ImportGraph) (required : List String) : Pruning :=
  let stays (module : String) (importers : List String) : Bool :=
    !importers.isEmpty || module ∈ required
  ⟨graph.filter stays, graph.filter fun module importers => !stays module importers⟩

/-- The graph that is left when the edges of an entry module are gone. -/
def prunedGraph (graph : ImportGraph) (config : BuildConfig) (eligible : String → Bool)
    (entry : String) (withProviders : Bool) : ImportGraph :=
  let graph := ((graph.eligiblePart eligible).cascadeFrom entry).1
  if withProviders then graph.releaseProviders config else graph

/-- Prunes what is out of use once the edges of an entry module are gone. -/
def prune (graph : ImportGraph) (config : BuildConfig) (eligible : String → Bool)
    (entry : String) (withProviders : Bool) : Pruning :=
  (graph.prunedGraph config eligible entry withProviders).divide config.requiredModules

/-- Prunes from the framework's barrel, services included. -/
def unusedComponents (graph : ImportGraph) (config : BuildConfig) (eligible : String → Bool) :
    Pruning :=
  graph.prune config eligible config.frameworkEntryPoint true

end ImportGraph

def Pruning.notice (pruning : Pruning) : Notice :=
  .pruned (pruning.retained.size + pruning.purged.size) pruning.retained.size pruning.purged.size

end RouteTrim
