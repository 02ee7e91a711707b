import RouteTrim.Graph.Pruning
import RouteTrim.Pass.Workspace
import RouteTrim.Purge.Factory

/-!
# Tree shaking

The pass that takes unused components out of a build: the purged modules leave the framework's
barrel, and every service whose controller is purged leaves the compiled root factory, if there is
one, and the barrel's list of services.
-/

set_option autoImplicit false

namespace RouteTrim.Pass

open RouteTrim.Path (WorkingFolder)
open RouteTrim.Purge
open RouteTrim.Settings (BuildConfig Provider)

variable [WorkingFolder]

/-- The text of the root factory without a service. -/
def factoryWithout (provider : Provider) (factory content : String) : String :=
  withoutController factory
    (withoutComponentFactory factory content provider.componentFactoryPath) provider.controllerPath

def barrelWithout (config : BuildConfig) (provider : Provider) (content : String) : String :=
  withoutModules config.frameworkEntryPoint (withoutClass content provider.className config)
    [provider.componentPath]

/-- Takes a service out of the root factory and the barrel. -/
def purgeProvider (config : BuildConfig) (provider : Provider) : Pass Unit := do
  let factory := config.rootFactoryModule
  if let some text := (← store).get? factory then
    setContent factory (factoryWithout provider factory text)
  let barrel := config.frameworkEntryPoint
  setContent barrel (barrelWithout config provider (← content barrel))
  tell (.providerRemoved provider.className)

/-- Takes what is purged out of the barrel and the root factory. -/
def purgeUnused (config : BuildConfig) (pruning : Pruning) : Pass Unit := do
  let barrel := config.frameworkEntryPoint
  let text ← content barrel
  let purged := pruning.purgedPaths
  tell (.purging purged.length barrel)
  setContent barrel (withoutModules barrel text purged)
  config.providers.forM fun provider =>
    if pruning.isPurged provider.controllerPath then purgeProvider config provider
    else return ()

/-- Prunes a graph and takes what is purged out of the build. -/
def optimize (config : BuildConfig) (graph : ImportGraph) : Pass Pruning := do
  let pruning := graph.unusedComponents config (ImportGraph.isEligible config)
  tell pruning.notice
  purgeUnused config pruning
  return pruning

end RouteTrim.Pass
