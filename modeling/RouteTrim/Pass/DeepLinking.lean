import RouteTrim.Pass.Workspace
import RouteTrim.Route.Discovery
import RouteTrim.Route.Factory
import RouteTrim.Route.Registry
import RouteTrim.Route.RegistryReader
import RouteTrim.Route.Site

/-!
# Deep linking

The pass that writes the registry of a project's routes into its place: the registration site of
the root descriptor, or in compiled mode the registry field of the root factory. A registry that
stands there already is replaced, with a warning.
-/

set_option autoImplicit false

namespace RouteTrim.Pass

open RouteTrim.Route
open RouteTrim.Path (WorkingFolder)
open RouteTrim.Settings (BuildConfig)
open RouteTrim.Tree (Parser)

variable [WorkingFolder] [Parser]

/-- The result of deep linking. -/
structure DeepLinks where
  links : List Link
  registry : String
  target : String
  replaced : Bool

/-- The number of links in a registry text, if it is one. -/
def linkCount? (registry : String) : Option Nat :=
  match readRegistry registry with
  | .ok links => some links.length
  | .error _ => none

/-- Warns of the registry that the registration site holds, and tells whether there is one. -/
def warnOfExisting (config : BuildConfig) (content target : String) : Pass Bool := do
  match ← existingRegistry content config target with
  | some existing =>
    tell (.registryReplaced target (linkCount? existing) config.rootMethodName)
    return true
  | none => return false

/-- Writes the registry of some links into its place. -/
def updateSite (config : BuildConfig) (links : List Link) : Pass DeepLinks := do
  let registry := registryText links
  let target := config.registrationTargetPath
  let text ← content target
  let (patched, replaced) ←
    if config.compiledMode then
      pure (← patchFactory text registry config target, false)
    else do
      let replaced ← warnOfExisting config text target
      pure (← patchSite text registry config target, replaced)
  setContent target patched
  tell (.linksWritten links.length target)
  return { links, registry, target, replaced }

def findLinks (config : BuildConfig) : Pass (List Link) := do
  ofNoted (projectRoutes (← store) config)

/-- Finds the links of the project and writes their registry. -/
def deepLink (config : BuildConfig) : Pass DeepLinks := do
  updateSite config (← findLinks config)

end RouteTrim.Pass
