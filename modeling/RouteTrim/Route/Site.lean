import RouteTrim.Route.Decoration
import RouteTrim.Settings.BuildConfig

/-!
# The registration site

The framework reads the registry from the third argument of its root method, called in the `imports`
of the root descriptor's registrar class. The site is found by three searches, each of which must
find exactly one thing: the annotation, its `imports` option, the call. Only the argument's own
range is replaced, so every other character of the file stays.
-/

set_option autoImplicit false

namespace RouteTrim.Route

open RouteTrim.Settings (BuildConfig)
open RouteTrim.Tree (Node Source Parser)

/-- The one element of a list. -/
def exactlyOne {α : Type} (what path : String) : List α → Except Failure α
  | [a] => .ok a
  | found => .error (.cardinality what 1 found.length path)

def registrarOptions (source : Source) (config : BuildConfig) : Except Failure Node := do
  let registrar := config.registrarDecorator
  let classes := annotatedClasses source registrar
  let decoration ←
    exactlyOne ("@" ++ registrar ++ " annotation") source.path
      (classes.flatMap AnnotatedClass.decorations)
  match decoration.arguments with
  | options :: _ =>
    if options.kind == .object then return options
    else throw (.registrarOptions registrar source.path)
  | [] => throw (.registrarOptions registrar source.path)

def importsArray (source : Source) (config : BuildConfig) (options : Node) :
    Except Failure Node := do
  let imports := (source.properties options).filter fun property => property.key == "imports"
  let property ←
    exactlyOne ("'imports' property in the @" ++ config.registrarDecorator ++ " options")
      source.path imports
  if property.value.kind == .array then return property.value
  else throw (.importsNotArray config.registrarDecorator source.path)

/-- The calls of the root method below a node. -/
def rootMethodCalls (source : Source) (config : BuildConfig) (node : Node) : List Node :=
  node.calls.filter fun call =>
    nameMatches (source.calleeName? call) config.rootMethodName

def rootMethodCall (source : Source) (config : BuildConfig) : Except Failure Node := do
  let options ← registrarOptions source config
  let imports ← importsArray source config options
  exactlyOne (config.rootMethodName ++ "() call in 'imports'") source.path
    (rootMethodCalls source config imports)

/-- The registry that the root method is called with. -/
def registryIn (source : Source) (config : BuildConfig) : Except Failure (Option String) := do
  let call ← rootMethodCall source config
  match call.callArguments with
  | _ :: _ :: registry :: _ =>
    return if registry.kind == .object then some (source.textOf registry) else none
  | _ => return none

/-- The text of a file with a registry in its place. With one argument an empty object is put in
front of the registry, so that it comes third. -/
def putRegistry (source : Source) (registry : String) (config : BuildConfig) :
    Except Failure String := do
  let call ← rootMethodCall source config
  match call.callArguments with
  | [app] => return source.replace app.span.behind (", \x7b\x7d, " ++ registry)
  | [_, options] => return source.replace options.span.behind (", " ++ registry)
  | [_, _, old] => return source.replace old.span registry
  | arguments =>
    let callee := (call.child? .callee).map source.textOf
    throw (.argumentCount (callee.getD "") source.path arguments.length)

/-- The registry that a text passes to the root method. -/
def existingRegistry [Parser] (content : String) (config : BuildConfig) (path : String) :
    Except Failure (Option String) :=
  registryIn (Source.ofText content path) config

/-- A text with a registry in its place. -/
def patchSite [Parser] (content registry : String) (config : BuildConfig) (path : String) :
    Except Failure String :=
  putRegistry (Source.ofText content path) registry config

end RouteTrim.Route
