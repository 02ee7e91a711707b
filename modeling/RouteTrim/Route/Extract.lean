import RouteTrim.Route.Decoration
import RouteTrim.Route.Entry
import RouteTrim.Settings.BuildConfig

/-!
# Reading routes

The route annotation takes one object literal with the options `name`, `segment`, `priority` and
`defaultHistory`, in any order, or nothing. The name of a route is the name of its class unless
it is given, and an option that is not given has its default. A value that is no composite keeps
its source text without quotes. The options are read in the order in which they are named here, so
the first faulty one decides the message; an option that is declared twice comes before all.
-/

set_option autoImplicit false

namespace RouteTrim.Route

open RouteTrim.Settings (BuildConfig)
open RouteTrim.Tree (Node Source Parser Kind Property)

/-- Kinds of values that have parts and so cannot stand for a text. -/
def isComposite : Kind → Bool
  | .object | .array | .arrowFunction | .functionExpression | .classExpression
  | .callExpression => true
  | _ => false

/-- Kinds of values that stand for no segment. -/
def isNothing : Kind → Bool
  | .nullLiteral | .undefinedLiteral => true
  | _ => false

/-- The values of options under their keys. -/
abbrev Options := List (String × Node)

/-- The options of a list of properties; the first key that comes again is a fault. -/
def distinctOptions (className path : String) :
    List Property → Options → Except Failure Options
  | [], options => .ok options
  | property :: properties, options =>
    if (options.lookup property.key).isSome then
      .error (.repeatedOption property.key className path)
    else distinctOptions className path properties (options ++ [(property.key, property.value)])

/-- The options that an annotation gives. -/
def readOptions (source : Source) (c : AnnotatedClass) : Except Failure Options :=
  match c.arguments with
  | [] => .ok []
  | [argument] =>
    if argument.kind == .object then
      distinctOptions c.className source.path (source.properties argument) []
    else .error (.optionsNotObject c.className source.path)
  | _ => .error (.optionsNotObject c.className source.path)

/-- The text of an option. -/
def readText (source : Source) (className option : String) (value : Node) :
    Except Failure String :=
  if isComposite value.kind then
    .error (.optionNotText option className source.path value.kind.label)
  else .ok (source.literalText value)

def readName (source : Source) (className : String) (options : Options) :
    Except Failure String :=
  match options.lookup "name" with
  | some value => readText source className "name" value
  | none => .ok className

def readSegment (source : Source) (className : String) (options : Options) :
    Except Failure (Option String) :=
  match options.lookup "segment" with
  | some value =>
    if isNothing value.kind then .ok none
    else some <$> readText source className "segment" value
  | none => .ok none

def readPriority (source : Source) (className : String) (options : Options) :
    Except Failure String :=
  match options.lookup "priority" with
  | some value => do
    let priority ← readText source className "priority" value
    if priority ∈ priorities then return priority
    else throw (.unknownPriority className source.path priority)
  | none => .ok "low"

def readHistoryElement (source : Source) (className : String) (element : Node) :
    Except Failure String :=
  if element.isStringLike then .ok (source.literalText element)
  else .error (.historyElement className source.path (source.textOf element))

def readHistory (source : Source) (className : String) (options : Options) :
    Except Failure (List String) :=
  match options.lookup "defaultHistory" with
  | some value =>
    if value.kind == .array then value.children.mapM (readHistoryElement source className)
    else .error (.historyNotArray className source.path value.kind.label)
  | none => .ok []

/-- The route that an annotated class declares. -/
def readEntry (source : Source) (c : AnnotatedClass) : Except Failure Entry := do
  let options ← readOptions source c
  let name ← readName source c.className options
  let segment ← readSegment source c.className options
  let priority ← readPriority source c.className options
  let history ← readHistory source c.className options
  return {
    className := c.className
    filePath := source.path
    name
    segment
    priority
    history
    declaration := (c.decorations.head?.map fun d => source.textOf d.node).getD "" }

/-- The routes that a file declares, in source order. -/
def entriesOf (source : Source) (config : BuildConfig) : Except Failure (List Entry) := do
  let classes ← scan source config.routeDecorator
  classes.mapM (readEntry source)

/-- The routes that a text declares, in source order. -/
def extract [Parser] (text path : String) (config : BuildConfig) : Except Failure (List Entry) :=
  entriesOf (Source.ofText text path) config

/-- Whether a link can be routed to: it has a name, and a class or a module with an export. -/
def checkLink (link : Link) : Except Failure Unit :=
  if link.name.isEmpty then .error (.emptyRouteName link.className link.filePath)
  else if link.className.isEmpty && (link.modulePath.isEmpty || link.exportName.isEmpty) then
    .error (.routeWithoutTarget link.name link.filePath)
  else .ok ()

def checkLinks (links : List Link) : Except Failure Unit :=
  links.forM checkLink

end RouteTrim.Route
