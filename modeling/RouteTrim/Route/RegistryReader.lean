import RouteTrim.Failure
import RouteTrim.Tree.Source

/-!
# Reading a registry back

The links that a registry text lists. The text is read as the value of a constant, its first object
literal is the registry, and its `links` must be an array of object literals. Of a property that
comes more than once the last one counts. A string literal loses its quotes and the backslashes of
its escapes; any other value keeps its source text without quotes.
-/

set_option autoImplicit false

namespace RouteTrim.Route

open RouteTrim.Tree (Node Source Parser Property)

/-- What a registry says about a link; a property that is missing has no value. -/
structure RegistryLink where
  loadChildren : Option String
  name : Option String
  segment : Option String
  priority : Option String
  history : List String
  deriving DecidableEq, Repr

/-- A piece of a string literal as it counts: an escape loses its backslash. -/
def pieceText (source : Source) (piece : Node) : List Char :=
  let text := piece.span.slice source.text
  if piece.kind == .escapeSequence then text.drop 1 else text

def valueText (source : Source) (value : Node) : String :=
  if value.kind == .string then String.ofList (value.children.flatMap (pieceText source))
  else source.literalText value

def lastValue? (key : String) (properties : List Property) : Option Node :=
  (properties.reverse.find? fun property => property.key == key).map Property.value

def readLink (source : Source) (object : Node) : RegistryLink :=
  let properties := source.properties object
  let text (key : String) : Option String :=
    (lastValue? key properties).map (valueText source)
  { loadChildren := text "loadChildren"
    name := text "name"
    segment :=
      match lastValue? "segment" properties with
      | some value => if value.kind == .nullLiteral then none else some (valueText source value)
      | none => none
    priority := text "priority"
    history :=
      match lastValue? "defaultHistory" properties with
      | some value => value.children.map (valueText source)
      | none => [] }

def readElement (source : Source) (element : Node) : Except Failure RegistryLink :=
  if element.kind == .object then .ok (readLink source element)
  else .error (.linkNotObject (source.textOf element))

/-- The links that the first object literal of a file lists. -/
def linksOf (source : Source) : Except Failure (List RegistryLink) :=
  match source.root.walkKinds (· == .object) with
  | [] => .error .registryNotObject
  | registry :: _ =>
    match lastValue? "links" (source.properties registry) with
    | none => .error .registryWithoutLinks
    | some links =>
      if links.kind == .array then links.children.mapM (readElement source)
      else .error .registryWithoutLinks

/-- The file that a registry text is read in. -/
def registrySource [Parser] (text : String) : Source :=
  Source.ofText ("const registry = " ++ text ++ ";") "<registry>"

/-- The links that a registry text lists. -/
def readRegistry [Parser] (text : String) : Except Failure (List RegistryLink) :=
  linksOf (registrySource text)

end RouteTrim.Route
