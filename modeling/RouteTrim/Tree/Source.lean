import RouteTrim.Text.Blank
import RouteTrim.Text.Marks
import RouteTrim.Text.Utf8
import RouteTrim.Tree.Node

/-!
# Source files

A source file is its path, its text and its tree. The questions asked of it: the text of a node,
the dotted name of an expression, the arguments of a call, the properties of an object literal, and
the text of a literal without quotes.

The tree is a parser's, and the parser comes from outside: nothing here depends on how it reads a
text. `RouteTrim.Tree.Parse` has the one that the program runs with.
-/

set_option autoImplicit false

namespace RouteTrim.Tree

open RouteTrim.Text (isQuote trim)

/-- The parser of the source files: it gives every text a tree, also one that is no program. -/
class Parser where
  parse : List Char → Node

/-- A TypeScript file. -/
structure Source where
  path : String
  text : List Char
  root : Node

namespace Source

/-- The file with the tree of its text. -/
def ofText [Parser] (text path : String) : Source :=
  ⟨path, text.toList, Parser.parse text.toList⟩

/-- The text of a node. -/
def textOf (source : Source) (node : Node) : String :=
  String.ofList (node.span.slice source.text)

/-- The file's text with a part replaced. -/
def replace (source : Source) (span : Span) (replacement : String) : String :=
  String.ofList (span.replace source.text replacement.toList)

/-- The file's text with the bytes from `start` to `stop` replaced; nothing if a character would
be cut. -/
def spliceBytes (source : Source) (start stop : Int) (replacement : String) : Option String :=
  Text.Utf8.splice (String.ofList source.text) start stop replacement

/-! ## Dotted names -/

mutual

/-- The names along a chain of member accesses over a name or `this`; nothing for any other
expression. -/
def segments? (source : Source) : Node → Option (List String)
  | .mk kind _ span children =>
    match kind with
    | .identifier | .propertyIdentifier | .typeIdentifier | .thisKeyword =>
      some [String.ofList (span.slice source.text)]
    | .memberExpression => do
      let front ← objectSegments? source children
      let property ← children.find? fun child => child.role == .property
      return front ++ [source.textOf property]
    | _ => none

/-- The names along the first child that is accessed. -/
def objectSegments? (source : Source) : List Node → Option (List String)
  | [] => none
  | node :: nodes =>
    if node.role == .object then segments? source node else objectSegments? source nodes

end

/-- A chain of names written with dots. -/
def dottedName? (source : Source) (node : Node) : Option String :=
  (source.segments? node).map fun segments => ".".intercalate segments

/-! ## Calls, objects, literals -/

def calleeName? (source : Source) (call : Node) : Option String :=
  call.child? .callee >>= source.dottedName?

/-- The text of a node without any quotes, trimmed. -/
def literalText (source : Source) (node : Node) : String :=
  String.ofList (trim ((node.span.slice source.text).filter fun c => !isQuote c))

/-- The key of a property: a quoted one without its quotes, any other one as it is written. -/
def propertyKey (source : Source) (key : Node) : String :=
  if key.kind == .string then source.literalText key else source.textOf key

end Source

def Node.callArguments (call : Node) : List Node :=
  match call.child? .arguments with
  | some list => if list.kind == .arguments then list.children else []
  | none => []

/-- A string, or a template without expressions in it. -/
def Node.isStringLike (node : Node) : Bool :=
  match node.kind with
  | .string => true
  | .templateString => !node.children.any fun child => child.kind == .templateSubstitution
  | _ => false

/-- A property of an object literal. -/
structure Property where
  key : String
  value : Node
  member : Node

/-- The properties of an object literal in source order. A shorthand is its own value; methods and
spreads are no properties. -/
def Source.properties (source : Source) (object : Node) : List Property :=
  object.children.filterMap fun member =>
    match member.kind with
    | .pair => do
      let key ← member.child? .key
      let value ← member.child? .value
      return ⟨source.propertyKey key, value, member⟩
    | .shorthandProperty => some ⟨source.textOf member, member, member⟩
    | _ => none

end RouteTrim.Tree
