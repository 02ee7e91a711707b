import RouteTrim.Failure
import RouteTrim.Settings.BuildConfig
import RouteTrim.Text.Alphanumeric
import RouteTrim.Tree.Source

/-!
# The registry in a compiled factory

The compiled root factory assigns the registry to a field of its own object; the compiler may
number the field. The one such assignment has its right-hand side replaced.
-/

set_option autoImplicit false

namespace RouteTrim.Route

open RouteTrim.Settings (BuildConfig)
open RouteTrim.Text (dropLeading? isDecimalDigit)
open RouteTrim.Tree (Node Source Parser)

/-- Whether a name is the field's, with or without `_` and a number behind it. -/
def isFieldName (field name : List Char) : Bool :=
  match dropLeading? field name with
  | some [] => true
  | some ('_' :: digits) => !digits.isEmpty && digits.all isDecimalDigit
  | _ => false

def isRegistryField (source : Source) (config : BuildConfig) (target : Node) : Bool :=
  target.kind == .memberExpression
    && (target.child? .object).any (fun object => object.kind == .thisKeyword)
    && (target.child? .property).any fun property =>
      isFieldName config.compiledRegistryField.toList (property.span.slice source.text)

def registryAssignments (source : Source) (config : BuildConfig) : List Node :=
  (source.root.walkKinds (· == .assignmentExpression)).filter fun assignment =>
    (assignment.child? .left).any (isRegistryField source config)

/-- The text of a file with the value of its registry field replaced. -/
def setRegistryField (source : Source) (registry : String) (config : BuildConfig) :
    Except Failure String :=
  match (registryAssignments source config).map fun assignment => assignment.child? .right with
  | [some value] => .ok (source.replace value.span registry)
  | found =>
    .error (.cardinality ("assignment to this." ++ config.compiledRegistryField) 1 found.length
      source.path)

/-- The text of a factory with a registry in its place. -/
def patchFactory [Parser] (content registry : String) (config : BuildConfig) (path : String) :
    Except Failure String :=
  setRegistryField (Source.ofText content path) registry config

end RouteTrim.Route
