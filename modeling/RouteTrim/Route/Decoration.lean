import RouteTrim.Failure
import RouteTrim.Text.Search
import RouteTrim.Tree.Source

/-!
# Annotated classes

A class declares what it is for by annotations, decorators with a known name. Names are compared
by their segments: an annotation may be written qualified. Class statements carry the decorators in
front of them and, behind `export`, the ones in front of that word too.
-/

set_option autoImplicit false

namespace RouteTrim.Route

open RouteTrim.Tree (Node Source Kind)

/-- Whether a dotted name is the wanted one or ends with it behind a dot. -/
def nameMatches (dotted : Option String) (wanted : String) : Bool :=
  match dotted with
  | none => false
  | some dotted =>
    dotted == wanted || Text.endsWith ('.' :: wanted.toList) dotted.toList

/-- A decorator, its name and its arguments. A decorator of another shape has the empty name. -/
structure Decoration where
  node : Node
  name : String
  called : Bool
  arguments : List Node

/-- What a decorator says. -/
def Decoration.ofDecorator (source : Source) (decorator : Node) : Decoration :=
  match decorator.children.head? with
  | none => ⟨decorator, "", false, []⟩
  | some expression =>
    if expression.kind == .callExpression then
      ⟨decorator, (source.calleeName? expression).getD "", true, expression.callArguments⟩
    else ⟨decorator, (source.dottedName? expression).getD "", false, []⟩

/-- A class with the annotations of one name that it carries. -/
structure AnnotatedClass where
  className : String
  filePath : String
  node : Node
  decorations : List Decoration

/-- The arguments of the first annotation. -/
def AnnotatedClass.arguments (c : AnnotatedClass) : List Node :=
  match c.decorations.head? with
  | some decoration => decoration.arguments
  | none => []

/-- Whether a node is a class statement. -/
def isClassDeclaration (kind : Kind) : Bool :=
  kind == .classDeclaration || kind == .abstractClassDeclaration

/-- The decorators among the children of a node. -/
def decoratorsIn (node : Node) : List Node :=
  node.children.filter fun child => child.kind == .decorator

/-- The decorators that a class carries. -/
def decoratorsOf (visit : Node.Visit) : List Node :=
  let outer :=
    match visit.parent with
    | some parent => if parent.kind == .exportStatement then decoratorsIn parent else []
    | none => []
  outer ++ decoratorsIn visit.node

/-- The name of a class. -/
def className (source : Source) (node : Node) : String :=
  match node.child? .name with
  | some name => source.textOf name
  | none => "<anonymous>"

/-- Every class with an annotation of a name, in source order. -/
def annotatedClasses (source : Source) (wanted : String) : List AnnotatedClass :=
  source.root.visits.filterMap fun visit =>
    if isClassDeclaration visit.node.kind then
      let found := ((decoratorsOf visit).map (Decoration.ofDecorator source)).filter fun a =>
        nameMatches (some a.name) wanted
      if found.isEmpty then none
      else some ⟨className source visit.node, source.path, visit.node, found⟩
    else none

/-- Every class with one annotation of a name; a class with several is a fault. -/
def scan (source : Source) (wanted : String) : Except Failure (List AnnotatedClass) :=
  let classes := annotatedClasses source wanted
  match classes.find? fun c => 1 < c.decorations.length with
  | some c =>
    .error (.cardinality ("@" ++ wanted ++ " annotation on class " ++ c.className) 1
      c.decorations.length source.path)
  | none => .ok classes

end RouteTrim.Route
