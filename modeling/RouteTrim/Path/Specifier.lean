import RouteTrim.Path.Basic

/-!
# Import specifiers

The text that an import statement names a module by: the way from the importing file's directory
to the module, in `..` steps up and segments down. A way that would start with a bare name gets
`./` in front.
-/

set_option autoImplicit false

namespace RouteTrim.Path

open RouteTrim.Text

/-- The way from one list of segments to another: up to the last common one, then down. -/
def way : List Segment → List Segment → List Segment
  | f :: start, t :: target =>
    if f = t then way start target else ((f :: start).map fun _ => up) ++ t :: target
  | start, target => (start.map fun _ => up) ++ target

/-- The relative path that leads from a directory to a target. -/
def relativeChars [WorkingFolder] (target start : List Char) : List Char :=
  match way (rootedSegments start) (rootedSegments target) with
  | [] => here
  | segments => joinWith ['/'] segments

/-- The specifier by which `fromFile` imports the module at `target`. -/
def importSpecifier [WorkingFolder] (fromFile target : String) : String :=
  let base := directoryChars (normalizeChars fromFile.toList)
  let base := if base.isEmpty then here else base
  let relative := relativeChars (normalizeChars target.toList) base
  String.ofList (if relative.head? = some '.' then relative else '.' :: '/' :: relative)

end RouteTrim.Path
