import RouteTrim.Path.Basic

/-!
# Tidy paths

Where a path is kept as the user gave it, it still loses empty and `.` segments and a slash at its
end. Unlike the normal spelling it keeps `..` segments, so it leads to the same place on any disk.
-/

set_option autoImplicit false

namespace RouteTrim.Path

open RouteTrim.Text (split joinWith)

/-- The path without segments that lead nowhere. -/
def tidyChars (path : List Char) : List Char :=
  let segments := (split '/' path).filter fun segment => !segment.isEmpty && segment != here
  (Location.mk (Anchor.ofPath path) segments).toPath

/-- The path without segments that lead nowhere. -/
def tidy (path : String) : String :=
  String.ofList (tidyChars path.toList)

/-- The path from the root to where a path leads. Two leading slashes count as one. -/
def absolute [WorkingFolder] (path : String) : String :=
  String.ofList (Location.mk .root (rootedSegments path.toList)).toPath

end RouteTrim.Path
