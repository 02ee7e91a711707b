import RouteTrim.Text.Search

/-!
# Locations

A path names a location: where it is anchored and the segments that lead there. Reading a path
drops empty and `.` segments and lets `..` take back the segment before it; above the root there
is nothing, and in front of a relative path the remaining `..` stay. Exactly two leading slashes
are an anchor of their own, any other number means the root.

Where a relative path leads depends on the folder that the program works in. That folder comes from
outside (`WorkingFolder`); the root is one.
-/

set_option autoImplicit false

namespace RouteTrim.Path

open RouteTrim.Text (split joinWith)

/-- One name between two slashes. -/
abbrev Segment := List Char

def here : Segment := ['.']

/-- The segment `..`: one level up. -/
def up : Segment := ['.', '.']

/-- A segment that leads somewhere: a name, or one level up. -/
def IsStep (s : Segment) : Prop :=
  s ≠ [] ∧ s ≠ here ∧ '/' ∉ s

/-- A segment that names something in a folder. -/
def IsName (s : Segment) : Prop :=
  IsStep s ∧ s ≠ up

instance (s : Segment) : Decidable (IsStep s) :=
  inferInstanceAs (Decidable (_ ∧ _))

instance (s : Segment) : Decidable (IsName s) :=
  inferInstanceAs (Decidable (_ ∧ _))

/-- What the segments of a location start from. -/
inductive Anchor where
  /-- No leading slash. -/
  | relative
  /-- The root, `/`. -/
  | root
  /-- Exactly two leading slashes, kept as written. -/
  | doubleRoot
  deriving DecidableEq, Repr

/-- The slashes an anchor is written with. -/
def Anchor.text : Anchor → List Char
  | .relative => []
  | .root => ['/']
  | .doubleRoot => ['/', '/']

/-- The anchor that a path starts with. -/
def Anchor.ofPath : List Char → Anchor
  | '/' :: '/' :: '/' :: _ => .root
  | '/' :: '/' :: _ => .doubleRoot
  | '/' :: _ => .root
  | _ => .relative

/-- An anchor and the segments below it. -/
structure Location where
  anchor : Anchor
  segments : List Segment
  deriving DecidableEq, Repr

namespace Location

/-- Walks one segment further. `trail` holds the segments so far, the last one first. -/
def step (anchor : Anchor) (trail : List Segment) (segment : Segment) : List Segment :=
  if segment = [] ∨ segment = here then trail
  else if segment = up then
    match trail with
    | [] => if anchor = .relative then [up] else []
    | last :: before => if last = up then up :: trail else before
  else segment :: trail

/-- The location that a path with forward slashes names. -/
def ofPath (path : List Char) : Location :=
  let anchor := Anchor.ofPath path
  ⟨anchor, ((split '/' path).foldl (step anchor) []).reverse⟩

/-- The one spelling of a location; the place a relative path starts from is `.`. -/
def toPath (location : Location) : List Char :=
  let text := location.anchor.text ++ joinWith ['/'] location.segments
  if text.isEmpty then here else text

end Location

/-! ## The folder that relative paths start from -/

/-- The folder that the program works in, by its names from the root down. -/
class WorkingFolder where
  segments : List Segment
  names : ∀ s ∈ segments, IsName s

instance rootFolder : WorkingFolder where
  segments := []
  names := List.forall_mem_nil _

/-- The working folder at a path. What is no name in the path leads nowhere. -/
@[reducible] def WorkingFolder.ofPath (path : String) : WorkingFolder where
  segments := (split '/' path.toList).filter fun s => decide (IsName s)
  names := fun _ h => of_decide_eq_true (List.mem_filter.1 h).2

def startOf [WorkingFolder] (path : List Char) : List Segment :=
  if path.head? = some '/' then [] else WorkingFolder.segments

/-- Where a path leads, from the root down. -/
def rootedSegments [WorkingFolder] (path : List Char) : List Segment :=
  ((split '/' path).foldl (Location.step .root) (startOf path).reverse).reverse

end RouteTrim.Path
