import RouteTrim.Failure
import RouteTrim.OrderedMap
import RouteTrim.Path.Location
import RouteTrim.Text.Newline
import RouteTrim.Text.Utf8

/-!
# Disks

A tree of folders and files, as far as the commands see it. Files hold bytes; a text is read from
them as UTF-8 with all its line ends unified and written back as it is.

A path is followed segment by segment: every segment but the last must lead to a folder that is
there. A file that is written is put in place of an old one or into a folder that is there; nothing
here makes or removes folders on its own.
-/

set_option autoImplicit false

namespace RouteTrim

open RouteTrim.Path (Segment WorkingFolder)

/-- What stands at a place of a disk. -/
inductive DiskItem where
  | folder
  | file (bytes : ByteArray)

instance : Inhabited DiskItem :=
  ⟨.folder⟩

/-- The items of a disk by their place below the root. The root itself is always a folder. -/
structure Disk where
  items : OrderedMap (List Segment) DiskItem

instance : Inhabited Disk :=
  ⟨⟨.empty⟩⟩

namespace Disk

/-- The disk with nothing on it. -/
def empty : Disk :=
  ⟨.empty⟩

/-! ## Places -/

def itemAt? (disk : Disk) (place : List Segment) : Option DiskItem :=
  if place.isEmpty then some .folder else disk.items.get? place

def put (disk : Disk) (place : List Segment) (item : DiskItem) : Disk :=
  { disk with items := disk.items.insert place item }

/-- The disk without the item at a place. -/
def erase (disk : Disk) (place : List Segment) : Disk :=
  { disk with items := disk.items.filter fun other _ => other != place }

/-- What stands at a place that is not the root after something was put at another one. -/
theorem itemAt?_put (disk : Disk) (place other : List Segment) (item : DiskItem)
    (h : other ≠ []) :
    (disk.put place item).itemAt? other
      = if other = place then some item else disk.itemAt? other := by
  have : other.isEmpty = false := by simpa using h
  simp only [itemAt?, put, this, OrderedMap.get?_insert, Bool.false_eq_true, if_false]

def makeFolder (disk : Disk) (place : List Segment) : Disk :=
  (List.range place.length).foldl (fun disk n =>
    let front := place.take (n + 1)
    if (disk.itemAt? front).isSome then disk else disk.put front .folder) disk

/-- The disk with a file at a place, and folders on the way to it. -/
def makeFile (disk : Disk) (place : List Segment) (bytes : ByteArray) : Disk :=
  (disk.makeFolder place.dropLast).put place (.file bytes)

/-! ## Following a path -/

/-- Why a path leads nowhere. -/
inductive Dead where
  /-- Nothing is there. -/
  | missing
  /-- A file stands where a folder is needed. -/
  | blocked
  deriving DecidableEq, Repr

/-- The fault of a path that leads nowhere. -/
def Dead.failure (path : String) : Dead → Failure
  | missing => .noSuchFile path
  | blocked => .notDirectory path

def follow (disk : Disk) (place : List Segment) : List Segment → Except Dead (List Segment)
  | [] => .ok place
  | segment :: segments =>
    match disk.itemAt? place with
    | none => .error .missing
    | some (.file _) => .error .blocked
    | some .folder =>
      if segment.isEmpty || segment == Path.here then disk.follow place segments
      else if segment == Path.up then disk.follow place.dropLast segments
      else disk.follow (place ++ [segment]) segments

section

variable [WorkingFolder]

/-- The place that a path leads to, whether or not something stands there. An empty path leads
nowhere. -/
def placeOf (disk : Disk) (path : String) : Except Dead (List Segment) :=
  if path.isEmpty then .error .missing
  else disk.follow (Path.startOf path.toList) (Text.split '/' path.toList)

def find (disk : Disk) (path : String) : Except Dead (List Segment × DiskItem) := do
  let place ← disk.placeOf path
  match disk.itemAt? place with
  | some item => return (place, item)
  | none => throw .missing

/-- Whether a path leads to something. -/
def exists? (disk : Disk) (path : String) : Bool :=
  (disk.find path).isOk

def isFile (disk : Disk) (path : String) : Bool :=
  match disk.find path with
  | .ok (_, .file _) => true
  | _ => false

/-! ## Files -/

/-- The text of a file's bytes. -/
def textOf (bytes : ByteArray) : Except Failure String :=
  match Text.Utf8.decode? bytes with
  | some text => .ok (String.ofList (Text.unifyNewlines text.toList))
  | none => .error .notText

def readBytes (disk : Disk) (path : String) : Except Failure ByteArray :=
  match disk.find path with
  | .ok (_, .file bytes) => .ok bytes
  | .ok (_, .folder) => .error (.isDirectory path)
  | .error dead => .error (dead.failure path)

/-- The text of a file. -/
def readText (disk : Disk) (path : String) : Except Failure String :=
  disk.readBytes path >>= textOf

/-- The disk with a text written to a file. -/
def writeText (disk : Disk) (path text : String) : Except Failure Disk :=
  match disk.placeOf path with
  | .error dead => .error (dead.failure path)
  | .ok place =>
    match disk.itemAt? place, disk.itemAt? place.dropLast with
    | some .folder, _ => .error (.isDirectory path)
    | none, none => .error (.noSuchFile path)
    | none, some (.file _) => .error (.notDirectory path)
    | _, _ => .ok (disk.put place (.file text.toUTF8))

end

/-! ## Folders -/

def below? : List Segment → List Segment → Option (List Segment)
  | [], place => some place
  | s :: folder, t :: place => if s = t then below? folder place else none
  | _ :: _, [] => none

/-- The files below a place with the ways to them, in the order of the ways, which are compared
segment by segment. -/
def filesBelow (disk : Disk) (folder : List Segment) : List (List Segment × ByteArray) :=
  let files := disk.items.entries.filterMap fun (place, item) =>
    match below? folder place, item with
    | some way, .file bytes => some (way, bytes)
    | _, _ => none
  files.mergeSort fun a b => !decide (b.1 < a.1)

/-- The files of a disk that an older disk did not have with the same bytes. -/
def changedSince (disk before : Disk) : List (List Segment × ByteArray) :=
  (disk.filesBelow []).filter fun (place, bytes) =>
    match before.itemAt? place with
    | some (.file old) => old != bytes
    | _ => true

end Disk

end RouteTrim
