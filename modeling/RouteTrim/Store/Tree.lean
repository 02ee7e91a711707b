import RouteTrim.Notice
import RouteTrim.Path.Spelling
import RouteTrim.Store.Disk
import RouteTrim.Store.FileStore

/-!
# Between the disk and the store

A tree of sources is read into a store in the order of its paths, segment by segment, so the order
depends on the tree alone. Folders that hold no sources of the project itself are passed over. Dirty
files are written back one by one; a fault on the way leaves what was written, and every file stays
dirty.
-/

set_option autoImplicit false

namespace RouteTrim.FileStore

open RouteTrim.Path (Segment WorkingFolder)

/-- The folders that are passed over. -/
def skippedFolders : List String :=
  ["node_modules", ".git", "www", "platforms", "plugins", ".sourcemaps"]

/-- Whether a way leads through no folder that is passed over to a file that ends in one of the
given ways. -/
def isWanted (suffixes : List String) (way : List Segment) : Bool :=
  let name := way.getLastD []
  suffixes.any (fun suffix => Text.endsWith suffix.toList name)
    && !way.dropLast.any fun folder => skippedFolders.any fun skipped => skipped.toList == folder

def pathBelow (folder : String) (way : List Segment) : String :=
  let way := Text.joinWith ['/'] way
  String.ofList <|
    if folder.toList = Path.here then way else Path.joinChars folder.toList way

/-- The wanted files below a path, with their texts. There are none below what is no folder. -/
def readTree [WorkingFolder] (disk : Disk) (root : String) (suffixes : List String) :
    Except Failure (List (String × String)) :=
  let root := Path.tidy root
  match disk.find root with
  | .ok (folder, .folder) =>
    ((disk.filesBelow folder).filter fun file => isWanted suffixes file.1).mapM fun file => do
      return (pathBelow root file.1, ← Disk.textOf file.2)
  | _ => .ok []

/-- The store of the wanted files below a path. -/
def loadTree [WorkingFolder] (disk : Disk) (root : String) (suffixes : List String) :
    Except Failure FileStore :=
  ofList <$> readTree disk root suffixes

/-- Reads one more file into the store and gives its text. -/
def addFile [WorkingFolder] (store : FileStore) (disk : Disk) (path : String) :
    Except Failure (String × FileStore) := do
  let path := Path.tidy path
  let content ← disk.readText path
  return (content, store.load path content)

/-- What became of writing files. -/
structure Writing where
  disk : Disk
  /-- The files that were written, in order. -/
  written : List String
  /-- What stopped the writing, if anything did. -/
  fault : Option Failure

def writeFiles [WorkingFolder] (store : FileStore) : List String → Disk → Writing
  | [], disk => ⟨disk, [], none⟩
  | path :: paths, disk =>
    match disk.writeText (Path.tidy path) ((store.files.get? path).getD "") with
    | .error fault => ⟨disk, [], some fault⟩
    | .ok disk =>
      let rest := writeFiles store paths disk
      { rest with written := path :: rest.written }

/-- Writes every dirty file. If that succeeds, none is dirty any more. -/
def writeDirty [WorkingFolder] (store : FileStore) (disk : Disk) : FileStore × Writing :=
  let writing := store.writeFiles store.dirtyPaths disk
  (if writing.fault.isNone then { store with dirty := [] } else store, writing)

/-- The notices of a writing. -/
def Writing.notices (writing : Writing) : List Notice :=
  writing.written.map .fileWritten

end RouteTrim.FileStore
