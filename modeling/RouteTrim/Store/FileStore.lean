import RouteTrim.Failure
import RouteTrim.OrderedMap
import RouteTrim.Path.Basic

/-!
# The file store

The texts that the passes read and write, by normal path and in the order in which they came in.
A path is normalized whenever the store is asked, so two spellings of a path mean one file. A file
whose text was set to another one is dirty until it is written back.
-/

set_option autoImplicit false

namespace RouteTrim

/-- Texts by path, and the paths whose texts were changed. -/
structure FileStore where
  files : OrderedMap String String
  dirty : List String
  deriving Repr, Inhabited

namespace FileStore

def empty : FileStore :=
  ⟨.empty, []⟩

/-- Puts a text under a path without marking it. -/
def load (store : FileStore) (path content : String) : FileStore :=
  { store with files := store.files.insert (Path.normalize path) content }

/-- A store of files that are as they are on disk. -/
def ofList (files : List (String × String)) : FileStore :=
  files.foldl (fun store (path, content) => store.load path content) empty

/-- The text of a file, if the store has it. -/
def get? (store : FileStore) (path : String) : Option String :=
  store.files.get? (Path.normalize path)

def contains (store : FileStore) (path : String) : Bool :=
  store.files.contains (Path.normalize path)

/-- The text of a file that must be in the store. -/
def content (store : FileStore) (path : String) : Except Failure String :=
  match store.get? path with
  | some content => .ok content
  | none => .error (.fileNotInStore (Path.normalize path))

/-- Sets the text of a file. It becomes dirty if its text changes. -/
def set (store : FileStore) (path content : String) : FileStore :=
  let key := Path.normalize path
  { files := store.files.insert key content
    dirty :=
      if store.files.get? key = some content ∨ key ∈ store.dirty then store.dirty
      else store.dirty ++ [key] }

/-- The paths of all files in the order in which they came in. -/
def paths (store : FileStore) : List String :=
  store.files.keys

def pathsEnding (store : FileStore) (suffixes : List String) : List String :=
  store.paths.filter fun path =>
    suffixes.any fun suffix => Text.endsWith suffix.toList path.toList

/-- The paths of the dirty files in the order in which they came in. -/
def dirtyPaths (store : FileStore) : List String :=
  store.paths.filter fun path => path ∈ store.dirty

/-- The number of files. -/
def size (store : FileStore) : Nat :=
  store.files.size

/-- Every path of a store is looked up under its normal spelling. -/
theorem get?_set (store : FileStore) (path other content : String) :
    (store.set path content).get? other =
      if Path.normalize other = Path.normalize path then some content else store.get? other :=
  OrderedMap.get?_insert ..

/-- Setting a file to the text that it has changes nothing. -/
theorem set_of_get? {store : FileStore} {path content : String}
    (h : store.get? path = some content) : store.set path content = store := by
  have same : store.files.get? (Path.normalize path) = some content := h
  simp [set, same, OrderedMap.insert_of_get? same]

theorem paths_set {store : FileStore} {path old : String} (h : store.get? path = some old)
    (content : String) : (store.set path content).paths = store.paths := by
  have present : Path.normalize path ∈ store.files.keys := by
    rw [← OrderedMap.contains_iff_mem_keys, OrderedMap.contains]
    exact Option.isSome_of_eq_some h
  exact (OrderedMap.keys_insert ..).trans (if_pos present)

end FileStore

end RouteTrim
