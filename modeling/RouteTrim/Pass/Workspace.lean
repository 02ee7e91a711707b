import RouteTrim.Notice
import RouteTrim.Store.FileStore

/-!
# Passes

A pass works on a store and nothing else. It may fail; what it did to the store and told the user
until then stays.
-/

set_option autoImplicit false

namespace RouteTrim

/-- What a pass works on. -/
structure Workspace where
  files : FileStore
  notices : List Notice := []

/-- A computation over a store. -/
abbrev Pass := ExceptT Failure (StateM Workspace)

namespace Pass

variable {α : Type}

/-- The store as it is. -/
def store : Pass FileStore :=
  return (← get).files

/-- The text of a file that must be in the store. -/
def content (path : String) : Pass String := do
  (← store).content path

def setContent (path text : String) : Pass Unit :=
  modify fun workspace => { workspace with files := workspace.files.set path text }

def tell (notice : Notice) : Pass Unit :=
  modify fun workspace => { workspace with notices := workspace.notices ++ [notice] }

/-- A computation without a store, as a part of a pass. -/
def ofNoted (noted : Noted α) : Pass α := do
  let (result, notices) := noted.result
  notices.forM tell
  MonadExcept.ofExcept result

/-- What becomes of a store in a pass. -/
def run (pass : Pass α) (files : FileStore) : Except Failure α × Workspace :=
  StateT.run (ExceptT.run pass) { files }

end Pass

end RouteTrim
