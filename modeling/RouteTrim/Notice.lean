import RouteTrim.Failure

/-!
# Notices

What a pass tells the user while it works. A notice that was given stays given when the pass
fails later, so a computation that gives notices keeps them beside its result.
-/

set_option autoImplicit false

namespace RouteTrim

/-- Something worth telling the user. -/
inductive Notice where
  /-- A layer of the settings has a key that nobody reads. -/
  | unknownKey (key : Value)
  /-- The settings are read again. -/
  | reloading
  /-- The routes of a project have been read. -/
  | routesFound (count : Nat) (directory : String)
  /-- The registration site holds a registry already; `links` is their number if it reads as one. -/
  | registryReplaced (target : String) (links : Option Nat) (callee : String)
  /-- The registry stands in its place. -/
  | linksWritten (count : Nat) (target : String)
  /-- The graph has been pruned. -/
  | pruned (eligible retained purged : Nat)
  /-- A dependency report has been read. -/
  | reportLoaded (count : Nat) (path : String)
  /-- The statements of the purged modules leave the barrel. -/
  | purging (count : Nat) (path : String)
  /-- A provider has left the build. -/
  | providerRemoved (className : String)
  /-- A file has been written to disk. -/
  | fileWritten (path : String)
  deriving Repr

namespace Notice

/-- How much a notice matters. -/
inductive Level where
  | info
  | warning
  deriving DecidableEq, Repr

def Level.label : Level → String
  | info => "INFO"
  | warning => "WARNING"

/-- How much a notice matters: a warning tells of something lost. -/
def level : Notice → Level
  | unknownKey _ | registryReplaced .. => .warning
  | _ => .info

/-- The wording of a notice. -/
def message : Notice → String
  | unknownKey key => "[config] Ignoring unknown config key: " ++ key.display
  | reloading => "[config] Reloading configuration from all sources"
  | routesFound count directory =>
    "[deep-linking] Found " ++ toString count ++ " route(s) under " ++ directory
  | registryReplaced target links callee =>
    let existing :=
      match links with
      | some count => toString count ++ " link(s)"
      | none => "a hand-written config object"
    "[deep-linking] " ++ target ++ " already passes " ++ existing ++ " to " ++ callee
      ++ "(); it will be replaced"
  | linksWritten count target =>
    "[deep-linking] Wrote " ++ toString count ++ " link(s) into " ++ target
  | pruned eligible retained purged =>
    "[treeshake] " ++ toString eligible ++ " eligible module(s): " ++ toString retained
      ++ " retained, " ++ toString purged ++ " purged"
  | reportLoaded count path =>
    "[treeshake] Loaded dependency graph with " ++ toString count ++ " module(s) from " ++ path
  | purging count path =>
    "[treeshake] Purging " ++ toString count ++ " module(s) from " ++ path
  | providerRemoved className => "[treeshake] Removed unused provider " ++ className
  | fileWritten path => "[file-store] Wrote " ++ path

def line (notice : Notice) : String :=
  notice.level.label ++ " " ++ notice.message

end Notice

/-- A computation that may fail and gives notices on its way. -/
abbrev Noted := ExceptT Failure (StateM (List Notice))

namespace Noted

variable {α : Type}

def tell (notice : Notice) : Noted Unit :=
  modify fun notices => notices ++ [notice]

/-- A result with the notices in front of it. -/
def result (noted : Noted α) : Except Failure α × List Notice :=
  StateT.run (ExceptT.run noted) []

end Noted

end RouteTrim
