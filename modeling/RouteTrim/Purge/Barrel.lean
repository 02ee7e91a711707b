import RouteTrim.Path.Specifier
import RouteTrim.Purge.Pattern
import RouteTrim.Settings.BuildConfig

/-!
# The framework's barrel

The barrel imports and exports every component of the framework by named statements, and lists the
framework's services behind the root method. What is purged leaves it: the statements of a module
by their exact specifier, a service by the name of its class.
-/

set_option autoImplicit false

namespace RouteTrim.Purge

open Pattern
open RouteTrim.Path (WorkingFolder)
open RouteTrim.Settings (BuildConfig)

def namedStatement (keyword specifier : String) : Pattern :=
  nameStart ++ literal keyword ++ blanks ++ literal "\x7b"
    ++ many (fun c => c != '\x7b' && c != '\x7d') ++ literal "\x7d"
    ++ blanks ++ literal "from" ++ blanks ++ inQuotes specifier ++ statementEnd

/-- The specifier by which a file imports a module. -/
def specifierOf [WorkingFolder] (file module : String) : String :=
  Path.importSpecifier file (Path.stripExtension module)

def withoutModule [WorkingFolder] (barrel : String) (content : List Char)
    (module : String) : List Char :=
  let specifier := specifierOf barrel module
  ["import", "export"].foldl
    (fun content keyword => (namedStatement keyword specifier).removeAll content) content

/-- A barrel's text without the statements of some modules. -/
def withoutModules [WorkingFolder] (barrel content : String) (modules : List String) : String :=
  String.ofList (modules.foldl (withoutModule barrel) content.toList)

def listedClass (className : String) : Pattern :=
  nameStart ++ literal className ++ blanks ++ literal "," ++ blanks

/-- A barrel's text without a class in the list behind the root method. -/
def withoutClass (content className : String) (config : BuildConfig) : String :=
  match Text.indexOf? config.frameworkRootMethod.toList content.toList with
  | none => content
  | some anchor =>
    let rest := (listedClass className).removeFirst (content.toList.drop anchor)
    String.ofList (content.toList.take anchor ++ rest)

end RouteTrim.Purge
