import RouteTrim.Route.Entry
import RouteTrim.Text.Marks
import RouteTrim.Text.Search

/-!
# The text of a registry

A registry is an object literal with one link a line. Texts stand in single quotes, with a
backslash in front of each quote and backslash in them.
-/

set_option autoImplicit false

namespace RouteTrim.Route

open RouteTrim.Text (singleQuote backslash joinWith)

def quoteChar (c : Char) : List Char :=
  if c = backslash ∨ c = singleQuote then [backslash, c] else [c]

/-- A text as a literal in single quotes. -/
def quote (s : String) : List Char :=
  singleQuote :: s.toList.flatMap quoteChar ++ [singleQuote]

def quoteList (items : List String) : List Char :=
  joinWith [',', ' '] (items.map quote)

/-- A link as an object literal. -/
def Link.text (link : Link) : List Char :=
  "\x7b loadChildren: ".toList ++ quote link.loadChildren
    ++ ", name: ".toList ++ quote link.name
    ++ ", segment: ".toList
    ++ (match link.segment with
      | some segment => quote segment
      | none => "null".toList)
    ++ ", priority: ".toList ++ quote link.priority
    ++ ", defaultHistory: [".toList ++ quoteList link.history ++ "] \x7d".toList

def Link.line (link : Link) : List Char :=
  "    ".toList ++ link.text

/-- The lines of a registry's links, with the line end behind the last one. -/
def linkLines (links : List Link) : List Char :=
  if links.isEmpty then [] else joinWith [',', '\n'] (links.map Link.line) ++ ['\n']

/-- A registry as an object literal, without a line end behind it. -/
def registryChars (links : List Link) : List Char :=
  "\x7b\n  links: [\n".toList ++ linkLines links ++ "  ]\n\x7d".toList

/-- A registry as an object literal, without a line end behind it. -/
def registryText (links : List Link) : String :=
  String.ofList (registryChars links)

end RouteTrim.Route
