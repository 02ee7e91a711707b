import RouteTrim.Command.Arguments

/-!
# Help

What the program tells about itself: its version, and how the program and its commands are called.
Lines are kept within 78 columns, apart from those that must not be broken.
-/

set_option autoImplicit false

namespace RouteTrim.Command

def versionText : String := "linkprune 0.2.0\n"

def programHelp : List String :=
  ["usage: linkprune [-h] [--version] \x7bdeeplinks,treeshake\x7d ...",
    "",
    "linkprune - deep link registry generation and tree shaking for Ionic builds",
    "",
    "options:",
    "  -h, --help            show this help message and exit",
    "  --version             show program's version number and exit",
    "",
    "commands:",
    "  Available commands (use 'linkprune <command> --help' for command-specific help)",
    "",
    "  \x7bdeeplinks,treeshake\x7d",
    "    deeplinks           Build the deep link registry from @IonicPage classes",
    "    treeshake           Find and purge unused framework components",
    "",
    "Examples:",
    "  linkprune deeplinks                        # Print discovered routes and registry",
    "  linkprune deeplinks --aot --write          # Patch the compiled root factory",
    "  linkprune treeshake stats.json             # Report unused components",
    "  linkprune treeshake stats.json --write     # Rewrite the framework barrel"]

def sharedOptionsHelp : List String :=
  ["options:",
    "  -h, --help       show this help message and exit",
    "  --root ROOT      project root (default: current directory)",
    "  --config CONFIG  YAML config file (overrides linkprune.yaml)",
    "  -v, --verbose    debug logging"]

/-- How a command is called. -/
def Name.help : Name → List String
  | deeplinks =>
    ["usage: linkprune deeplinks [-h] [--root ROOT] [--config CONFIG] [-v] [--aot]",
      "                           [--write]",
      ""]
      ++ sharedOptionsHelp ++
    ["  --aot            compiled (AOT) mode: target the root module factory",
      "  --write          write the registry into the registration site"]
  | treeshake =>
    ["usage: linkprune treeshake [-h] [--root ROOT] [--config CONFIG] [-v] [--write]",
      "                           graph",
      "",
      "positional arguments:",
      "  graph            dependency graph JSON (\x7bmodule: [importers]\x7d or webpack",
      "                   stats)",
      ""]
      ++ sharedOptionsHelp ++
    ["  --write          rewrite the framework barrel and root factory"]

def helpText (asked : Option Name) : String :=
  String.join (((asked.map Name.help).getD programHelp).map (· ++ "\n"))

end RouteTrim.Command
