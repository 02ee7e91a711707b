/-!
# Routes

An entry is a route as a class declares it. A link is an entry together with the module that the
router loads for it; links are what a registry lists.
-/

set_option autoImplicit false

namespace RouteTrim.Route

/-- A route declared on a class. -/
structure Entry where
  /-- The class that declares the route. -/
  className : String
  /-- The file of the class. -/
  filePath : String
  /-- The name of the route. -/
  name : String
  /-- The URL segment of the route, if it has one. -/
  segment : Option String := none
  /-- How early the route's module is loaded. -/
  priority : String := "low"
  /-- The names of the routes that lie below this one when it is entered directly. -/
  history : List String := []
  /-- The annotation as it is written. -/
  declaration : String := ""
  deriving DecidableEq, Repr

/-- The priorities that a route may have. -/
def priorities : List String :=
  ["low", "high"]

/-- An entry and the module that packages its class. -/
structure Link extends Entry where
  /-- The specifier by which the root descriptor imports the module. -/
  modulePath : String
  /-- The class that the module exports. -/
  exportName : String
  /-- The file of the module. -/
  moduleFile : String
  deriving DecidableEq, Repr

/-- The reference by which the router loads the module when it is needed. -/
def Link.loadChildren (link : Link) : String :=
  link.modulePath ++ "#" ++ link.exportName

end RouteTrim.Route
