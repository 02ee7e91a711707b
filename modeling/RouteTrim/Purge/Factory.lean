import RouteTrim.Purge.Barrel

/-!
# The compiled root factory

The compiled factory imports each module under an alias and names the module's classes through it.
When a service is purged, the import goes together with every place that its alias is used for: the
entries in lists of component factories, the field that holds the service, the accessor or the
statement that makes it, and the lookups that hand it out.
-/

set_option autoImplicit false

namespace RouteTrim.Purge

open Pattern
open RouteTrim.Path (WorkingFolder)

/-- What stands in front of the alias of an import. -/
def importHead : Pattern :=
  nameStart ++ literal "import" ++ blanks ++ literal "*" ++ blanks ++ literal "as" ++ someBlanks

/-- What stands behind the alias of an import. -/
def importTail (specifier : String) : Pattern :=
  someBlanks ++ literal "from" ++ blanks ++ inQuotes specifier ++ statementEnd

/-- An import of a whole module under an alias. -/
def aliasedImport (specifier : String) : Pattern :=
  importHead ++ name ++ importTail specifier

/-- The alias of an import that starts at a place. -/
def aliasAt (place : Place) : List Char :=
  match importHead.end? place with
  | some first => first.ahead.takeWhile isNameChar
  | none => []

/-- The text of a file without its import of a module, and the alias that the import gave. -/
def removeImport [WorkingFolder] (file module : String) (content : List Char) :
    Option (List Char × List Char) :=
  ((aliasedImport (specifierOf file module)).find? content).map fun (first, last) =>
    (first.behind.reverse ++ last.ahead, aliasAt first)

/-- A class of a module, named through its alias. -/
def qualified (moduleAlias : List Char) : Pattern :=
  exactly moduleAlias ++ literal "." ++ name

/-- A class of a module that is not part of a longer name. -/
def freeQualified (moduleAlias : List Char) : Pattern :=
  nameStart ++ qualified moduleAlias

/-- A text without the list entries that a module's classes are: first those with a comma behind
them, then those with one in front, then the rest. -/
def removeEntries (moduleAlias content : List Char) : List Char :=
  let entry := freeQualified moduleAlias
  [entry ++ blanks ++ literal "," ++ blanks, blanks ++ literal "," ++ blanks ++ entry, entry].foldl
    (fun content pattern => pattern.removeAll content) content

/-- A factory's text without a component factory and its entries in lists. -/
def withoutComponentFactory [WorkingFolder] (file content module : String) : String :=
  match removeImport file module content.toList with
  | some (rest, moduleAlias) => String.ofList (removeEntries moduleAlias rest)
  | none => content

/-- A return of one of the factory's own fields, and the closing brace behind it. -/
def returnField : Pattern :=
  literal "return" ++ someBlanks ++ literal "this." ++ name ++ blanks ++ literal ";" ++ blanks
    ++ literal "\x7d"

/-- The accessor that makes a service when it is first asked for. -/
def accessor (moduleAlias : List Char) : Pattern :=
  spaces ++ nameStart ++ literal "get" ++ someBlanks ++ name ++ blanks ++ literal "(" ++ blanks
    ++ literal ")" ++ blanks
    ++ maybe (literal ":" ++ blanks ++ oneOrMore continuesName ++ blanks)
    ++ literal "\x7b" ++ few (fun c => c != '\x7d')
    ++ literal "new" ++ someBlanks ++ qualified moduleAlias
    ++ few (fun _ => true) ++ returnField ++ restOfLine

/-- The statement that makes a service at once. -/
def construction (moduleAlias : List Char) : Pattern :=
  spaces ++ literal "this." ++ name ++ blanks ++ literal "=" ++ blanks ++ literal "new"
    ++ someBlanks ++ qualified moduleAlias ++ blanks ++ literal "(" ++ many (fun c => c != ';')
    ++ literal ")" ++ blanks ++ literal ";" ++ restOfLine

def lookupStatement (moduleAlias : List Char) : Pattern :=
  spaces ++ literal "if" ++ blanks ++ literal "((" ++ blanks ++ literal "token" ++ blanks
    ++ literal "===" ++ blanks ++ qualified moduleAlias ++ blanks ++ literal "))" ++ blanks
    ++ literal "\x7b" ++ blanks ++ returnField ++ restOfLine

def fieldDeclaration (moduleAlias : List Char) : Pattern :=
  spaces ++ name ++ blanks ++ literal ":" ++ blanks ++ qualified moduleAlias ++ blanks
    ++ literal ";" ++ restOfLine

/-- A text without the places that make, hold and hand out the service of a module. -/
def removeService (moduleAlias content : List Char) : List Char :=
  [accessor moduleAlias, construction moduleAlias, lookupStatement moduleAlias,
    fieldDeclaration moduleAlias].foldl
    (fun content pattern => pattern.removeAll content) content

/-- A factory's text without a controller and the service that it is. -/
def withoutController [WorkingFolder] (file content module : String) : String :=
  match removeImport file module content.toList with
  | some (rest, moduleAlias) => String.ofList (removeService moduleAlias rest)
  | none => content

end RouteTrim.Purge
