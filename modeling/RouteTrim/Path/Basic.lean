import RouteTrim.Path.Location
import RouteTrim.Text.Blank
import RouteTrim.Text.Marks

/-!
# Paths as text

Modules, files and settings are named by path texts. The operations here work on the text alone:
they look at no disk, and a relative path stays one.
-/

set_option autoImplicit false

namespace RouteTrim.Path

open RouteTrim.Text

/-- The normal spelling of a path; backslashes count as slashes. -/
def normalizeChars (path : List Char) : List Char :=
  (Location.ofPath (path.map fun c => if c = backslash then '/' else c)).toPath

/-- The normal spelling of a path; backslashes count as slashes. -/
def normalize (path : String) : String :=
  String.ofList (normalizeChars path.toList)

/-- Whether a path starts at a root. -/
def isAbsolute (path : String) : Bool :=
  path.toList.head? == some '/'

/-- The text of a path without what follows its last slash. The slashes in front of the last
segment go too, unless there is nothing else. -/
def directoryChars (path : List Char) : List Char :=
  let front := throughLast '/' path
  let trimmed := dropRightWhile (· == '/') front
  if trimmed.isEmpty then front else trimmed

/-- The directory part of a path. -/
def directory (path : String) : String :=
  String.ofList (directoryChars path.toList)

/-- A path continued by another one. A continuation that starts at a root replaces it. -/
def joinChars (path next : List Char) : List Char :=
  if next.head? = some '/' then next
  else if path.isEmpty || path.getLast? == some '/' then path ++ next
  else path ++ '/' :: next

/-- A path continued by another one. -/
def join (path next : String) : String :=
  String.ofList (joinChars path.toList next.toList)

/-- Splits the last segment of a path in front of its last dot. Dots that lead the segment belong
to the name, so a segment made of dots and one word has no extension. -/
def splitExtensionChars (path : List Char) : List Char × List Char :=
  let front := throughLast '/' path
  let name := afterLast '/' path
  let dots := name.takeWhile (· == '.')
  let word := name.dropWhile (· == '.')
  if word.contains '.' then
    let stem := (throughLast '.' word).dropLast
    (front ++ dots ++ stem, '.' :: afterLast '.' word)
  else (path, [])

def changeExtension (path extension : String) : String :=
  String.ofList ((splitExtensionChars path.toList).1 ++ extension.toList)

def stripExtension (path : String) : String :=
  changeExtension path ""

/-- Whether a directory's segments occur in a path with something below them. Both are compared
in their normal spelling, as text: `path` is the directory itself, or holds the directory's
text followed by a slash. -/
def isWithin (path dir : String) : Bool :=
  let path := normalizeChars path.toList
  let dir := dropRightWhile (· == '/') (normalizeChars dir.toList)
  path == dir || occursIn (dir ++ ['/']) path

end RouteTrim.Path
