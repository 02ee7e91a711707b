import RouteTrim.Value

/-!
# Failures

Everything that can stop a command, by cause. The first groups are faults of the project that is
being built, and `message` is what the user reads; the last group are faults of the data, of the
disk or of the console that no rule of this library covers, and they have no wording of their own.
-/

set_option autoImplicit false

namespace RouteTrim

/-- Why a command or one of its steps stopped. -/
inductive Failure where
  /-- The route annotation of a class takes something else than one object literal. -/
  | optionsNotObject (className path : String)
  /-- An option stands twice in one annotation. -/
  | repeatedOption (key className path : String)
  /-- An option that must be a text is something else. -/
  | optionNotText (option className path got : String)
  /-- The priority is not one of the known ones. -/
  | unknownPriority (className path got : String)
  /-- The default history is not an array. -/
  | historyNotArray (className path got : String)
  /-- An element of the default history is not a string literal. -/
  | historyElement (className path source : String)
  /-- The registrar annotation takes no object literal. -/
  | registrarOptions (registrar path : String)
  /-- The `imports` option of the registrar annotation is not an array. -/
  | importsNotArray (registrar path : String)
  /-- The root method call has no place for the registry. -/
  | argumentCount (callee path : String) (found : Nat)
  /-- A registry text holds no object literal. -/
  | registryNotObject
  /-- A registry object has no array of links. -/
  | registryWithoutLinks
  /-- A link of a registry is not an object literal. -/
  | linkNotObject (source : String)
  /-- Exactly one of something was needed. -/
  | cardinality (what : String) (expected found : Nat) (path : String)
  /-- An annotated class has no module descriptor beside it. -/
  | descriptorNotFound (classPath descriptorPath : String)
  /-- A route without a name. -/
  | emptyRouteName (className filePath : String)
  /-- A route that leads nowhere. -/
  | routeWithoutTarget (name filePath : String)
  /-- The root descriptor is not set. -/
  | rootDescriptorRequired
  /-- A setting that must be a truth value is not one. -/
  | settingNotBool (key : String) (got : Value)
  /-- A provider of the catalogue is neither known nor described. -/
  | unknownProvider (entry : Value) (known : List String)
  /-- A settings file that was asked for does not exist. -/
  | settingsFileNotFound (path : String)
  /-- A settings file is not YAML. -/
  | invalidYaml (path : String)
  /-- A settings file holds something else than a map. -/
  | settingsNotMap (path : String)
  /-- A file that a pass needs is not in the store. -/
  | fileNotInStore (path : String)
  /-- A dependency report is not JSON. -/
  | invalidGraphJson (path : String)
  /-- A dependency report cannot be read. -/
  | unreadableGraph (path : String)
  /-- A dependency report is not a JSON object. -/
  | graphNotObject
  /-- The importers of a module are not a list. -/
  | importersNotList (module typeName : String)
  /-- A value of a report has no fields or parts where some are needed. -/
  | noSuchField
  /-- A value is walked through that has no items. -/
  | notIterable
  /-- Bytes that are no text. -/
  | notText
  /-- A data file that is beyond the limits of its reader. -/
  | beyondLimits (path : String)
  /-- Something that the console cannot show. -/
  | notShown
  /-- A path that leads to nothing. -/
  | noSuchFile (path : String)
  /-- A directory where a file is needed. -/
  | isDirectory (path : String)
  /-- A file where a directory is needed. -/
  | notDirectory (path : String)
  deriving Repr

namespace Failure

/-- The classes of failures. -/
inductive Family where
  | options
  | cardinality
  | descriptor
  | validation
  | settings
  | store
  | report
  | field
  | iteration
  /-- A text that has no form where it is needed: in bytes, as a value or on the console. -/
  | encoding
  | missingFile
  | directory
  | nonDirectory
  deriving DecidableEq, Repr

/-- The class that a failure belongs to. -/
def family : Failure → Family
  | optionsNotObject .. | repeatedOption .. | optionNotText .. | unknownPriority ..
  | historyNotArray .. | historyElement .. | registrarOptions .. | importsNotArray ..
  | argumentCount .. | registryNotObject | registryWithoutLinks | linkNotObject .. => .options
  | cardinality .. => .cardinality
  | descriptorNotFound .. => .descriptor
  | emptyRouteName .. | routeWithoutTarget .. => .validation
  | rootDescriptorRequired | settingNotBool .. | unknownProvider .. | settingsFileNotFound ..
  | invalidYaml .. | settingsNotMap .. => .settings
  | fileNotInStore .. => .store
  | invalidGraphJson .. | unreadableGraph .. | graphNotObject | importersNotList .. => .report
  | noSuchField => .field
  | notIterable => .iteration
  | notText | beyondLimits .. | notShown => .encoding
  | noSuchFile .. => .missingFile
  | isDirectory .. => .directory
  | notDirectory .. => .nonDirectory

/-- Whether a failure is a fault of the project, which a command reports by its message. -/
def isReported (f : Failure) : Bool :=
  match f.family with
  | .options | .cardinality | .descriptor | .validation | .settings | .store | .report => true
  | _ => false

def isDiskFault (f : Failure) : Bool :=
  match f.family with
  | .missingFile | .directory | .nonDirectory => true
  | _ => false

/-- How a class is named in messages about its annotation. -/
def classSite (className path : String) : String :=
  "class " ++ className ++ " in " ++ path

/-- The wording of a fault of the disk. -/
def diskMessage (number : Nat) (cause path : String) : String :=
  "[Errno " ++ toString number ++ "] " ++ cause ++ ": " ++ (Value.text path).literal

/-- What the user reads. -/
def message : Failure → String
  | optionsNotObject className path =>
    "The route annotation on " ++ classSite className path
      ++ " must take a single object literal argument"
  | repeatedOption key className path =>
    "The '" ++ key ++ "' attribute is declared twice on " ++ classSite className path
  | optionNotText option className path got =>
    "The '" ++ option ++ "' attribute of " ++ classSite className path ++ " must be a string, got "
      ++ got
  | unknownPriority className path got =>
    "The 'priority' attribute of " ++ classSite className path
      ++ " must be one of ['low', 'high'], got '" ++ got ++ "'"
  | historyNotArray className path got =>
    "The 'defaultHistory' attribute of " ++ classSite className path
      ++ " must be an array of strings, got " ++ got
  | historyElement className path source =>
    "The 'defaultHistory' attribute of " ++ classSite className path
      ++ " must only contain string literals, found " ++ source
  | registrarOptions registrar path =>
    "The @" ++ registrar ++ " annotation in " ++ path ++ " must take an object literal"
  | importsNotArray registrar path =>
    "The 'imports' property of @" ++ registrar ++ " in " ++ path ++ " must be an array"
  | argumentCount callee path found =>
    callee ++ "() in " ++ path ++ " takes 1 to 3 arguments, found " ++ toString found
  | registryNotObject => "Registry text is not an object literal"
  | registryWithoutLinks => "Registry text has no 'links' array"
  | linkNotObject source => "Registry link is not an object literal: " ++ source
  | cardinality what expected found path =>
    "Expected " ++ toString expected ++ " " ++ what ++ " in " ++ path ++ ", found "
      ++ toString found
  | descriptorNotFound classPath descriptorPath =>
    "The annotated class in " ++ classPath ++ " has no module descriptor; expected one at "
      ++ descriptorPath
  | emptyRouteName className filePath =>
    "The route on " ++ classSite className filePath ++ " has an empty 'name'"
  | routeWithoutTarget name filePath =>
    "The route '" ++ name ++ "' in " ++ filePath
      ++ " has neither a class nor a module path and named export"
  | rootDescriptorRequired => "root_descriptor_path is required"
  | settingNotBool key got => key ++ " must be a boolean, got " ++ got.literal
  | unknownProvider entry known =>
    "Unknown provider " ++ entry.literal ++ "; known providers: "
      ++ (Value.list (known.map .text)).literal
  | settingsFileNotFound path => "Config file not found: " ++ path
  | invalidYaml path => "Invalid YAML in " ++ path
  | settingsNotMap path => "Config file " ++ path ++ " must contain a mapping"
  | fileNotInStore path => "File not found in file store: " ++ path
  | invalidGraphJson path => "Invalid dependency graph JSON in " ++ path
  | unreadableGraph path => "Cannot read dependency graph " ++ path
  | graphNotObject => "Dependency graph JSON must be an object"
  | importersNotList module typeName =>
    "Importers of " ++ module ++ " must be a list, got " ++ typeName
  | noSuchField => "a value of the report has no such field"
  | notIterable => "a value is not iterable"
  | notText => "the bytes are not UTF-8"
  | beyondLimits path => "beyond the limits of the reader: " ++ path
  | notShown => "the console has no characters for this"
  | noSuchFile path => diskMessage 2 "No such file or directory" path
  | isDirectory path => diskMessage 21 "Is a directory" path
  | notDirectory path => diskMessage 20 "Not a directory" path

end Failure

end RouteTrim
