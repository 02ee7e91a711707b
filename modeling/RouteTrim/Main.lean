import RouteTrim.Command.Run

/-!
# The program

The commands on a real file system. What a command may look at is read into a disk, the command
runs on it, what it shows and tells is printed, and the files that it changed are written.
-/

set_option autoImplicit false

namespace RouteTrim.Main

open RouteTrim.Command (Display Options Outcome Session)
open RouteTrim.Path (Segment WorkingFolder)
open RouteTrim.Settings (BuildConfig Environment)

/-! ## Reading -/

def pathOf (place : List Segment) : String :=
  String.ofList (Path.Location.mk .root place).toPath

/-- The place of a path. -/
def placeOf [WorkingFolder] (path : String) : List Segment :=
  Path.rootedSegments path.toList

def readItem (disk : Disk) (place : List Segment) : IO Disk := do
  let path := System.mkFilePath [pathOf place]
  if ← path.isDir then return disk.makeFolder place
  else if ← path.pathExists then return disk.put place (.file (← IO.FS.readBinFile path))
  else return disk

def readPlace (disk : Disk) (place : List Segment) : IO Disk :=
  (List.range place.length).foldlM (fun disk n => readItem disk (place.take (n + 1))) disk

/-- Reads the tree below a place; folders that are passed over are left out. -/
partial def readTree (disk : Disk) (place : List Segment) : IO Disk := do
  let disk ← readItem disk place
  let path := System.mkFilePath [pathOf place]
  if ← path.isDir then
    (← path.readDir).foldlM (fun disk entry =>
      if FileStore.skippedFolders.contains entry.fileName then return disk
      else readTree disk (place ++ [entry.fileName.toList])) disk
  else return disk

/-- A variable of the environment as a name, an equals sign and a value, each character a byte. One
that is not UTF-8 is left out. -/
def setting? (bytes : List Char) : Option (String × String) := do
  let text? (bytes : List Char) : Option String :=
    String.fromUTF8? ⟨(bytes.map fun c => c.toNat.toUInt8).toArray⟩
  let name ← text? (bytes.takeWhile (· != '='))
  let value ← text? ((bytes.dropWhile (· != '=')).drop 1)
  return (name, value)

/-- The variables of the environment in the order in which they were set. The system gives them as
one file, with a null character behind each. -/
def readEnvironment : IO Environment := do
  let bytes ← IO.FS.readBinFile "/proc/self/environ"
  let given := Text.split (Char.ofNat 0) (bytes.toList.map fun byte => Char.ofNat byte.toNat)
  return OrderedMap.ofList (given.filterMap setting?)

def namedFiles [WorkingFolder] (environment : Environment) (options : Options) : List String :=
  let root := (Command.sourcesOf options).rootDir.getD ""
  [Path.join root Settings.projectFile]
    ++ (environment.get? Settings.settingsFileVariable).toList
    ++ options.config.toList ++ options.graph.toList

/-- Reads the files that the settings name. -/
def readProject [WorkingFolder] (disk : Disk) (config : BuildConfig) : IO Disk := do
  let disk ← readPlace disk (placeOf config.srcDir)
  let disk ← readTree disk (placeOf config.srcDir)
  let disk ← readPlace disk (placeOf config.frameworkEntryPoint)
  readPlace disk (placeOf config.rootFactoryModule)

/-- The disk, as far as a command line reaches. -/
def readDisk [WorkingFolder] (environment : Environment) (arguments : List String) : IO Disk := do
  let disk ← readPlace .empty WorkingFolder.segments
  match Command.readArguments arguments with
  | .command _ options =>
    let disk ← (namedFiles environment options).foldlM
      (fun disk path => readPlace disk (placeOf path)) disk
    match StateT.run (ExceptT.run (Command.buildConfig environment options)) { disk } with
    | (.ok config, _) => readProject disk config
    | _ => return disk
  | _ => return disk

/-! ## Printing and writing -/

def linesOf : Display → List String
  | .message markup => [markup]
  | .table title headers rows =>
    title :: (headers :: rows).map fun cells => "  " ++ " | ".intercalate cells
  | .panel title _ body => [title, body]

/-- Prints what a run shows and tells, and writes what it changed. Gives the status to end with. -/
def finish (before : Disk) (outcome : Outcome) : IO UInt32 := do
  for notice in outcome.session.notices do
    IO.eprintln notice.line
  for (place, bytes) in outcome.session.disk.changedSince before do
    IO.FS.writeBinFile (pathOf place) bytes
  for shown in outcome.session.shown do
    for line in linesOf shown do
      IO.println line
  IO.print outcome.ending.answer
  match outcome.ending with
  | .failed failure => IO.eprintln failure.message
  | _ => pure ()
  return (outcome.ending.status?.getD 1).toUInt32

end RouteTrim.Main

/-- Runs a command line. -/
def main (arguments : List String) : IO UInt32 := do
  let environment ← RouteTrim.Main.readEnvironment
  let _ : RouteTrim.Path.WorkingFolder := .ofPath (← IO.currentDir).toString
  let disk ← RouteTrim.Main.readDisk environment arguments
  RouteTrim.Main.finish disk (RouteTrim.Command.run environment disk arguments)
