import RouteTrim.Command.Arguments
import RouteTrim.Command.Display
import RouteTrim.Command.Help
import RouteTrim.Graph.Load
import RouteTrim.Pass.DeepLinking
import RouteTrim.Pass.TreeShaking
import RouteTrim.Settings.Service
import RouteTrim.Store.Tree
import RouteTrim.Tree.Parse
import RouteTrim.Yaml.Meaning

/-!
# Running a command

A command reads what it needs from the disk, leaves the work to a pass, shows the result and writes
back only when it is told to. Faults of the project are shown and end the command with the status
1; `treeshake` treats faults of the disk the same way. Any other fault ends the run, and so does
something that the console cannot show.

A run depends on the folder that it works in, on the parser of sources, on the readers of settings
and reports, and on the console.
-/

set_option autoImplicit false

namespace RouteTrim.Command

open RouteTrim.Path (WorkingFolder)
open RouteTrim.Settings (BuildConfig Environment Service Sources)
open RouteTrim.Tree (Parser)

/-- What a run works on and leaves behind. -/
structure Session where
  disk : Disk
  notices : List Notice := []
  shown : List Display := []

/-- A computation over a session. -/
abbrev Run := ExceptT Failure (StateM Session)

namespace Run

variable {α : Type}

/-- The disk as it is. -/
def disk : Run Disk :=
  return (← get).disk

def tell (notices : List Notice) : Run Unit :=
  modify fun session => { session with notices := session.notices ++ notices }

/-- Shows one thing after the other, up to the first that the console cannot show. -/
def display [Console] : List Display → Run Unit
  | [] => pure ()
  | item :: items => do
    unless Console.shows item do throw .notShown
    modify fun session => { session with shown := session.shown ++ [item] }
    display items

/-- A computation with notices, as a part of a run. -/
def ofNoted (noted : Noted α) : Run α := do
  let (result, notices) := noted.result
  tell notices
  MonadExcept.ofExcept result

/-- A pass over a store, as a part of a run. Gives the store as the pass leaves it, too. -/
def ofPass (pass : Pass α) (files : FileStore) : Run (α × FileStore) := do
  let (result, workspace) := pass.run files
  tell workspace.notices
  return (← MonadExcept.ofExcept result, workspace.files)

/-- Writes the dirty files of a store, and gives their paths. -/
def writeDirty [WorkingFolder] (files : FileStore) : Run (List String) := do
  let (_, writing) := files.writeDirty (← disk)
  modify fun session => { session with disk := writing.disk }
  tell writing.notices
  match writing.fault with
  | some fault => throw fault
  | none => return writing.written

/-- Shows a fault that the command reports, and gives the status of the command. -/
def reporting [Console] (isReported : Failure → Bool) (body : Run Unit) : Run Nat :=
  tryCatch (body *> pure 0) fun failure =>
    if isReported failure then do
      display [.failure failure.message]
      return 1
    else throw failure

end Run

section

variable [WorkingFolder] [Parser] [Yaml.Reader] [Json.Host] [Console]

/-- The layers that a command line gives. -/
def sourcesOf (options : Options) : Sources where
  rootDir := some (Path.absolute (if options.root.isEmpty then "." else options.root))
  configPath := options.config
  overrides := if options.aot then [(.text "compiled_mode", .bool true)] else []

/-- The build configuration for a command line. -/
def buildConfig (environment : Environment) (options : Options) : Run BuildConfig := do
  let disk ← Run.disk
  let answer := Service.buildConfig { sources := sourcesOf options } environment disk
  Run.tell answer.notices
  MonadExcept.ofExcept answer.result

/-- Shows the links of a project and their registry, and writes the registry into its place if that
is asked for. -/
def deepLinks (environment : Environment) (options : Options) : Run Unit := do
  let config ← buildConfig environment options
  let files ← MonadExcept.ofExcept (FileStore.loadTree (← Run.disk) config.srcDir [".ts"])
  if options.write then
    let (result, files) ← Run.ofPass (Pass.deepLink config) files
    Run.display [.links result.links, .registry result.registry]
    let written ← Run.writeDirty files
    Run.display (Display.linkingResult result.target result.replaced written)
  else
    let (links, _) ← Run.ofPass (Pass.findLinks config) files
    Run.display [.links links, .registry (Route.registryText links)]

/-- The store with the framework's barrel and, if there is one, the compiled root factory. -/
def frameworkFiles (config : BuildConfig) (disk : Disk) : Except Failure FileStore := do
  let (_, files) ← FileStore.empty.addFile disk config.frameworkEntryPoint
  if disk.isFile (Path.tidy config.rootFactoryModule) then
    return (← files.addFile disk config.rootFactoryModule).2
  else return files

/-- Shows which components are unused, and takes them out of the build if that is asked for. -/
def treeShake (environment : Environment) (options : Options) (graph : String) : Run Unit := do
  let config ← buildConfig environment options
  let graph ← Run.ofNoted (Report.load (← Run.disk) graph)
  if options.write then
    let files ← MonadExcept.ofExcept (frameworkFiles config (← Run.disk))
    let (pruning, files) ← Run.ofPass (Pass.optimize config graph) files
    let written ← Run.writeDirty files
    Run.display (Display.pruningResult pruning)
    Run.display [.success ("Rewrote " ++ toString written.length ++ " file(s)")]
  else
    let pruning := graph.unusedComponents config (ImportGraph.isEligible config)
    Run.tell [pruning.notice]
    Run.display (Display.pruningResult pruning)

def runCommand (environment : Environment) (name : Name) (options : Options) : Run Nat :=
  match name with
  | .deeplinks => Run.reporting Failure.isReported (deepLinks environment options)
  | .treeshake =>
    Run.reporting (fun failure => failure.isReported || failure.isDiskFault)
      (treeShake environment options (options.graph.getD ""))

/-- How a run ends. -/
inductive Ending where
  /-- No command was given. -/
  | nothing
  /-- The command line was answered without running a command. -/
  | stopped (asked : Option Name) (reason : Stop)
  /-- A command came to its end. -/
  | finished (status : Nat)
  /-- A command was cut short. -/
  | failed (failure : Failure)
  deriving Repr

/-- What a run leaves behind. -/
structure Outcome where
  ending : Ending
  session : Session

def Ending.status? : Ending → Option Nat
  | nothing => some 0
  | stopped _ .misuse => some 2
  | stopped .. => some 0
  | finished status => some status
  | failed _ => none

/-- Whether the help text was asked for, by name or by giving no command. -/
def Ending.showsHelp : Ending → Bool
  | nothing | stopped _ .help => true
  | _ => false

/-- What a run prints that was answered without running a command. -/
def Ending.answer : Ending → String
  | nothing => helpText none
  | stopped asked .help => helpText asked
  | stopped _ .version => versionText
  | _ => ""

/-- Runs the program on a command line. -/
def run (environment : Environment) (disk : Disk) (arguments : List String) : Outcome :=
  match readArguments arguments with
  | .nothing => ⟨.nothing, { disk }⟩
  | .stop asked reason => ⟨.stopped asked reason, { disk }⟩
  | .command name options =>
    match StateT.run (ExceptT.run (runCommand environment name options)) { disk } with
    | (.ok status, session) => ⟨.finished status, session⟩
    | (.error failure, session) => ⟨.failed failure, session⟩

end

end RouteTrim.Command
