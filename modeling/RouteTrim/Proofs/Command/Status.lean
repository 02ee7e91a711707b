import RouteTrim.Proofs.Command.Targets
import RouteTrim.Proofs.Graph.Loading
import RouteTrim.Proofs.Json.Limits

/-!
# The status of tree shaking

A run of tree shaking ends with the status 0 or 1, unless something that no rule covers cuts it
short. With settings that make a configuration, that is a report whose fault is not foreseen, a file
of the framework whose bytes are no text, or something that the console cannot show
(`run_treeShake_status`). The ways in which tree shaking ends are those of `Shaken`; each of them is
looked at once.
-/

set_option autoImplicit false

namespace RouteTrim.Command

open RouteTrim.Pass
open RouteTrim.Path (WorkingFolder)
open RouteTrim.Report (IsUndecodable Unforeseen)
open RouteTrim.Settings (BuildConfig Environment Service)
open RouteTrim.Tree (Parser)

section

variable {environment : Environment} {options : Options} {disk after : Disk} {config : BuildConfig}
  {graph : String} {result : Except Failure Unit} {failure : Failure}

/-- The framework's files are read, but for faults of the disk and for bytes that are no text. -/
theorem frameworkFiles_eq_error [WorkingFolder] (h : frameworkFiles config disk = .error failure) :
    failure.isDiskFault = true ∨
      ∃ target ∈ frameworkTargets config, IsUndecodable disk target := by
  have unread {files : FileStore} {path : String} (target : path ∈ frameworkTargets config)
      (h : files.addFile disk path = .error failure) :
      failure.isDiskFault = true
          ∨ ∃ target ∈ frameworkTargets config, IsUndecodable disk target := by
    rcases bind_eq_error.1 h with h | ⟨text, -, h⟩
    · exact (Disk.readText_eq_error h).imp_right fun ⟨_, undecodable⟩ => ⟨path, target, undecodable⟩
    · cases h
  unfold frameworkFiles at h
  rcases bind_eq_error.1 h with h | ⟨⟨barrel, loaded⟩, -, h⟩
  · exact unread (.head _) h
  · dsimp only at h
    split at h
    · rcases bind_eq_error.1 h with h | ⟨_, -, h⟩
      · exact unread (.tail _ (.head _)) h
      · cases h
    · cases h

theorem not_isUnforeseen (covered : failure.isReported = true ∨ failure.isDiskFault = true) :
    failure.isUnforeseen = false := by
  rw [Failure.isUnforeseen_eq]
  rcases covered with h | h <;> simp [h]

variable [WorkingFolder] [Yaml.Reader] [Json.Host] [Console]

/-- A report whose fault is not foreseen stops tree shaking, over the disk as it is. -/
theorem Shaken.of_unforeseen (shaken : Shaken environment options graph disk result after)
    (built : (Service.buildConfig { sources := sourcesOf options } environment disk).result
      = .ok config) (unforeseen : Unforeseen disk graph) :
    ∃ failure, result = .error failure ∧ failure.isUnforeseen = true ∧ after = disk := by
  obtain ⟨failure, fails, uncovered⟩ :
      ∃ failure, (Report.load disk graph).result.1 = .error failure ∧
        failure.isUnforeseen = true :=
    (Report.load_cases disk graph).elim And.right fun h => absurd unforeseen h.1
  cases shaken with
  | unbuilt fault => cases built.symm.trans fault
  | unloaded _ unloaded =>
    obtain rfl := Except.error.inj (fails.symm.trans unloaded)
    exact ⟨_, rfl, uncovered, rfl⟩
  | shown _ loaded | unread _ loaded | lacking _ _ loaded | written _ _ loaded =>
    cases fails.symm.trans loaded

/-- **What stops tree shaking is foreseen**, apart from the report, the bytes of the framework's
files and the console. -/
theorem Shaken.foreseen (shaken : Shaken environment options graph disk result after)
    (built : (Service.buildConfig { sources := sourcesOf options } environment disk).result
      = .ok config) (foreseen : ¬ Unforeseen disk graph) :
    Run.Showing result ∨ (∃ failure, result = .error failure ∧ failure.isUnforeseen = false) ∨
      options.write = true ∧ ∃ target ∈ frameworkTargets config, IsUndecodable disk target := by
  cases shaken with
  | unbuilt fault => cases built.symm.trans fault
  | unloaded _ unloaded =>
    rcases Report.load_cases disk graph with
      ⟨unforeseen, -⟩ | ⟨-, ⟨report, loaded⟩ | ⟨_, fails, reported⟩⟩
    · exact absurd unforeseen foreseen
    · cases unloaded.symm.trans loaded
    · obtain rfl := Except.error.inj (unloaded.symm.trans fails)
      exact .inr (.inl ⟨_, rfl, not_isUnforeseen (.inl reported)⟩)
  | shown _ _ _ showing => exact .inl showing
  | unread described _ write unread =>
    obtain rfl := Except.ok.inj (built.symm.trans described)
    rcases frameworkFiles_eq_error unread with fault | undecodable
    · exact .inr (.inl ⟨_, rfl, not_isUnforeseen (.inr fault)⟩)
    · exact .inr (.inr ⟨write, undecodable⟩)
  | lacking path => exact .inr (.inl ⟨_, rfl, rfl⟩)
  | @written _ _ _ shaken =>
    unfold pruned? Run.written?
    cases fault : (shaken.writeFiles shaken.dirtyPaths disk).fault with
    | none => exact .inl ((Run.showing_shown? _).bind (Run.showing_shown? _))
    | some found =>
      exact .inr (.inl ⟨found, rfl, not_isUnforeseen (.inr (FileStore.isDiskFault_of_writeFiles fault))⟩)

/-- A run of tree shaking has no status if the fault of its report is not foreseen. Otherwise it
ends with the status 0 or 1, if the console shows what it is to show. -/
theorem run_treeShake_status [Parser] {arguments : List String}
    (asked : readArguments arguments = .command .treeshake options)
    (built : (Service.buildConfig { sources := sourcesOf options } environment disk).result
      = .ok config) :
    let outcome := run environment disk arguments
    (Unforeseen disk (options.graph.getD "") →
      outcome.ending.status? = none ∧ outcome.session.disk = disk) ∧
    (¬ Unforeseen disk (options.graph.getD "") →
      outcome.ending.status? = some 0 ∨ outcome.ending.status? = some 1 ∨ outcome.ending.IsRefused ∨
        options.write = true ∧ ∃ target ∈ frameworkTargets config, IsUndecodable disk target) := by
  obtain ⟨result, after, body, shaken⟩ :=
    ends_treeShake environment options (options.graph.getD "") disk
  obtain ⟨hdisk, ending⟩ := run_of_body asked rfl body
  refine ⟨fun unforeseen => ?_, fun foreseen => ?_⟩
  · obtain ⟨failure, rfl, uncovered, rfl⟩ := shaken.of_unforeseen built unforeseen
    rw [Failure.isUnforeseen_eq, Bool.not_eq_true'] at uncovered
    rcases ending with ending | ⟨-, _, ⟨⟩, reported⟩
    · rw [ending, Run.status?, uncovered]
      exact ⟨rfl, hdisk⟩
    · exact absurd reported (Bool.eq_false_iff.1 uncovered)
  · rcases shaken.foreseen built foreseen with showing | ⟨failure, rfl, covered⟩ | undecodable
    · exact (run_of_showing asked rfl rfl body showing).2.imp_right fun refused =>
        .inr (.inl refused)
    · rcases ending with ending | ⟨refused, -⟩
      · rw [Failure.isUnforeseen_eq, Bool.not_eq_false'] at covered
        rw [ending, Run.status?, covered]
        exact .inr (.inl rfl)
      · exact .inr (.inr (.inl refused))
    · exact .inr (.inr (.inr undecodable))

end

/-- **A report is answered exactly if what is wrong with it is foreseen.** Loading gives a graph or
a failure that a command reports, and tree shaking ends with the status 0 or 1, for every file but
three kinds: bytes that are no text, a text beyond the limits of the JSON reader, and a JSON object
with a list of modules in which something is no entry of the expected shape. Those end the run, over
the disk as it is. So a map of names to lists of names is read, unless it has a list of modules that
is not empty.

Two things besides the report can cut a run short: the bytes of the framework's files have to be
texts too, if those are to be written, and the console has to have characters for what is shown. -/
theorem reports_answered [WorkingFolder] [Parser] [Yaml.Reader] [Json.Host] [Console] (disk : Disk)
    (path : String) :
    (Report.isAnswered (Report.load disk path).result.1 = true ↔ ¬ Unforeseen disk path) ∧
    (∀ entries : List (Value × Value),
      (∀ entry ∈ entries, ∃ names : List String, entry.2 = .list (names.map .text)) →
      ((∃ graph, Report.read (.map entries) = .ok graph) ↔
        ∀ modules, Report.modules? (.map entries) = some modules → modules = [])) ∧
    ∀ (environment : Environment) (arguments : List String) (options : Options)
      (config : BuildConfig), readArguments arguments = .command .treeshake options →
      (Service.buildConfig { sources := sourcesOf options } environment disk).result = .ok config →
      let outcome := run environment disk arguments
      (Unforeseen disk (options.graph.getD "") →
        outcome.ending.status? = none ∧ outcome.session.disk = disk) ∧
      (¬ Unforeseen disk (options.graph.getD "") →
        outcome.ending.status? = some 0 ∨ outcome.ending.status? = some 1
          ∨ outcome.ending.IsRefused ∨
          options.write = true ∧ ∃ target ∈ frameworkTargets config, IsUndecodable disk target) :=
  ⟨Report.isAnswered_load disk path, fun _ lists => Report.read_plain lists,
    fun _ _ _ _ asked built => run_treeShake_status asked built⟩

def reportDisk (bytes : ByteArray) : Disk :=
  Disk.empty.makeFile [['g']] bytes

/-- The command line that asks for the report. -/
def reportArguments : List String :=
  ["treeshake", "--root", "/", "/g"]

/-- What the command line asks for. -/
def reportOptions : Options :=
  { root := "/", graph := some "/g" }

def reportEnding (bytes : ByteArray) : Ending :=
  (run plainEnvironment (reportDisk bytes) reportArguments).ending

theorem readArguments_reportArguments :
    readArguments reportArguments = .command .treeshake reportOptions := by
  decide +kernel

/-- Whether the settings of the command line make a configuration beside a report. -/
def reportBuilds (bytes : ByteArray) : Bool :=
  (Service.buildConfig { sources := sourcesOf reportOptions } plainEnvironment
    (reportDisk bytes)).result.toOption.isSome

/-- A report is answered by a graph, and one with a name in its list of modules is not. -/
theorem reports_answered_names :
    let plain := "\x7b\"/a\":[\"/b\"]\x7d".toUTF8
    let named := "\x7b\"modules\":[\"/b\"]\x7d".toUTF8
    ((reportEnding plain).status? = some 0 ∨ (reportEnding plain).status? = some 1) ∧
      (reportEnding named).status? = none := by
  intro plain named
  have answers {bytes : ByteArray} (builds : reportBuilds bytes = true) :
      (Report.isAnswered (Report.load (reportDisk bytes) "/g").result.1 = false →
        (reportEnding bytes).status? = none) ∧
      (Report.isAnswered (Report.load (reportDisk bytes) "/g").result.1 = true →
        (reportEnding bytes).wasRefused = false →
        (reportEnding bytes).status? = some 0 ∨ (reportEnding bytes).status? = some 1) := by
    obtain ⟨loaded, -, status⟩ := reports_answered (reportDisk bytes) "/g"
    obtain ⟨config, built⟩ := Option.isSome_iff_exists.1 builds
    obtain ⟨cut, ended⟩ :=
      status _ _ _ config readArguments_reportArguments (toOption_eq_some.1 built)
    refine ⟨fun cutShort => (cut (Classical.not_not.1 fun foreseen => ?_)).1,
      fun answered shown => ?_⟩
    · exact Bool.false_ne_true (cutShort.symm.trans (loaded.2 foreseen))
    · rcases ended (loaded.1 answered) with zero | one | ⟨refused, -⟩ | ⟨write, -⟩
      · exact .inl zero
      · exact .inr one
      · exact absurd refused (Bool.eq_false_iff.1 shown)
      · cases write
  exact ⟨(answers (by decide +kernel)).2 (by decide +kernel) (by decide +kernel),
    (answers (by decide +kernel)).1 (by decide +kernel)⟩

theorem not_answered_of_unforeseen {bytes : ByteArray} (builds : reportBuilds bytes = true)
    (unforeseen : Unforeseen (reportDisk bytes) "/g") :
    Report.isAnswered (Report.load (reportDisk bytes) "/g").result.1 = false ∧
      (reportEnding bytes).status? = none := by
  obtain ⟨config, built⟩ := Option.isSome_iff_exists.1 builds
  refine ⟨Bool.eq_false_iff.2 fun answered => (Report.isAnswered_load _ _).1 answered unforeseen, ?_⟩
  exact ((run_treeShake_status readArguments_reportArguments (toOption_eq_some.1 built)).1 unforeseen).1

theorem reads_reportDisk {text : String} (lines : '\r' ∉ text.toList) {result : Except Unread Value}
    (read : Json.read text = result) : Report.Reads (reportDisk text.toUTF8) "/g" result := by
  have found : (reportDisk text.toUTF8).readText (Path.tidy "/g") = .ok (Disk.readBack text) :=
    Disk.readText_eq_ok.2 ⟨[['g']], text.toUTF8, rfl, rfl, Disk.textOf_toUTF8 text⟩
  rw [Disk.readBack_eq_self lines] at found
  exact ⟨text, found, read⟩

/-- **Four kinds of reports are not answered**: bytes that are no text, a map of names to lists of
names one of which is called `modules`, lists in one another beyond the host's depth, and a number
that is too long. A report may also be loaded and then not be shown, for the surrogates in its
names. -/
theorem reports_unanswered :
    let unanswered (bytes : ByteArray) : Prop :=
      Report.isAnswered (Report.load (reportDisk bytes) "/g").result.1 = false ∧
        (reportEnding bytes).status? = none
    unanswered ⟨#[0xff]⟩ ∧ unanswered "\x7b\"modules\":[\"/a\"]\x7d".toUTF8 ∧
    unanswered (String.ofList (Json.brackets 100000)).toUTF8 ∧
    unanswered (String.ofList (List.replicate 4301 '1')).toUTF8 ∧
    let bytes := "\x7b\"/components/\\ud800.js\":[],\"/components/\\ud801.js\":[]\x7d".toUTF8
    Report.isAnswered (Report.load (reportDisk bytes) "/g").result.1 = true ∧
      (reportEnding bytes).status? = none ∧ (reportEnding bytes).wasRefused = true := by
  refine ⟨by decide +kernel, by decide +kernel, ?_, ?_, by decide +kernel⟩
  · have read := Json.read_nested 100000
    rw [if_neg (by decide)] at read
    refine not_answered_of_unforeseen rfl (.inr (.inl (reads_reportDisk (fun h => ?_) read)))
    rw [String.toList_ofList] at h
    rcases Json.mem_brackets h with h | h <;> cases h
  · have digits : Json.AreDigits (List.replicate 4301 '1') := by
      refine ⟨fun c hc => ?_, '1', List.replicate 4300 '1', rfl, by decide⟩
      rw [List.eq_of_mem_replicate hc]
      rfl
    have read := Json.read_digits digits
    rw [if_neg (by rw [List.length_replicate]; decide)] at read
    refine not_answered_of_unforeseen rfl (.inr (.inl (reads_reportDisk (fun h => ?_) read)))
    rw [String.toList_ofList] at h
    cases List.eq_of_mem_replicate h

end RouteTrim.Command
