import RouteTrim.Command.Run
import RouteTrim.Proofs.Failure

/-!
# What commands do to the disk

Commands give notices and show things as they go, but what they do next depends on the disk alone,
unless the console cannot show something. So a part of a command is described by what it ends with:
a result, or the failure that stopped it, and the disk (`Run.Ends`). What is shown ends with nothing
or with the refusal of the console (`Run.Showing`), and the disk stays as it is.
-/

set_option autoImplicit false

namespace RouteTrim.Command

open RouteTrim.Path (WorkingFolder)
open RouteTrim.Settings (BuildConfig Environment Service)
open RouteTrim.Tree (Parser)

namespace Run

variable {α β : Type} {disk between after : Disk}

/-- A part of a command that starts from a disk ends with a result and with a disk, whatever was
told and shown before. -/
def Ends (run : Run α) (disk : Disk) (result : Except Failure α) (after : Disk) : Prop :=
  ∀ session : Session, session.disk = disk →
    ∃ session' : Session, session'.disk = after ∧
      StateT.run (ExceptT.run run) session = (result, session')

theorem Ends.bind {run : Run α} {next : α → Run β} {a : α} {result : Except Failure β}
    (h : Ends run disk (.ok a) between) (hnext : Ends (next a) between result after) :
    Ends (run >>= next) disk result after := by
  intro session hdisk
  obtain ⟨session', hbetween, h⟩ := h session hdisk
  rw [run_bind, h]
  exact hnext session' hbetween

theorem Ends.bind_error {run : Run α} {next : α → Run β} {failure : Failure}
    (h : Ends run disk (.error failure) after) :
    Ends (run >>= next) disk (.error failure) after := by
  intro session hdisk
  obtain ⟨session', hafter, h⟩ := h session hdisk
  rw [run_bind, h]
  exact ⟨session', hafter, rfl⟩

theorem ends_pure (a : α) : Ends (pure a) disk (.ok a) disk :=
  fun session hdisk => ⟨session, hdisk, rfl⟩

theorem ends_throw (failure : Failure) : Ends (throw failure : Run α) disk (.error failure) disk :=
  fun session hdisk => ⟨session, hdisk, rfl⟩

theorem ends_ofExcept {found result : Except Failure α} (h : found = result) :
    Ends (MonadExcept.ofExcept found) disk result disk := by
  intro session hdisk
  subst h
  cases found <;> exact ⟨session, hdisk, rfl⟩

theorem ends_disk : Ends Run.disk disk (.ok disk) disk := by
  rintro session rfl
  exact ⟨session, rfl, rfl⟩

theorem ends_tell (notices : List Notice) : Ends (tell notices) disk (.ok ()) disk := by
  rintro session rfl
  exact ⟨{ session with notices := session.notices ++ notices }, rfl, rfl⟩

/-- What showing things ends with. -/
def shown? [Console] (items : List Display) : Except Failure Unit :=
  if items.all Console.shows then .ok () else .error .notShown

/-- Showing things leaves the disk. -/
theorem ends_display [Console] (items : List Display) :
    Ends (display items) disk (shown? items) disk := by
  unfold shown?
  induction items with
  | nil => exact ends_pure ()
  | cons item items ih =>
    rw [List.all_cons]
    rintro session rfl
    rw [display]
    cases Console.shows item with
    | false => exact ⟨session, rfl, rfl⟩
    | true => exact ih { session with shown := session.shown ++ [item] } rfl

/-- A part of a command went through, or the console could not show something. -/
inductive Showing [Console] : Except Failure Unit → Prop
  | shown : Showing (.ok ())
  | refused (item : Display) : Console.shows item = false → Showing (.error .notShown)

theorem showing_shown? [Console] (items : List Display) : Showing (shown? items) := by
  unfold shown?
  split
  · exact .shown
  · next refused =>
    obtain ⟨item, -, shows⟩ := List.all_eq_false.1 (Bool.eq_false_iff.2 refused)
    exact .refused item (Bool.eq_false_iff.2 shows)

theorem Showing.bind [Console] {first next : Except Failure Unit} (h : Showing first)
    (hnext : Showing next) : Showing (first >>= fun _ => next) := by
  cases h with
  | shown => exact hnext
  | refused item shows => exact .refused item shows

/-- The build configuration is read, and nothing is written. -/
theorem ends_buildConfig [WorkingFolder] [Yaml.Reader]
    {environment : Environment} {options : Options} {result : Except Failure BuildConfig}
    (h : (Service.buildConfig { sources := sourcesOf options } environment disk).result
      = result) : Ends (buildConfig environment options) disk result disk :=
  ends_disk.bind ((ends_tell _).bind (ends_ofExcept h))

theorem ends_ofPass {pass : Pass α} {files : FileStore} {result : Except Failure α}
    {workspace : Workspace} (h : Pass.run pass files = (result, workspace)) :
    Ends (ofPass pass files) disk (result.map fun found => (found, workspace.files)) disk := by
  unfold ofPass
  rw [h]
  cases result with
  | error failure => exact (ends_tell _).bind (ends_ofExcept rfl).bind_error
  | ok found => exact (ends_tell _).bind ((ends_ofExcept rfl).bind (ends_pure _))

/-- What a command goes on with that wrote some files. -/
def written? (writing : FileStore.Writing) : Except Failure (List String) :=
  match writing.fault with
  | some fault => .error fault
  | none => .ok writing.written

theorem ends_writeDirty [WorkingFolder] {files : FileStore} {writing : FileStore.Writing}
    (h : files.writeFiles files.dirtyPaths disk = writing) :
    Ends (writeDirty files) disk (written? writing) writing.disk := by
  have stored : Ends (modify fun session => { session with disk := writing.disk } : Run Unit) disk
      (.ok ()) writing.disk :=
    fun session _ => ⟨{ session with disk := writing.disk }, rfl, rfl⟩
  subst h
  refine ends_disk.bind (stored.bind ((ends_tell _).bind ?_))
  unfold written?
  cases (files.writeFiles files.dirtyPaths disk).fault with
  | some fault => exact ends_throw fault
  | none => exact ends_pure _

/-- The status of a command by how its body ends. A failure that is not reported ends the run. -/
def status? (isReported : Failure → Bool) : Except Failure Unit → Except Failure Nat
  | .ok () => .ok 0
  | .error failure => if isReported failure then .ok 1 else .error failure

/-- A failure is taken up over the disk that it leaves. -/
theorem Ends.tryCatch_error {run : Run α} {handle : Failure → Run α} {failure : Failure}
    {result : Except Failure α} (h : Ends run disk (.error failure) between)
    (next : Ends (handle failure) between result after) :
    Ends (tryCatch run handle) disk result after := by
  intro session hdisk
  obtain ⟨session', hbetween, h⟩ := h session hdisk
  rw [run_tryCatch, h]
  exact next session' hbetween

theorem Ends.tryCatch_ok {run : Run α} {handle : Failure → Run α} {a : α}
    (h : Ends run disk (.ok a) after) : Ends (tryCatch run handle) disk (.ok a) after := by
  intro session hdisk
  obtain ⟨session', hafter, h⟩ := h session hdisk
  rw [run_tryCatch, h]
  exact ⟨session', hafter, rfl⟩

/-- A command ends with the status of its body, unless the console cannot show the message of a
failure that is to be reported. -/
theorem Ends.reporting [Console] {body : Run Unit} {result : Except Failure Unit}
    (h : Ends body disk result after) (isReported : Failure → Bool) :
    ∃ status, Ends (reporting isReported body) disk status after ∧
      (status = status? isReported result ∨ status = .error .notShown ∧
        (∃ failure, result = .error failure ∧ isReported failure = true) ∧
        ∃ item, Console.shows item = false) := by
  unfold Run.reporting
  cases result with
  | ok _ =>
    have done : Ends (body *> pure 0) disk (.ok 0) after := h.bind (ends_pure 0)
    exact ⟨_, done.tryCatch_ok, .inl rfl⟩
  | error failure =>
    have failed : Ends (body *> pure 0) disk (.error failure : Except Failure Nat) after := h.bind_error
    rw [status?]
    cases reported : isReported failure with
    | false =>
      refine ⟨_, failed.tryCatch_error ?_, .inl rfl⟩
      rw [reported]
      exact ends_throw failure
    | true =>
      have ends : Ends _ after _ after := ends_display [.failure failure.message]
      have showing := showing_shown? [.failure failure.message]
      generalize shown? [.failure failure.message] = result at ends showing
      cases showing with
      | shown =>
        refine ⟨_, failed.tryCatch_error ?_, .inl rfl⟩
        rw [reported]
        exact ends.bind (ends_pure 1)
      | refused item refuses =>
        refine ⟨_, failed.tryCatch_error ?_, .inr ⟨rfl, ⟨failure, rfl, reported⟩, item, refuses⟩⟩
        rw [reported]
        exact ends.bind_error

end Run

def Ending.ofResult : Except Failure Nat → Ending
  | .ok status => .finished status
  | .error failure => .failed failure

/-- Whether a run was cut short by the console. -/
def Ending.wasRefused : Ending → Bool
  | .failed .notShown => true
  | _ => false

/-- A run was cut short by the console, which cannot show something. -/
def Ending.IsRefused [Console] (ending : Ending) : Prop :=
  ending.wasRefused = true ∧ ∃ item, Console.shows item = false

section

variable [WorkingFolder] [Parser] [Yaml.Reader] [Json.Host] [Console] {environment : Environment}
  {disk after : Disk} {arguments : List String} {name : Name} {options : Options} {body : Run Unit}
  {isReported : Failure → Bool} {result : Except Failure Unit}

theorem run_of_ends {status : Except Failure Nat}
    (asked : readArguments arguments = .command name options)
    (h : Run.Ends (runCommand environment name options) disk status after) :
    (run environment disk arguments).ending = .ofResult status ∧
      (run environment disk arguments).session.disk = after := by
  obtain ⟨session, hafter, ended⟩ := h { disk } rfl
  unfold run
  rw [asked]
  dsimp only
  rw [ended]
  cases status <;> exact ⟨rfl, hafter⟩

/-- A run of a command ends with the status of what the command does, unless a message is not
shown. -/
theorem run_of_body (asked : readArguments arguments = .command name options)
    (command : runCommand environment name options = Run.reporting isReported body)
    (h : Run.Ends body disk result after) :
    (run environment disk arguments).session.disk = after ∧
      ((run environment disk arguments).ending = .ofResult (Run.status? isReported result) ∨
        (run environment disk arguments).ending.IsRefused ∧
          ∃ failure, result = .error failure ∧ isReported failure = true) := by
  obtain ⟨status, ends, same | ⟨rfl, reported, refused⟩⟩ := h.reporting isReported
  · rw [← command] at ends
    obtain ⟨ending, hafter⟩ := run_of_ends asked ends
    exact ⟨hafter, .inl (same ▸ ending)⟩
  · rw [← command] at ends
    obtain ⟨ending, hafter⟩ := run_of_ends asked ends
    exact ⟨hafter, .inr ⟨⟨by rw [ending]; rfl, refused⟩, reported⟩⟩

theorem run_of_showing (asked : readArguments arguments = .command name options)
    (command : runCommand environment name options = Run.reporting isReported body)
    (unreported : isReported .notShown = false) (h : Run.Ends body disk result after)
    (showing : Run.Showing result) :
    (run environment disk arguments).session.disk = after ∧
      ((run environment disk arguments).ending.status? = some 0 ∨
        (run environment disk arguments).ending.IsRefused) := by
  obtain ⟨hafter, ending | ⟨refused, -⟩⟩ := run_of_body asked command h
  · refine ⟨hafter, ?_⟩
    rw [ending]
    cases showing with
    | shown => exact .inl rfl
    | refused item refuses =>
      rw [Run.status?, unreported]
      exact .inr ⟨rfl, item, refuses⟩
  · exact ⟨hafter, .inr refused⟩

end

end RouteTrim.Command
