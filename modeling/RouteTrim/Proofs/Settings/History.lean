import RouteTrim.Proofs.Settings.Layers
import RouteTrim.Yaml.Meaning
import Mathlib.Data.List.Induction

/-!
# The settings in force

A service is asked again and again while files and variables change around it. What it answers with
is told here from the history of the calls alone, without looking into the service: `InForce` says
which call composed the settings that are in force, and that no later call composed others. A call
composes when it asks for settings anew, or when nothing has been composed before it; one that fails
leaves no trace.

`kept_run_iff` is the invariant: what a service keeps after any history is what is in force.
-/

set_option autoImplicit false

namespace RouteTrim.Settings

open RouteTrim.Path (WorkingFolder)

/-! ## Calls -/

/-- What a service can be asked. -/
inductive Call where
  /-- The settings; composed anew if that is asked for. -/
  | settings (anew : Bool)
  | reload
  /-- The setting at a path, and what to answer with if there is none. -/
  | get (path : String) (default : Value)
  | buildConfig

/-- What a call is answered with. -/
inductive Reply where
  | settings (settings : Settings)
  | value (value : Value)
  | config (config : BuildConfig)

namespace Call

/-- Whether a call asks for settings anew. -/
def isAnew : Call → Bool
  | settings anew => anew
  | reload => true
  | _ => false

/-- The reply to a call that some settings give. -/
def reply (composed : Settings) : Call → Except Failure Reply
  | settings _ | reload => .ok (.settings composed)
  | get path default => .ok (.value ((composed.lookup? path).getD default))
  | buildConfig => (build composed).map .config

end Call

/-- A call, with the environment and the disk as they are when it is made. -/
structure Event where
  call : Call
  environment : Environment
  disk : Disk

/-- An answer with its result changed. -/
def Answer.map {α β : Type} (f : α → β) (answer : Answer α) : Answer β :=
  ⟨answer.service, answer.result.map f, answer.notices⟩

namespace Service

def answer [WorkingFolder] [Yaml.Reader] (service : Service) (event : Event) : Answer Reply :=
  match event.call with
  | .settings anew => (service.settings anew event.environment event.disk).map .settings
  | .reload => (service.reload event.environment event.disk).map .settings
  | .get path default => (service.get path event.environment event.disk).map
      fun found => .value (found.getD default)
  | .buildConfig => (service.buildConfig event.environment event.disk).map .config

/-- The service after a history of calls. -/
def run [WorkingFolder] [Yaml.Reader] (service : Service) (past : List Event) : Service :=
  past.foldl (fun service event => (service.answer event).service) service

end Service

/-- What the sources compose to when a call is made. -/
def composedAt [WorkingFolder] [Yaml.Reader] (sources : Sources)
    (event : Event) : Except Failure Settings :=
  (compose sources event.environment event.disk).result.1

/-! ## One call -/

theorem map_eq_bind {α β : Type} (x : Except Failure α) (f : α → β) :
    x.map f = x >>= fun a => .ok (f a) := by
  cases x <;> rfl

theorem map_bind {α β γ : Type} (x : Except Failure α) (f : α → Except Failure β) (g : β → γ) :
    (x >>= f).map g = x >>= fun a => (f a).map g := by
  cases x <;> rfl

section

variable [WorkingFolder] [Yaml.Reader] (service : Service) (event : Event)

/-- Whether a service composes settings to answer a call. -/
def Composes : Prop :=
  event.call.isAnew = true ∨ service.kept = none

theorem settings_of_kept {composed : Settings} (kept : service.kept = some composed)
    (environment : Environment) (disk : Disk) :
    service.settings false environment disk = ⟨service, .ok composed, []⟩ := by
  obtain ⟨sources, own⟩ := service
  obtain rfl : own = some composed := kept
  rfl

theorem settings_of_composes {anew : Bool} (composes : anew = true ∨ service.kept = none)
    (environment : Environment) (disk : Disk) :
    service.settings anew environment disk
      = match (compose service.sources environment disk).result with
        | (.ok composed, notices) => ⟨{ service with kept := some composed }, .ok composed, notices⟩
        | (.error failure, notices) => ⟨service, .error failure, notices⟩ := by
  unfold Service.settings
  generalize (compose service.sources environment disk).result = outcome
  obtain ⟨sources, kept⟩ := service
  cases kept with
  | none => rfl
  | some composed =>
    obtain rfl : anew = true := by simpa using composes
    rfl

theorem settings_of_composed {anew : Bool} {environment : Environment} {disk : Disk}
    (composes : anew = true ∨ service.kept = none) {composed : Settings}
    (found : (compose service.sources environment disk).result.1 = .ok composed) :
    (service.settings anew environment disk).service = { service with kept := some composed } ∧
      (service.settings anew environment disk).result = .ok composed := by
  rw [settings_of_composes service composes]
  rcases result : (compose service.sources environment disk).result with ⟨outcome, notices⟩
  rw [result] at found
  obtain rfl : outcome = .ok composed := found
  exact ⟨rfl, rfl⟩

theorem settings_of_failed {anew : Bool} {environment : Environment} {disk : Disk}
    (composes : anew = true ∨ service.kept = none) {failure : Failure}
    (found : (compose service.sources environment disk).result.1 = .error failure) :
    (service.settings anew environment disk).service = service ∧
      (service.settings anew environment disk).result = .error failure := by
  rw [settings_of_composes service composes]
  rcases result : (compose service.sources environment disk).result with ⟨outcome, notices⟩
  rw [result] at found
  obtain rfl : outcome = .error failure := found
  exact ⟨rfl, rfl⟩

theorem answer_eq : (service.answer event).service
      = (service.settings event.call.isAnew event.environment event.disk).service ∧
    (service.answer event).result
      = (service.settings event.call.isAnew event.environment event.disk).result
          >>= fun composed => event.call.reply composed := by
  obtain ⟨call, environment, disk⟩ := event
  cases call with
  | settings anew => exact ⟨rfl, map_eq_bind _ _⟩
  | reload => exact ⟨rfl, map_eq_bind _ _⟩
  | get path default =>
    refine ⟨rfl, ?_⟩
    show Except.map _ (Except.map _ (service.settings false environment disk).result)
      = (service.settings false environment disk).result >>= _
    generalize (service.settings false environment disk).result = found
    cases found <;> rfl
  | buildConfig => exact ⟨rfl, map_bind _ _ _⟩

theorem answer_of_kept {composed : Settings} (kept : service.kept = some composed)
    (again : event.call.isAnew = false) :
    (service.answer event).service = service ∧
      (service.answer event).result = event.call.reply composed := by
  obtain ⟨after, result⟩ := answer_eq service event
  rw [again, settings_of_kept service kept] at after result
  exact ⟨after, result⟩

theorem answer_of_composed (composes : Composes service event) {composed : Settings}
    (found : composedAt service.sources event = .ok composed) :
    (service.answer event).service = { service with kept := some composed } ∧
      (service.answer event).result = event.call.reply composed := by
  obtain ⟨after, result⟩ := answer_eq service event
  obtain ⟨kept, settings⟩ := settings_of_composed service composes found
  rw [settings] at result
  exact ⟨after.trans kept, result⟩

theorem answer_of_failed (composes : Composes service event) {failure : Failure}
    (found : composedAt service.sources event = .error failure) :
    (service.answer event).service = service ∧ (service.answer event).result = .error failure := by
  obtain ⟨after, result⟩ := answer_eq service event
  obtain ⟨same, settings⟩ := settings_of_failed service composes found
  rw [settings] at result
  exact ⟨after.trans same, result⟩

/-- No call changes what a service was made with. -/
theorem sources_answer : (service.answer event).service.sources = service.sources := by
  rw [(answer_eq service event).1]
  by_cases composes : Composes service event
  · rw [settings_of_composes service composes]
    rcases (compose service.sources event.environment event.disk).result with
      ⟨failure | composed, notices⟩ <;> rfl
  · obtain ⟨again, kept⟩ := not_or.1 composes
    obtain ⟨composed, kept⟩ := Option.ne_none_iff_exists'.1 kept
    have again : event.call.isAnew = false := by simpa using again
    rw [again, settings_of_kept service kept]

end

/-! ## Histories -/

section

variable [WorkingFolder] [Yaml.Reader] {sources : Sources} {past : List Event} {event : Event}

/-- Some call of a history composed these settings, because it asked for them anew or because no
call before it could compose any, and no later call composed others. -/
def InForce (sources : Sources) (past : List Event) (composed : Settings) : Prop :=
  ∃ before event after, past = before ++ event :: after ∧
    composedAt sources event = .ok composed ∧
    (event.call.isAnew = true ∨
      ∀ earlier ∈ before, ∀ other, composedAt sources earlier ≠ .ok other) ∧
    ∀ later ∈ after, later.call.isAnew = true → ∀ other, composedAt sources later ≠ .ok other

theorem run_concat (service : Service) (past : List Event) (event : Event) :
    service.run (past ++ [event]) = ((service.run past).answer event).service := by
  rw [Service.run, List.foldl_append]
  rfl

theorem sources_run (service : Service) (past : List Event) :
    (service.run past).sources = service.sources := by
  induction past using List.reverseRecOn with
  | nil => rfl
  | append_singleton past event ih => rw [run_concat, sources_answer, ih]

theorem InForce.concat {composed : Settings} (h : InForce sources past composed)
    (keeps : event.call.isAnew = true → ∀ other, composedAt sources event ≠ .ok other) :
    InForce sources (past ++ [event]) composed := by
  obtain ⟨before, made, after, rfl, found, first, last⟩ := h
  refine ⟨before, made, after ++ [event], by simp, found, first, fun later member => ?_⟩
  rcases List.mem_append.1 member with member | member
  · exact last later member
  · rw [List.mem_singleton.1 member]
    exact keeps

theorem inForce_concat {composed : Settings} (h : InForce sources (past ++ [event]) composed) :
    composedAt sources event = .ok composed ∧ (event.call.isAnew = true ∨
        ∀ earlier ∈ past, ∀ other, composedAt sources earlier ≠ .ok other) ∨
      InForce sources past composed ∧
        (event.call.isAnew = true → ∀ other, composedAt sources event ≠ .ok other) := by
  obtain ⟨before, made, after, order, found, first, last⟩ := h
  rcases List.eq_nil_or_concat' after with rfl | ⟨after, final, rfl⟩
  · obtain ⟨rfl, same⟩ := List.append_inj' order rfl
    obtain rfl : event = made := List.head_eq_of_cons_eq same
    exact .inl ⟨found, first⟩
  · rw [← List.cons_append, ← List.append_assoc] at order
    obtain ⟨rfl, same⟩ := List.append_inj' order rfl
    obtain rfl : event = final := List.head_eq_of_cons_eq same
    refine .inr ⟨⟨before, made, after, rfl, found, first, fun later member => ?_⟩, ?_⟩
    · exact last later (List.mem_append_left _ member)
    · exact last event (by simp)

/-- Nothing is in force after a history only if every composition in it would have failed. -/
theorem forall_failed_of_not_inForce (h : ∀ composed, ¬ InForce sources past composed) :
    ∀ earlier ∈ past, ∀ other, composedAt sources earlier ≠ .ok other := by
  induction past using List.reverseRecOn with
  | nil => exact List.forall_mem_nil _
  | append_singleton past event ih =>
    have failed : ∀ other, composedAt sources event ≠ .ok other := by
      intro other found
      by_cases before : ∃ composed, InForce sources past composed
      · obtain ⟨composed, before⟩ := before
        by_cases anew : event.call.isAnew = true
        · exact h other ⟨past, event, [], rfl, found, .inl anew, List.forall_mem_nil _⟩
        · exact h composed (before.concat fun again => absurd again anew)
      · have earlier := ih fun composed inForce => before ⟨composed, inForce⟩
        exact h other ⟨past, event, [], rfl, found, .inr earlier, List.forall_mem_nil _⟩
    have earlier : ∀ composed, ¬ InForce sources past composed := fun composed inForce =>
      h composed (inForce.concat fun _ => failed)
    intro other member
    rcases List.mem_append.1 member with member | member
    · exact ih earlier other member
    · rw [List.mem_singleton.1 member]
      exact failed

theorem inForce_concat_composed {other composed : Settings} (composes : event.call.isAnew = true ∨
      ∀ composed, ¬ InForce sources past composed) (found : composedAt sources event = .ok other) :
    InForce sources (past ++ [event]) composed ↔ other = composed := by
  constructor
  · intro inForce
    rcases inForce_concat inForce with ⟨same, -⟩ | ⟨before, keeps⟩
    · rw [found] at same
      exact Except.ok.inj same
    · -- A call that does not ask anew composes only where nothing is in force.
      rcases composes with anew | nothing
      · exact absurd found (keeps anew other)
      · exact absurd before (nothing composed)
  · rintro rfl
    exact ⟨past, event, [], rfl, found, composes.imp_right forall_failed_of_not_inForce,
      List.forall_mem_nil _⟩

theorem inForce_concat_failed {composed : Settings}
    (failed : ∀ other, composedAt sources event ≠ .ok other) :
    InForce sources (past ++ [event]) composed ↔ InForce sources past composed := by
  constructor
  · intro inForce
    rcases inForce_concat inForce with ⟨same, -⟩ | ⟨before, -⟩
    · exact absurd same (failed composed)
    · exact before
  · exact fun before => before.concat fun _ => failed

theorem inForce_concat_kept {held composed : Settings} (inForce : InForce sources past held)
    (again : event.call.isAnew = false) :
    InForce sources (past ++ [event]) composed ↔ InForce sources past composed := by
  have keeps (anew : event.call.isAnew = true) (other : Settings) :
      composedAt sources event ≠ .ok other := by
    rw [again] at anew
    cases anew
  constructor
  · intro after
    rcases inForce_concat after with ⟨found, anew | nothing⟩ | ⟨before, -⟩
    · exact absurd found (keeps anew composed)
    · obtain ⟨before, made, behind, rfl, found, -⟩ := inForce
      exact absurd found (nothing made (by simp) held)
    · exact before
  · exact fun before => before.concat keeps

/-- **After any history, a service keeps the settings that are in force.** -/
theorem kept_run_iff (sources : Sources) (past : List Event) (composed : Settings) :
    (Service.run { sources } past).kept = some composed ↔ InForce sources past composed := by
  induction past using List.reverseRecOn generalizing composed with
  | nil =>
    constructor
    · intro kept
      cases kept
    · rintro ⟨before, made, after, order, -⟩
      simp at order
  | append_singleton past event ih =>
    have own : (Service.run { sources } past).sources = sources := sources_run _ _
    rw [run_concat]
    by_cases composes : Composes (Service.run { sources } past) event
    · have first : event.call.isAnew = true ∨ ∀ composed, ¬ InForce sources past composed := by
        refine composes.imp_right fun nothing composed inForce => ?_
        rw [(ih composed).2 inForce] at nothing
        cases nothing
      cases found : composedAt sources event with
      | ok other =>
        rw [(answer_of_composed _ event composes (own.symm ▸ found)).1,
          inForce_concat_composed first found]
        exact Option.some_inj
      | error failure =>
        have failed : ∀ other, composedAt sources event ≠ .ok other := by
          intro other
          rw [found]
          exact fun h => nomatch h
        rw [(answer_of_failed _ event composes (own.symm ▸ found)).1, ih,
          inForce_concat_failed failed]
    · obtain ⟨again, kept⟩ := not_or.1 composes
      obtain ⟨held, kept⟩ := Option.ne_none_iff_exists'.1 kept
      have again : event.call.isAnew = false := by simpa using again
      rw [(answer_of_kept _ event kept again).1, ih, inForce_concat_kept ((ih held).1 kept) again]

end

/-! ## Layers and histories together -/

/-- The keys of a map. -/
def keysOf : Value → List Value
  | .map entries => entries.map Prod.fst
  | _ => []

/-- The answer to a call after a history of calls, by a service with nothing composed yet. -/
def answerAfter [WorkingFolder] [Yaml.Reader] (sources : Sources) (past : List Event)
    (event : Event) : Answer Reply :=
  (Service.run { sources } past).answer event

theorem field?_map (settings : Settings) (name : String) (keys : List Key) :
    Value.field? name (keys.map fun key => (.text key.name, settings.value key))
      = (keys.find? fun key => key.name == name).map settings.value := by
  induction keys with
  | nil => rfl
  | cons key keys ih =>
    have same : Value.sameKey (.text key.name) (.text name) = (key.name == name) := rfl
    rw [List.map_cons, Value.field?, same, List.find?_cons, ih]
    cases key.name == name <;> rfl

theorem valueAt?_toMap (settings : Settings) (name : String) :
    Settings.valueAt? settings.toMap [name] = (Key.ofName? name).map settings.value := by
  show (Value.field? name (Key.all.map fun key => (.text key.name, settings.value key))
    >>= fun value => some value) = _
  rw [field?_map]
  exact Option.bind_fun_some _

/-- **The settings are what the last layer says, and stay so until the next composition succeeds.**

Whatever is composed has the keys of the defaults, each with the value of the last layer that has an
entry for it; entries that nobody reads might as well be missing. A key is set by the last of the
variables that stand for it. And after any history of calls, with files and variables changing in
between, a call is answered from the settings that are in force, unless it composes others; where
composing fails, that is the answer, and what is in force stays in force. -/
theorem composition_in_force [WorkingFolder] [Yaml.Reader] (sources : Sources) :
    (∀ environment disk composed, (compose sources environment disk).result.1 = .ok composed →
      ∃ layers, layersOf sources environment disk = .ok layers ∧
        (∀ key, Decided layers key (composed.value key)) ∧
        composed = overlay defaults (layers.flatten.filter isKnown) ∧
        keysOf composed.toMap = keysOf defaults.toMap ∧
        ∀ name, Settings.valueAt? composed.toMap [name] = (Key.ofName? name).map composed.value) ∧
    (∀ (environment : Environment) key,
      variableKey? (variableStart ++ key.name.toUpper) = some key ∧
      given? (environmentLayer environment) key
        = (environment.entries.reverse.find? fun entry => decide (variableKey? entry.1 = some key)).map
            fun entry => variableValue key entry.2) ∧
    ∀ past event,
      (event.call.isAnew = false → ∀ composed, InForce sources past composed →
        (answerAfter sources past event).result = event.call.reply composed ∧
        InForce sources (past ++ [event]) composed) ∧
      (event.call.isAnew = true ∨ (∀ composed, ¬ InForce sources past composed) →
        (∀ composed, composedAt sources event = .ok composed →
          (answerAfter sources past event).result = event.call.reply composed ∧
          InForce sources (past ++ [event]) composed) ∧
        ∀ failure, composedAt sources event = .error failure →
          (answerAfter sources past event).result = .error failure ∧
          ∀ composed, InForce sources (past ++ [event]) composed
              ↔ InForce sources past composed) := by
  refine ⟨fun environment disk composed found => ?_, fun environment key =>
    ⟨variableKey?_toUpper key, given?_environmentLayer environment key⟩, fun past event => ?_⟩
  · rw [compose_eq] at found
    cases read : layersOf sources environment disk with
    | error failure =>
      rw [read] at found
      cases found
    | ok layers =>
      rw [read] at found
      obtain rfl : overlay defaults layers.flatten = composed := Except.ok.inj found
      exact ⟨layers, rfl, decided_overlay layers, (overlay_filter_isKnown _ _).symm, rfl,
        valueAt?_toMap _⟩
  · have own : (Service.run { sources } past).sources = sources := sources_run _ _
    have kept := kept_run_iff sources past
    refine ⟨fun again composed inForce => ?_, fun composes => ?_⟩
    · exact ⟨(answer_of_kept _ event ((kept composed).2 inForce) again).2,
        (inForce_concat_kept inForce again).2 inForce⟩
    · have composes' : Composes (Service.run { sources } past) event :=
        composes.imp_right fun nothing =>
          Option.eq_none_iff_forall_ne_some.2 fun composed held =>
            nothing composed ((kept composed).1 held)
      constructor
      · intro composed found
        exact ⟨(answer_of_composed _ event composes' (own.symm ▸ found)).2,
          (inForce_concat_composed composes found).2 rfl⟩
      · intro failure found
        refine ⟨(answer_of_failed _ event composes' (own.symm ▸ found)).2, fun composed => ?_⟩
        exact inForce_concat_failed fun other composedAt => by
          rw [found] at composedAt; cases composedAt

/-! ## A project with all its layers -/

/-- A root directory, a file and overrides that were asked for. -/
def layeredSources : Sources where
  rootDir := some "/p"
  configPath := some "/ci.yaml"
  overrides := [(.text "route_annotation", .null), (.text "colour", .int 1)]

/-- Variables that name a file, a module and a catalogue. -/
def layeredEnvironment : Environment :=
  .ofList [("LINKPRUNE_CONFIG", "/env.yaml"), ("LINKPRUNE_FRAMEWORK_MODULE", "Ionic"),
    ("LINKPRUNE_PROVIDERS", " alert, ,toast ")]

def layeredDisk (project : String) : Disk where
  items := .ofList [
    (["p".toList], .folder),
    (["p".toList, "linkprune.yaml".toList], .file project.toUTF8),
    (["env.yaml".toList], .file "src_dir: app\n".toUTF8),
    (["ci.yaml".toList], .file "compiled_mode: ~\nframework_module: Fw\n".toUTF8)]

/-- A call that asks for the sources, and one for everything anew. -/
def layeredCall (call : Call) (project : String) : Event :=
  ⟨call, layeredEnvironment, layeredDisk project⟩

/-- Every layer sets something here, and a value of null counts. Then the project's file is broken:
reading everything anew fails, and the next call is answered as before. -/
theorem composition_in_force_layered :
    ∃ composed, composedAt layeredSources
        (layeredCall .reload "src_dir: lib\ncompiled_mode: true\nicon: 1\n") = .ok composed ∧
      Key.all.map (fun key => (composed.value key).literal) = [
        "'/p'", "'app'", "'src/app/app.module.ts'", "'src/app/main.ts'",
        "'node_modules/ionic-angular'", "None", "None", "'.module.ts'",
        "'.ngfactory'", "'NgFactory'", "'.ngfactory.'", "None", "'NgModule'", "'Ionic'",
        "'forRoot'", "'_DeepLinkConfigToken'", "['alert', 'toast']"] ∧
      (∃ layers, layersOf layeredSources layeredEnvironment
          (layeredDisk "src_dir: lib\ncompiled_mode: true\nicon: 1\n") = .ok layers ∧
        ∀ key, Decided layers key (composed.value key)) ∧
      (answerAfter layeredSources
        [layeredCall .reload "src_dir: lib\ncompiled_mode: true\nicon: 1\n",
          layeredCall .reload "src_dir: [lib\n"]
        (layeredCall (.get "src_dir" .null) "src_dir: [lib\n")).result
          = (Call.get "src_dir" .null).reply composed := by
  have evaluated : ((composedAt layeredSources
        (layeredCall .reload "src_dir: lib\ncompiled_mode: true\nicon: 1\n")).toOption.any fun composed =>
        Key.all.map (fun key => (composed.value key).literal) = [
        "'/p'", "'app'", "'src/app/app.module.ts'", "'src/app/main.ts'",
        "'node_modules/ionic-angular'", "None", "None", "'.module.ts'",
        "'.ngfactory'", "'NgFactory'", "'.ngfactory.'", "None", "'NgModule'", "'Ionic'",
        "'forRoot'", "'_DeepLinkConfigToken'", "['alert', 'toast']"]) = true ∧
      (composedAt layeredSources (layeredCall .reload "src_dir: [lib\n")).toOption.isNone = true := by
    decide +kernel
  obtain ⟨composed, found, values⟩ := (Option.any_eq_true ..).1 evaluated.1
  have found := toOption_eq_some.1 found
  obtain ⟨failure, failed⟩ : ∃ failure, composedAt layeredSources
      (layeredCall .reload "src_dir: [lib\n") = .error failure := by
    cases broken : composedAt layeredSources (layeredCall .reload "src_dir: [lib\n") with
    | error failure => exact ⟨failure, rfl⟩
    | ok other =>
      have none := evaluated.2
      rw [broken] at none
      cases none
  obtain ⟨composition, -, calls⟩ := composition_in_force layeredSources
  have composes := found
  rw [composedAt] at composes
  obtain ⟨layers, read, decided, -⟩ := composition _ _ _ composes
  have first := (((calls [] _).2 (.inl rfl)).1 composed found).2
  have second := ((((calls _ (layeredCall .reload "src_dir: [lib\n")).2 (.inl rfl)).2 failure failed).2
    composed).2 first
  exact ⟨composed, found, of_decide_eq_true values, ⟨layers, read, decided⟩,
    ((calls _ (layeredCall (.get "src_dir" .null) "src_dir: [lib\n")).1 rfl composed second).1⟩

end RouteTrim.Settings
