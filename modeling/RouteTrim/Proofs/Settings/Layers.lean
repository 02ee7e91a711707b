import RouteTrim.Proofs.Failure
import RouteTrim.Settings.Service

/-!
# The last layer decides

Settings are composed by putting layers over each other. Since an entry only ever replaces the value
of its own key, the layers might as well be one long layer (`overlay_append`), and what a key ends
up with is the value of its last entry (`value_overlay`). So composing needs no more than the list
of layers in their order: `layersOf` reads it from the places where settings come from, and fails
where composing fails.
-/

set_option autoImplicit false

namespace RouteTrim

open RouteTrim.Path (WorkingFolder)

/-! ## Computations with notices -/

namespace Noted

variable {α β : Type}

/-- A computation ends with a result, whatever was told before. -/
def Ends (noted : Noted α) (result : Except Failure α) : Prop :=
  ∀ notices, ∃ told, StateT.run (ExceptT.run noted) notices = (result, told)

theorem Ends.result {noted : Noted α} {result : Except Failure α} (h : Ends noted result) :
    noted.result.1 = result := by
  obtain ⟨told, run⟩ := h []
  rw [Noted.result, run]

theorem ends_pure (a : α) : Ends (pure a) (.ok a) :=
  fun notices => ⟨notices, rfl⟩

theorem ends_liftM (result : Except Failure α) : Ends (liftM result) result := by
  intro notices
  cases result <;> exact ⟨notices, rfl⟩

/-- A computation goes on from where its first part ends, or ends where that fails. -/
theorem Ends.bind {noted : Noted α} {next : α → Noted β} {found : Except Failure α}
    {outcome : α → Except Failure β} (h : Ends noted found)
    (hnext : ∀ a, Ends (next a) (outcome a)) : Ends (noted >>= next) (found >>= outcome) := by
  intro notices
  obtain ⟨told, run⟩ := h notices
  rw [run_bind, run]
  cases found with
  | error failure => exact ⟨told, rfl⟩
  | ok a => exact hnext a told

theorem ends_forM_tell {γ : Type} (notice : γ → Notice) (items : List γ) :
    Ends (items.forM fun item => tell (notice item)) (.ok ()) := by
  induction items with
  | nil => exact ends_pure ()
  | cons item items ih =>
    intro notices
    exact ih (notices ++ [notice item])

end Noted

namespace Settings

/-! ## One layer -/

/-- The value that a layer gives to a key: that of its last entry for the key. -/
def given? (layer : Layer) (key : Key) : Option Value :=
  (layer.reverse.find? fun entry => decide (Key.ofValue? entry.1 = some key)).map Prod.snd

/-- Whether an entry sets something. -/
def isKnown (entry : Value × Value) : Bool :=
  (Key.ofValue? entry.1).isSome

theorem given?_append (front back : Layer) (key : Key) :
    given? (front ++ back) key = (given? back key).or (given? front key) := by
  rw [given?, List.reverse_append, List.find?_append, Option.map_or]
  rfl

theorem given?_singleton (entry : Value × Value) (key : Key) :
    given? [entry] key = if Key.ofValue? entry.1 = some key then some entry.2 else none := by
  unfold given?
  by_cases sets : Key.ofValue? entry.1 = some key <;> simp [sets]

theorem given?_cons (entry : Value × Value) (layer : Layer) (key : Key) :
    given? (entry :: layer) key
      = (given? layer key).or (if Key.ofValue? entry.1 = some key then some entry.2 else none) := by
  rw [← given?_singleton]
  exact given?_append [entry] layer key

theorem value_overlayEntry (settings : Settings) (entry : Value × Value) (key : Key) :
    (overlayEntry settings entry).value key
      = (if Key.ofValue? entry.1 = some key then some entry.2 else none).getD
          (settings.value key) := by
  unfold overlayEntry
  cases sets : Key.ofValue? entry.1 with
  | none => rfl
  | some own =>
    dsimp only
    rw [value_set]
    by_cases same : key = own
    · subst same
      rw [if_pos rfl, if_pos rfl]
      rfl
    · rw [if_neg same, if_neg fun h => same (Option.some.inj h).symm]
      rfl

theorem getD_or (first second : Option Value) (default : Value) :
    (first.or second).getD default = first.getD (second.getD default) := by
  cases first <;> rfl

/-- **The last entry for a key decides its value**; a key without an entry keeps the value that it
had. -/
theorem value_overlay (settings : Settings) (layer : Layer) (key : Key) :
    (overlay settings layer).value key = (given? layer key).getD (settings.value key) := by
  induction layer generalizing settings with
  | nil => rfl
  | cons entry layer ih =>
    have added : overlay settings (entry :: layer)
      = overlay (overlayEntry settings entry) layer := rfl
    rw [added, ih, given?_cons, getD_or, value_overlayEntry]

theorem overlay_append (settings : Settings) (front back : Layer) :
    overlay settings (front ++ back) = overlay (overlay settings front) back :=
  List.foldl_append

/-- Entries whose key nobody reads might as well be left out. -/
theorem overlay_filter_isKnown (settings : Settings) (layer : Layer) :
    overlay settings (layer.filter isKnown) = overlay settings layer := by
  induction layer generalizing settings with
  | nil => rfl
  | cons entry layer ih =>
    have added : overlay settings (entry :: layer)
      = overlay (overlayEntry settings entry) layer := rfl
    cases known : Key.ofValue? entry.1 with
    | none =>
      have same : overlayEntry settings entry = settings := by rw [overlayEntry, known]
      rw [List.filter_cons_of_neg (by simp [isKnown, known]), added, same, ih]
    | some key =>
      rw [List.filter_cons_of_pos (by simp [isKnown, known]), added, ← ih]
      rfl

/-! ## Several layers -/

/-- The value that the last of several layers with an entry for a key gives it. -/
def lastGiven? (layers : List Layer) (key : Key) : Option Value :=
  layers.reverse.findSome? fun layer => given? layer key

theorem lastGiven?_append (front back : List Layer) (key : Key) :
    lastGiven? (front ++ back) key = (lastGiven? back key).or (lastGiven? front key) := by
  rw [lastGiven?, List.reverse_append, List.findSome?_append]
  rfl

theorem lastGiven?_singleton (layer : Layer) (key : Key) :
    lastGiven? [layer] key = given? layer key := by
  rw [lastGiven?, List.reverse_singleton, List.findSome?_cons]
  cases given? layer key <;> rfl

theorem given?_flatten (layers : List Layer) (key : Key) :
    given? layers.flatten key = lastGiven? layers key := by
  induction layers with
  | nil => rfl
  | cons layer layers ih =>
    rw [List.flatten_cons, given?_append, ih, ← lastGiven?_singleton layer, ← lastGiven?_append]
    rfl

/-- What a key ends up with: the value that a layer gives it, if no later layer gives it one, or the
default that no layer touches. -/
inductive Decided (layers : List Layer) (key : Key) : Value → Prop where
  | given (before : List Layer) (layer : Layer) (after : List Layer) {value : Value} :
      layers = before ++ layer :: after → given? layer key = some value →
      (∀ later ∈ after, given? later key = none) → Decided layers key value
  | default : (∀ layer ∈ layers, given? layer key = none) →
      Decided layers key (defaults.value key)

/-- **The last layer with an entry for a key decides its value.** -/
theorem decided_overlay (layers : List Layer) (key : Key) :
    Decided layers key ((overlay defaults layers.flatten).value key) := by
  rw [value_overlay, given?_flatten]
  cases found : lastGiven? layers key with
  | none =>
    refine .default fun layer member => ?_
    exact List.findSome?_eq_none_iff.1 found layer (List.mem_reverse.2 member)
  | some value =>
    obtain ⟨after, layer, before, order, gives, later⟩ := List.findSome?_eq_some_iff.1 found
    refine .given before.reverse layer after.reverse ?_ gives fun other member => ?_
    · rw [← List.reverse_reverse layers, order]
      simp
    · exact later other (List.mem_reverse.1 member)

/-! ## The environment -/

theorem ofValue?_name (key : Key) : Key.ofValue? (.text key.name) = some key :=
  Key.ofName?_name key

/-- The environment gives a key the value of the last variable that stands for it. -/
theorem given?_environmentLayer (environment : Environment) (key : Key) :
    given? (environmentLayer environment) key
      = (environment.entries.reverse.find? fun entry => decide (variableKey? entry.1 = some key)).map
          fun entry => variableValue key entry.2 := by
  unfold environmentLayer
  induction environment.entries with
  | nil => rfl
  | cons entry entries ih =>
    obtain ⟨name, value⟩ := entry
    rw [List.reverse_cons, List.find?_append, Option.map_or, ← ih]
    cases stands : variableKey? name with
    | none => simp [stands]
    | some own =>
      rw [List.filterMap_cons_some (b := (.text own.name, variableValue own value)) (by simp [stands]),
        given?_cons, ofValue?_name]
      by_cases same : own = key
      · subst same
        simp [stands]
      · simp [stands, same]

theorem variableKey?_toUpper (key : Key) :
    variableKey? (variableStart ++ key.name.toUpper) = some key := by
  cases key <;> decide +kernel

/-! ## The layers of a composition -/

/-- The layer of the root directory that was asked for. -/
def rootLayer (rootDir : Option String) : Layer :=
  rootDir.toList.map fun path => (.text Key.rootDir.name, .text path)

def namedLayer [WorkingFolder] [Yaml.Reader] (disk : Disk) : Option String → Except Failure Layer
  | some path => if path.isEmpty then .ok [] else readFile disk path true
  | none => .ok []

/-- The settings file of the project: beside the root directory that was asked for, or where the
command runs. -/
def Sources.projectPath (sources : Sources) : String :=
  Path.join (sources.rootDir.getD ".") projectFile

/-- The layers over the defaults, in their order. -/
def layersOf [WorkingFolder] [Yaml.Reader] (sources : Sources) (environment : Environment)
    (disk : Disk) :
    Except Failure (List Layer) := do
  let project ← readFile disk sources.projectPath false
  let named ← namedLayer disk (environment.get? settingsFileVariable)
  let explicit ← namedLayer disk sources.configPath
  return [rootLayer sources.rootDir, project, named, explicit, environmentLayer environment,
    sources.overrides]

theorem base_eq
    (sources : Sources) : sources.base = overlay defaults (rootLayer sources.rootDir) := by
  unfold Sources.base
  cases sources.rootDir with
  | none => rfl
  | some path =>
    have entry : overlayEntry defaults (.text Key.rootDir.name, .text path)
        = defaults.set .rootDir (.text path) := by rw [overlayEntry, ofValue?_name]
    exact entry.symm

theorem projectPath_eq (sources : Sources) :
    Path.join (sources.base.value .rootDir).display projectFile = sources.projectPath := by
  unfold Sources.base Sources.projectPath
  cases sources.rootDir <;> rfl

theorem ends_merge (settings : Settings) (layer : Layer) :
    Noted.Ends (merge settings layer) (.ok (overlay settings layer)) :=
  (Noted.ends_forM_tell _ _).bind fun _ => Noted.ends_pure _

theorem ends_mergeFile [WorkingFolder] [Yaml.Reader] (disk : Disk) (settings : Settings)
    (path : Option String) :
    Noted.Ends (mergeFile disk settings path) ((namedLayer disk path).map (overlay settings)) := by
  have whole (read : Except Failure Layer) :
      Noted.Ends (do merge settings (← read)) (read.map (overlay settings)) := by
    have merged := (Noted.ends_liftM read).bind fun layer => ends_merge settings layer
    cases read <;> exact merged
  cases path with
  | none => exact Noted.ends_pure settings
  | some path =>
    unfold mergeFile namedLayer
    dsimp only
    split
    · exact Noted.ends_pure settings
    · exact whole (readFile disk path true)

/-- **Composing puts the layers over the defaults, one after the other**, and fails exactly where
one of the files cannot be read. -/
theorem compose_eq [WorkingFolder] [Yaml.Reader] (sources : Sources) (environment : Environment)
    (disk : Disk) :
    (compose sources environment disk).result.1
      = (layersOf sources environment disk).map fun layers => overlay defaults layers.flatten := by
  have composed := (Noted.ends_liftM (readFile disk sources.projectPath false)).bind fun project =>
    (ends_merge sources.base project).bind fun settings =>
    (ends_mergeFile disk settings (environment.get? settingsFileVariable)).bind fun settings =>
    (ends_mergeFile disk settings sources.configPath).bind fun settings =>
    ends_merge (overlay settings (environmentLayer environment)) sources.overrides
  unfold compose
  dsimp only
  rw [projectPath_eq, composed.result, layersOf]
  cases readFile disk sources.projectPath false with
  | error failure => rfl
  | ok project =>
    cases namedLayer disk (environment.get? settingsFileVariable) with
    | error failure => rfl
    | ok named =>
      cases namedLayer disk sources.configPath with
      | error failure => rfl
      | ok explicit =>
        show Except.ok _ = Except.ok _
        simp only [List.flatten_cons, List.flatten_nil, List.append_nil, overlay_append, base_eq]

end Settings

end RouteTrim
