import RouteTrim.Proofs.Failure
import RouteTrim.Settings.Build

/-!
# What a build takes from its settings

Making a build configuration may fail in several places, but where it succeeds each of its parts is
read from one setting. `Built` says from which one, so that nothing else has to walk through the
making.
-/

set_option autoImplicit false

namespace RouteTrim.Settings

/-- The text of a root directory; a value that counts as not given stands for where the command
runs. -/
def rootText (value : Value) : String :=
  if value.isTruthy then value.display else "."

/-- A build configuration with the mode and the paths that some settings give it. -/
structure Built (settings : Settings) (config : BuildConfig) : Prop where
  rootDir : config.rootDir = Path.normalize (rootText (settings.value .rootDir))
  compiledMode : readBool .compiledMode (settings.value .compiledMode) = .ok config.compiledMode
  srcDir : config.srcDir = resolvePath config.rootDir (settings.value .srcDir)
  rootDescriptorPath : config.rootDescriptorPath
    = resolvePath config.rootDir (settings.value .rootDescriptorPath)
  appEntryPoint : config.appEntryPoint
    = resolvePath config.rootDir (settings.value .appEntryPoint)
  frameworkDir : config.frameworkDir = resolvePath config.rootDir (settings.value .frameworkDir)
  frameworkEntryPoint : config.frameworkEntryPoint
    = if (resolvePath config.rootDir (settings.value .frameworkEntryPoint)).isEmpty
      then Path.join config.frameworkDir "index.js"
      else resolvePath config.rootDir (settings.value .frameworkEntryPoint)

/-- Making a build configuration succeeds with a root descriptor that is given, and reads the
entries of the catalogue one by one. -/
theorem exists_of_build {settings : Settings} {config : BuildConfig}
    (h : build settings = .ok config) : Built settings config ∧
      (settings.value .rootDescriptorPath).isTruthy = true ∧
      ∃ entries, catalogueEntries (settings.value .providers) = .ok entries ∧
        entries.mapM (readProvider config.frameworkDir) = .ok config.providers := by
  unfold build at h
  dsimp only at h
  split at h
  · obtain ⟨_, given, -⟩ := bind_eq_ok.1 h
    exact absurd given (by simp [throw, throwThe, MonadExceptOf.throw])
  · next given =>
    obtain ⟨compiledMode, mode, h⟩ := bind_eq_ok.1 h
    obtain ⟨entries, hentries, h⟩ := bind_eq_ok.1 h
    obtain ⟨providers, hproviders, h⟩ := bind_eq_ok.1 h
    obtain rfl := Except.ok.inj h
    exact ⟨⟨rfl, mode, rfl, rfl, rfl, rfl, rfl⟩, by simpa using given,
      entries, hentries, hproviders⟩

theorem built_of_build {settings : Settings} {config : BuildConfig}
    (h : build settings = .ok config) : Built settings config :=
  (exists_of_build h).1

end RouteTrim.Settings
