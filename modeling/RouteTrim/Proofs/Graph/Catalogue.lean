import RouteTrim.Proofs.Graph.Comparison

/-!
# The order of the catalogue

The pass over the services visits each of them once for its controller and once for its user
interface. A release in a later turn can take an importer from a controller whose turn is over, and
what is then left of its importers may be the root factory alone, or nothing. So in general the
order of the catalogue decides (`catalogue_order_matters`).

It does not while the catalogue is `Steady`: apart from the root factory, no module that imports a
controller goes in the pass. Then a controller's turn finds it as the end of the pass does, the pass
is `Complete`, and a complete result is ahead of every stage of every other order
(`Complete.releaseProviders`). Two orders are ahead of each other and so leave the same.
-/

set_option autoImplicit false

namespace RouteTrim.ImportGraph

open RouteTrim.Settings (BuildConfig Provider)

variable {graph start before left : ImportGraph} {config : BuildConfig}
  {eligible : String → Bool} {entry importer : String} {provider : Provider}

instance (start graph : ImportGraph) (module : String) : Decidable (Died start graph module) :=
  inferInstanceAs (Decidable (_ ∧ _))

/-- Between two graphs, none of the modules dies that import a controller, apart from the root
factory. -/
def Steady (config : BuildConfig) (before left : ImportGraph) : Prop :=
  ∀ provider ∈ config.providers, ∀ importer ∈ before.importers provider.controllerPath,
    importer ≠ config.rootFactoryModule → ¬ Died before left importer

instance (config : BuildConfig) (before left : ImportGraph) :
    Decidable (Steady config before left) :=
  inferInstanceAs (Decidable (∀ provider ∈ config.providers, ∀ importer ∈ _, _ → _))

/-- Nothing is left to release: no controller is imported by the root factory alone, and no user
interface is imported by the factory once its controller has no importers. -/
structure Complete (config : BuildConfig) (left : ImportGraph) : Prop where
  controllers : ∀ provider ∈ config.providers,
    isOnlyImporter config.rootFactoryModule (left.importers provider.controllerPath) = false
  components : ∀ provider ∈ config.providers, left.get? provider.controllerPath = some [] →
    config.rootFactoryModule ∉ left.importers provider.componentFactoryPath

/-! ## A turn in the middle of the pass -/

theorem within_foldl {step : ImportGraph → Provider → ImportGraph}
    (within : ∀ graph provider, Within (step graph provider) graph) (providers : List Provider)
    (graph : ImportGraph) : Within (providers.foldl step graph) graph := by
  induction providers generalizing graph with
  | nil => exact .refl graph
  | cons provider providers ih => exact (ih (step graph provider)).trans (within graph provider)

/-- The turn of a service comes between what was there before the pass and what is left. -/
theorem exists_turn {step : ImportGraph → Provider → ImportGraph}
    (within : ∀ graph provider, Within (step graph provider) graph) {providers : List Provider}
    (listed : provider ∈ providers) (graph : ImportGraph) :
    ∃ turn, Within turn graph ∧ Within (providers.foldl step graph) (step turn provider) := by
  obtain ⟨front, back, rfl⟩ := List.append_of_mem listed
  refine ⟨front.foldl step graph, within_foldl within front graph, ?_⟩
  rw [List.foldl_append, List.foldl_cons]
  exact within_foldl within back _

theorem within_releaseProviders (graph : ImportGraph) (config : BuildConfig) :
    Within (graph.releaseProviders config) graph :=
  (within_foldl (within_releaseComponent _) _ _).trans (within_foldl (within_releaseController _) _ _)

/-! ## What a steady pass leaves -/

/-- An importer of any module is gone after the pass for one of two reasons: it is the root factory,
or it has died in the pass. -/
theorem died_of_gone {dead dead' : List String} {module : String}
    (account : Accounted config entry start before dead [])
    (account' : Accounted config entry start left dead' [])
    (there : importer ∈ before.importers module) (gone : importer ∉ left.importers module)
    (other : importer ≠ config.rootFactoryModule) : Died before left importer := by
  have inStart := account.within.importers module importer there
  rcases account'.excused module importer inStart gone with h | h | ⟨h, -⟩
  · rw [h] at there
    exact absurd there (account.settled.entry module)
  · obtain ⟨had, empty⟩ := (account'.died importer).1 h
    exact ⟨fun none => account.settled.died importer ⟨had, none⟩ module there, empty⟩
  · exact absurd h other

theorem Steady.mem_importers {dead dead' : List String} (steady : Steady config before left)
    (account : Accounted config entry start before dead [])
    (account' : Accounted config entry start left dead' [])
    (listed : provider ∈ config.providers)
    (there : importer ∈ before.importers provider.controllerPath)
    (other : importer ≠ config.rootFactoryModule) :
    importer ∈ left.importers provider.controllerPath := by
  by_cases gone : importer ∈ left.importers provider.controllerPath
  · exact gone
  · exact absurd (died_of_gone account account' there gone other)
      (steady provider listed importer there other)

/-- **A steady pass is complete.** -/
theorem Steady.complete {dead dead' : List String}
    (steady : Steady config before (before.releaseProviders config))
    (account : Accounted config entry start before dead [])
    (account' : Accounted config entry start (before.releaseProviders config) dead' []) :
    Complete config (before.releaseProviders config) := by
  have kept : ∀ {turn : ImportGraph} {provider : Provider}, Within turn before →
      provider ∈ config.providers → ∀ importer ∈ turn.importers provider.controllerPath,
      importer ≠ config.rootFactoryModule →
      importer ∈ (before.releaseProviders config).importers provider.controllerPath :=
    fun within listed importer hi => steady.mem_importers account account' listed
      (within.importers _ importer hi)
  have controllers := within_releaseController config.rootFactoryModule
  have components := within_releaseComponent config.rootFactoryModule
  -- A controller whose importers are gone, up to the root factory, was released in its turn.
  have turned : ∀ provider ∈ config.providers,
      (∀ importer ∈ (before.releaseProviders config).importers provider.controllerPath,
        importer = config.rootFactoryModule) →
      (config.providers.foldl (releaseController config.rootFactoryModule) before).importers
        provider.controllerPath = [] := by
    intro provider listed only
    obtain ⟨turn, htop, hrest⟩ := exists_turn controllers listed before
    refine hrest.eq_nil (importers_releaseController_eq_nil fun importer hi => ?_)
    by_cases other : importer = config.rootFactoryModule
    · exact other
    · exact only importer (kept htop listed importer hi other)
  refine ⟨fun provider listed => ?_, fun provider listed empty => ?_⟩
  · by_cases only : isOnlyImporter config.rootFactoryModule
        ((before.releaseProviders config).importers provider.controllerPath) = true
    · obtain ⟨hne, hall⟩ := isOnlyImporter_iff.1 only
      have empty := turned provider listed hall
      exact absurd ((within_foldl components config.providers _).eq_nil empty) hne
    · simpa using only
  · obtain ⟨hk, none⟩ := get?_eq_some_importers_iff.1 empty
    obtain ⟨turn, htop, hrest⟩ := exists_turn components listed
      (config.providers.foldl (releaseController config.rootFactoryModule) before)
    have there : turn.get? provider.controllerPath = some [] := by
      refine get?_eq_some_importers_iff.2 ⟨?_, ?_⟩
      · rw [htop.keys, (within_foldl controllers config.providers before).keys,
          ← (within_releaseProviders before config).keys]
        exact hk
      · refine htop.eq_nil (turned provider listed fun importer hi => ?_)
        rw [none] at hi
        exact absurd hi (by simp)
    exact fun hi => not_mem_importers_releaseComponent there (hrest.importers _ _ hi)

/-! ## Other orders -/

theorem Ahead.foldl {step : ImportGraph → Provider → ImportGraph} {providers : List Provider}
    (follows : ∀ {other : ImportGraph}, ∀ provider ∈ providers, Ahead entry start left other →
      Ahead entry start left (step other provider))
    {other : ImportGraph} (ahead : Ahead entry start left other) :
    Ahead entry start left (providers.foldl step other) := by
  induction providers generalizing other with
  | nil => exact ahead
  | cons provider providers ih =>
    exact ih (fun next hn => follows next (List.mem_cons_of_mem _ hn))
      (follows provider List.mem_cons_self ahead)

theorem Complete.releaseProviders (complete : Complete config left) {other : ImportGraph}
    {providers : List Provider} (listed : ∀ provider ∈ providers, provider ∈ config.providers)
    (ahead : Ahead entry start left other) :
    Ahead entry start left (other.releaseProviders { config with providers }) := by
  have controllers : Ahead entry start left
      (providers.foldl (releaseController config.rootFactoryModule) other) := by
    refine ahead.foldl fun provider hp h => h.releaseController fun only => ?_
    have none := complete.controllers provider (listed provider hp)
    by_cases empty : left.importers provider.controllerPath = []
    · exact empty
    · have hall : ∀ importer ∈ left.importers provider.controllerPath,
          importer = config.rootFactoryModule := fun importer hi =>
        (isOnlyImporter_iff.1 only).2 importer (h.fewer.importers _ importer hi)
      rw [isOnlyImporter_iff.2 ⟨empty, hall⟩] at none
      exact absurd none (by simp)
  exact controllers.foldl fun provider hp h => h.releaseComponent fun empty =>
    complete.components provider (listed provider hp) (h.fewer.get?_eq empty)

/-- Behind a graph in which none of the importers has died, none has died either. -/
theorem Steady.of_ahead {other : ImportGraph} (steady : Steady config before left)
    (ahead : Ahead entry start left other) : Steady config before other := by
  intro provider listed importer hi differs died
  exact steady provider listed importer hi differs ⟨died.1, ahead.fewer.eq_nil died.2⟩

/-- What is left of a steady pass is ahead of what any order of the catalogue leaves. -/
theorem Steady.ahead {providers : List Provider} (graph : ImportGraph) (config : BuildConfig)
    (eligible : String → Bool) (entry : String)
    (steady : Steady config (graph.prunedGraph config eligible entry false)
      (graph.prunedGraph config eligible entry true))
    (listed : ∀ provider ∈ providers, provider ∈ config.providers) :
    Ahead entry (graph.eligiblePart eligible) (graph.prunedGraph config eligible entry true)
      (graph.prunedGraph { config with providers } eligible entry true) := by
  have account := (accounted_start config entry (graph.eligiblePart eligible)).cascade
  obtain ⟨dead, account'⟩ := accounted_prunedGraph graph config eligible entry
  have front : Ahead entry (graph.eligiblePart eligible)
      (graph.prunedGraph config eligible entry true)
      (graph.prunedGraph config eligible entry false) :=
    ⟨account'.settled, (within_releaseProviders _ config).fewer, fun module hne empty =>
      hne (account.within.eq_nil empty)⟩
  exact (steady.complete account account').releaseProviders listed front

/-- **A steady catalogue is pruned completely and in any order.** If no module that imports a
controller goes in the pass over the services, apart from the root factory, then no controller is
left with the root factory as its only importer, and the catalogue may be listed in any order
without a change to the modules that go. -/
theorem unusedComponents_of_steady (graph : ImportGraph) (config : BuildConfig)
    (eligible : String → Bool)
    (steady : Steady config
      (graph.prunedGraph config eligible config.frameworkEntryPoint false)
      (graph.prunedGraph config eligible config.frameworkEntryPoint true)) :
    (∀ provider ∈ config.providers, isOnlyImporter config.rootFactoryModule
        ((graph.unusedComponents config eligible).whole.importers provider.controllerPath) = false)
      ∧ ∀ providers : List Provider, providers.Perm config.providers →
        (graph.unusedComponents { config with providers } eligible).purgedPaths
          = (graph.unusedComponents config eligible).purgedPaths := by
  have account :=
    (accounted_start config config.frameworkEntryPoint (graph.eligiblePart eligible)).cascade
  obtain ⟨dead, account'⟩ :=
    accounted_prunedGraph graph config eligible config.frameworkEntryPoint
  refine ⟨fun provider listed => ?_, fun providers perm => ?_⟩
  · rw [unusedComponents, prune, importers_whole_divide]
    exact (steady.complete account account').controllers provider listed
  · have forth := Steady.ahead graph config eligible config.frameworkEntryPoint steady
      fun provider hp => perm.mem_iff.1 hp
    have steady' : Steady { config with providers }
        (graph.prunedGraph { config with providers } eligible config.frameworkEntryPoint false)
        (graph.prunedGraph { config with providers } eligible config.frameworkEntryPoint true) :=
      fun provider hp => steady.of_ahead forth provider (perm.mem_iff.1 hp)
    have listed : ∀ provider ∈ config.providers, provider ∈ providers :=
      fun provider hp => perm.mem_iff.2 hp
    have back := steady'.ahead graph { config with providers } eligible
      config.frameworkEntryPoint listed
    obtain ⟨_, account''⟩ :=
      accounted_prunedGraph graph { config with providers } eligible config.frameworkEntryPoint
    refine (keys_purged_divide _ _).trans (Eq.trans ?_ (keys_purged_divide _ _).symm)
    rw [account'.within.keys, account''.within.keys]
    refine List.filter_congr fun module _ => decide_eq_decide.2 (and_congr_left fun _ => ?_)
    exact ⟨forth.fewer.eq_nil, back.fewer.eq_nil⟩

/-- Nothing uses the alerts and a page uses the toasts, so the catalogue is steady: the alerts go,
in one order as in the other. -/
theorem unusedComponents_of_steady_alert :
    (overlayPruning [] ["/app/src/pages/home/home.js"] overlays.reverse).purgedPaths
        = (overlayPruning [] ["/app/src/pages/home/home.js"] overlays).purgedPaths
      ∧ (overlayPruning [] ["/app/src/pages/home/home.js"] overlays).purgedPaths
        = ["/app/node_modules/ionic-angular/components/alert/alert-controller.js",
          "/app/node_modules/ionic-angular/components/alert/alert-component.js",
          "/app/node_modules/ionic-angular/components/alert/alert-component.ngfactory.js"] := by
  have goes : (overlayPruning [] ["/app/src/pages/home/home.js"] overlays).purgedPaths
      = ["/app/node_modules/ionic-angular/components/alert/alert-controller.js",
        "/app/node_modules/ionic-angular/components/alert/alert-component.js",
        "/app/node_modules/ionic-angular/components/alert/alert-component.ngfactory.js"] := by
    rw [overlayPruning_eq]
    decide +kernel
  have steady : Steady { sampleConfig with providers := overlays }
      ((overlayGraph [] ["/app/src/pages/home/home.js"]).prunedGraph
        { sampleConfig with providers := overlays } (isEligible sampleConfig)
        sampleConfig.frameworkEntryPoint false)
      ((overlayGraph [] ["/app/src/pages/home/home.js"]).prunedGraph
        { sampleConfig with providers := overlays } (isEligible sampleConfig)
        sampleConfig.frameworkEntryPoint true) := by
    simp only [prunedGraph_congr (isEligible_overlayGraph [] ["/app/src/pages/home/home.js"])]
    decide +kernel
  exact ⟨(unusedComponents_of_steady (overlayGraph [] ["/app/src/pages/home/home.js"])
    { sampleConfig with providers := overlays } (isEligible sampleConfig) steady).2
      overlays.reverse (List.reverse_perm _), goes⟩

/-- The order of the catalogue counts. If the toasts' controller imports the alerts', the alerts'
turn comes first and in vain: their controller is left with the root factory alone. With the turns
exchanged both controllers go. -/
theorem catalogue_order_matters :
    let toast := "/app/node_modules/ionic-angular/components/toast/toast-controller.js"
    let alert := "/app/node_modules/ionic-angular/components/alert/alert-controller.js"
    (overlayPruning [toast] [] overlays).whole.importers alert
        = [sampleConfig.rootFactoryModule]
      ∧ alert ∉ (overlayPruning [toast] [] overlays).purgedPaths
      ∧ alert ∈ (overlayPruning [toast] [] overlays.reverse).purgedPaths := by
  intro toast alert
  rw [overlayPruning_eq, overlayPruning_eq]
  decide +kernel

end RouteTrim.ImportGraph
