import RouteTrim.Proofs.Graph.Providers

/-!
# Two prunings side by side

Of two graphs with the same modules, the one with fewer edges loses more: the modules that go from
the other one go from it too, as long as no module without importers has some in the other graph.
That clause is needed because a module that nobody ever imported is never released, and keeps its
own imports in use.

A pass over the services asks whether a controller is imported by the root factory *alone*, which a
smaller set of importers may answer either way. What makes the comparison go through is that the
graph in front is settled (`Settled`): a module without importers that had some at the start imports
nothing any more. So where the graph behind releases a module, the graph in front has released it
before or releases it now, and the modules that fall with it import nothing in the graph in front.
`Ahead` holds the two graphs together, and its lemmas move one of them on at a time.
-/

set_option autoImplicit false

namespace RouteTrim.ImportGraph

open RouteTrim.Settings (BuildConfig Provider)

variable {graph other start : ImportGraph} {config : BuildConfig} {eligible : String → Bool}
  {entry module importer rootFactory : String} {provider : Provider} {dead : List String}

/-! ## What the steps leave -/

theorem within_releaseEdge (graph : ImportGraph) (module importer : String) :
    Within (graph.releaseEdge module importer).1 graph := by
  rw [releaseEdge]
  split
  · split
    · exact (within_cascade ..).trans (within_withoutEdge ..)
    · exact within_withoutEdge ..
  · exact .refl graph

theorem within_releaseController (rootFactory : String) (graph : ImportGraph)
    (provider : Provider) : Within (graph.releaseController rootFactory provider) graph := by
  rw [releaseController]
  split
  · exact within_releaseEdge ..
  · exact .refl graph

theorem within_releaseComponent (rootFactory : String) (graph : ImportGraph)
    (provider : Provider) : Within (graph.releaseComponent rootFactory provider) graph := by
  rw [releaseComponent]
  split
  · exact within_releaseEdge ..
  · exact .refl graph

theorem not_mem_importers_releaseEdge (graph : ImportGraph) (module importer : String) :
    importer ∉ (graph.releaseEdge module importer).1.importers module := by
  have gone : importer ∉ (graph.withoutEdge module importer).importers module := by
    rw [importers_withoutEdge, if_pos rfl, mem_dropImporter]
    exact fun h => h.2 rfl
  rw [releaseEdge]
  split
  · split
    · intro hi
      exact gone ((within_cascade ..).importers _ _ hi)
    · exact gone
  · next absent => exact absent

theorem importers_releaseController_eq_nil
    (only : ∀ importer ∈ graph.importers provider.controllerPath, importer = rootFactory) :
    (graph.releaseController rootFactory provider).importers provider.controllerPath = [] := by
  refine List.eq_nil_iff_forall_not_mem.2 fun importer hi => ?_
  have there := (within_releaseController rootFactory graph provider).importers _ _ hi
  have released : isOnlyImporter rootFactory (graph.importers provider.controllerPath) = true :=
    isOnlyImporter_iff.2 ⟨List.ne_nil_of_mem there, only⟩
  rw [releaseController, if_pos released, only importer there] at hi
  exact not_mem_importers_releaseEdge _ _ _ hi

/-- The user interface of a service without importers loses the root factory in its turn. -/
theorem not_mem_importers_releaseComponent (empty : graph.get? provider.controllerPath = some []) :
    rootFactory ∉ (graph.releaseComponent rootFactory provider).importers
      provider.componentFactoryPath := by
  rw [releaseComponent, if_pos empty]
  exact not_mem_importers_releaseEdge graph _ _

/-! ## A graph ahead of another -/

/-- The same modules with fewer edges; the modules may stand in another order. -/
structure Fewer (graph other : ImportGraph) : Prop where
  mem_keys : ∀ module, module ∈ graph.keys ↔ module ∈ other.keys
  importers : ∀ module, ∀ importer ∈ graph.importers module, importer ∈ other.importers module

theorem Within.fewer (h : Within graph start) : Fewer graph start :=
  ⟨fun module => by rw [h.keys], h.importers⟩

theorem Fewer.trans {third : ImportGraph} (h : Fewer graph other) (h' : Fewer other third) :
    Fewer graph third :=
  ⟨fun module => (h.mem_keys module).trans (h'.mem_keys module),
    fun module importer hi => h'.importers module importer (h.importers module importer hi)⟩

theorem Fewer.eq_nil (h : Fewer graph other) (empty : other.importers module = []) :
    graph.importers module = [] := by
  refine List.eq_nil_iff_forall_not_mem.2 fun importer hi => ?_
  have there := h.importers module importer hi
  rw [empty] at there
  exact absurd there (by simp)

/-- The barrel imports nothing any more, nor does any module that has lost all of its importers. -/
structure Settled (entry : String) (start graph : ImportGraph) : Prop where
  entry : ∀ module, entry ∉ graph.importers module
  died : ∀ importer, Died start graph importer → ∀ module, importer ∉ graph.importers module

theorem Accounted.settled (h : Accounted config entry start graph dead []) :
    Settled entry start graph := by
  refine ⟨fun module hi => ?_, fun importer hd module hi => ?_⟩
  · exact absurd (h.gone module entry hi (Or.inl rfl)) (by simp)
  · exact absurd (h.gone module importer hi (Or.inr ((h.died importer).2 hd))) (by simp)

theorem Fewer.get?_eq (h : Fewer graph other) (empty : other.get? module = some []) :
    graph.get? module = some [] := by
  obtain ⟨hk, hi⟩ := get?_eq_some_importers_iff.1 empty
  exact get?_eq_some_importers_iff.2 ⟨(h.mem_keys module).2 hk, h.eq_nil hi⟩

/-- A settled graph ahead of another one, which may have come from other beginnings: what has
importers there had some at the start of the graph in front. -/
structure Ahead (entry : String) (start graph other : ImportGraph) : Prop where
  settled : Settled entry start graph
  fewer : Fewer graph other
  imported : ∀ module, other.importers module ≠ [] → start.importers module ≠ []

/-- The graph in front moves on. -/
theorem Ahead.left {next : ImportGraph} (h : Ahead entry start graph other)
    (within : Within next graph) (settled : Settled entry start next) :
    Ahead entry start next other :=
  ⟨settled, within.fewer.trans h.fewer, h.imported⟩

/-- The graph behind loses edges that the graph in front has lost. -/
theorem Ahead.right {next : ImportGraph} (h : Ahead entry start graph other)
    (within : Within next other) (fewer : Fewer graph next) : Ahead entry start graph next :=
  ⟨h.settled, fewer, fun module hne => h.imported module fun empty => hne (within.eq_nil empty)⟩

/-- The graph behind cascades from modules that import nothing in front. What it releases imports
nothing in front either, since all importers of that have gone there. -/
theorem Ahead.cascade {waiting : List String} (h : Ahead entry start graph other)
    (idle : ∀ root ∈ waiting, ∀ module, root ∉ graph.importers module) :
    Ahead entry start graph (other.cascade waiting).1 := by
  have within := within_cascade other waiting
  have released : ∀ free ∈ (other.cascade waiting).2, ∀ module, free ∉ graph.importers module := by
    refine cascade_least fun free hne hall => h.settled.died free ⟨h.imported free hne, ?_⟩
    refine List.eq_nil_iff_forall_not_mem.2 fun importer hi => ?_
    rcases hall importer (h.fewer.importers free importer hi) with hw | hr
    · exact idle importer hw free hi
    · exact hr free hi
  refine h.right within ⟨fun module => ?_, fun module importer hi => ?_⟩
  · rw [keys_cascade]
    exact h.fewer.mem_keys module
  · refine mem_importers_cascade.2 ⟨h.fewer.importers module importer hi,
      fun hw => ?_, fun hr => ?_⟩
    · exact idle importer hw module hi
    · exact released importer hr module hi

theorem Ahead.releaseEdge (h : Ahead entry start graph other)
    (gone : importer ∉ graph.importers module) :
    Ahead entry start graph (other.releaseEdge module importer).1 := by
  have without : Ahead entry start graph (other.withoutEdge module importer) := by
    refine h.right (within_withoutEdge ..) ⟨fun key => ?_, fun key x hx => ?_⟩
    · rw [keys_withoutEdge]
      exact h.fewer.mem_keys key
    · have there := h.fewer.importers key x hx
      rw [importers_withoutEdge]
      split
      · next same =>
        refine mem_dropImporter.2 ⟨there, fun hxi => gone ?_⟩
        rw [← same, ← hxi]
        exact hx
      · exact there
  rw [ImportGraph.releaseEdge]
  split
  · split
    · next only =>
      -- The edge was the module's last one, so in front the module has died.
      obtain ⟨hne, hall⟩ := isOnlyImporter_iff.1 only
      have empty : graph.importers module = [] := by
        refine List.eq_nil_iff_forall_not_mem.2 fun x hx => gone ?_
        rw [← hall x (h.fewer.importers module x hx)]
        exact hx
      refine without.cascade fun root hroot => ?_
      rw [List.mem_singleton.1 hroot]
      exact h.settled.died module ⟨h.imported module hne, empty⟩
    · exact without
  · exact h

theorem Ahead.releaseController (h : Ahead entry start graph other)
    (done : isOnlyImporter rootFactory (other.importers provider.controllerPath) = true →
      graph.importers provider.controllerPath = []) :
    Ahead entry start graph (other.releaseController rootFactory provider) := by
  rw [ImportGraph.releaseController]
  split
  · next only =>
    refine h.releaseEdge ?_
    rw [done only]
    simp
  · exact h

theorem Ahead.releaseComponent (h : Ahead entry start graph other)
    (done : other.get? provider.controllerPath = some [] →
      rootFactory ∉ graph.importers provider.componentFactoryPath) :
    Ahead entry start graph (other.releaseComponent rootFactory provider) := by
  rw [ImportGraph.releaseComponent]
  split
  · next empty => exact h.releaseEdge (done empty)
  · exact h

/-! ## Two runs in step -/

/-- Two runs of the same pass, the one in front with its account. -/
structure InStep (config : BuildConfig) (entry : String) (start graph other : ImportGraph) :
    Prop where
  accounted : ∃ dead, Accounted config entry start graph dead []
  ahead : Ahead entry start graph other

/-- If a step keeps the account in front and the graph behind can take it once the graph in front
has, two runs of the steps stay together. -/
theorem InStep.foldl {step : ImportGraph → Provider → ImportGraph}
    (within : ∀ graph provider, Within (step graph provider) graph)
    (accounted : ∀ {graph : ImportGraph} {dead : List String} {provider : Provider},
      provider ∈ config.providers → Accounted config entry start graph dead [] →
      ∃ dead, Accounted config entry start (step graph provider) dead [])
    (follows : ∀ {graph other : ImportGraph} {provider : Provider},
      Ahead entry start graph other → Ahead entry start (step graph provider) other →
      Ahead entry start (step graph provider) (step other provider))
    {providers : List Provider} (listed : ∀ provider ∈ providers, provider ∈ config.providers)
    (h : InStep config entry start graph other) :
    InStep config entry start (providers.foldl step graph) (providers.foldl step other) := by
  induction providers generalizing graph other with
  | nil => exact h
  | cons provider providers ih =>
    obtain ⟨dead, account⟩ := h.accounted
    obtain ⟨dead, account⟩ := accounted (listed provider List.mem_cons_self) account
    have first := h.ahead.left (within graph provider) account.settled
    exact ih (fun p hp => listed p (List.mem_cons_of_mem _ hp))
      ⟨⟨dead, account⟩, follows h.ahead first⟩

theorem InStep.releaseProviders (h : InStep config entry start graph other) :
    InStep config entry start (graph.releaseProviders config) (other.releaseProviders config) := by
  have controllers : InStep config entry start
      (config.providers.foldl (releaseController config.rootFactoryModule) graph)
      (config.providers.foldl (releaseController config.rootFactoryModule) other) := by
    refine h.foldl (within_releaseController config.rootFactoryModule) Accounted.releaseController
      (fun both first => first.releaseController fun only => ?_) fun _ hp => hp
    exact importers_releaseController_eq_nil fun importer hi =>
      (isOnlyImporter_iff.1 only).2 importer (both.fewer.importers _ importer hi)
  refine controllers.foldl (within_releaseComponent config.rootFactoryModule)
    Accounted.releaseComponent (fun both first => first.releaseComponent fun empty => ?_)
    fun _ hp => hp
  exact not_mem_importers_releaseComponent (both.fewer.get?_eq empty)

theorem inStep_prunedGraph
    (fewer : Fewer (graph.eligiblePart eligible) (other.eligiblePart eligible))
    (imported : ∀ module, (other.eligiblePart eligible).importers module ≠ [] →
      (graph.eligiblePart eligible).importers module ≠ [])
    (config : BuildConfig) (entry : String) (withProviders : Bool) :
    InStep config entry (graph.eligiblePart eligible)
      (graph.prunedGraph config eligible entry withProviders)
      (other.prunedGraph config eligible entry withProviders) := by
  have account := (accounted_start config entry (graph.eligiblePart eligible)).cascade
  have front : Ahead entry (graph.eligiblePart eligible)
      ((graph.eligiblePart eligible).cascadeFrom entry).1 (other.eligiblePart eligible) :=
    ⟨account.settled, (within_cascade ..).fewer.trans fewer, imported⟩
  have cascaded : InStep config entry (graph.eligiblePart eligible)
      ((graph.eligiblePart eligible).cascadeFrom entry).1
      ((other.eligiblePart eligible).cascadeFrom entry).1 := by
    refine ⟨⟨_, account⟩, front.cascade fun root hroot => ?_⟩
    rw [List.mem_singleton.1 hroot]
    exact account.settled.entry
  cases withProviders with
  | false => exact cascaded
  | true => exact cascaded.releaseProviders

theorem fewer_eligiblePart (modules : graph.keys.Perm other.keys)
    (fewer : ∀ module ∈ graph.keys, ∀ importer ∈ graph.importers module,
      importer ∈ other.importers module) (eligible : String → Bool) :
    Fewer (graph.eligiblePart eligible) (other.eligiblePart eligible) := by
  refine ⟨fun module => ?_, fun module importer hi => ?_⟩
  · rw [keys_eligiblePart, keys_eligiblePart, List.mem_filter, List.mem_filter, modules.mem_iff]
  · rw [importers_eligiblePart] at hi ⊢
    split at hi
    · next he =>
      obtain ⟨hi, hne⟩ := mem_dropImporter.1 hi
      rw [if_pos he]
      exact mem_dropImporter.2 ⟨fewer module (mem_keys_of_mem_importers hi) importer hi, hne⟩
    · exact absurd hi (by simp)

/-- **Fewer imports, more pruned.** Let two graphs have the same modules, let every importer of a
module in the first graph be one in the second, and let no module be imported by others in the
second graph alone. Then whatever goes from the second graph goes from the first one: from any
entry, with or without the services, and so from the barrel with the services. -/
theorem purged_of_fewer {graph other : ImportGraph} (config : BuildConfig)
    (eligible : String → Bool) (modules : graph.keys.Perm other.keys)
    (fewer : ∀ module ∈ graph.keys, ∀ importer ∈ graph.importers module,
      importer ∈ other.importers module)
    (imported : ∀ module ∈ graph.keys, dropImporter module (graph.importers module) = [] →
      dropImporter module (other.importers module) = []) :
    (∀ module ∈ (other.unusedComponents config eligible).purgedPaths,
        module ∈ (graph.unusedComponents config eligible).purgedPaths)
      ∧ ∀ (entry : String) (withProviders : Bool),
        ∀ module ∈ (other.prune config eligible entry withProviders).purgedPaths,
          module ∈ (graph.prune config eligible entry withProviders).purgedPaths := by
  have stillImported : ∀ module, (other.eligiblePart eligible).importers module ≠ [] →
      (graph.eligiblePart eligible).importers module ≠ [] := by
    intro module hne empty
    rw [importers_eligiblePart] at hne empty
    split at hne
    · next he =>
      rw [if_pos he] at empty
      have hk : module ∈ graph.keys := by
        refine modules.mem_iff.2 (mem_keys_of_importers_ne_nil fun none => hne ?_)
        rw [none, dropImporter_nil]
      exact hne (imported module hk empty)
    · exact hne rfl
  have anyEntry : ∀ (entry : String) (withProviders : Bool),
      ∀ module ∈ (other.prune config eligible entry withProviders).purgedPaths,
        module ∈ (graph.prune config eligible entry withProviders).purgedPaths := by
    intro entry withProviders module hp
    have together := (inStep_prunedGraph (fewer_eligiblePart modules fewer eligible) stillImported
      config entry withProviders).ahead.fewer
    obtain ⟨hk, empty, free⟩ := mem_keys_purged_divide.1 hp
    exact mem_keys_purged_divide.2 ⟨(together.mem_keys module).2 hk, together.eq_nil empty, free⟩
  exact ⟨anyEntry config.frameworkEntryPoint true, anyEntry⟩

/-- A catalogue of two services whose user interfaces are laid over the page. -/
def overlays : List Provider :=
  [{ name := "alert", className := "AlertController"
     controllerPath := "/app/node_modules/ionic-angular/components/alert/alert-controller.js"
     componentPath := "/app/node_modules/ionic-angular/components/alert/alert-component.js"
     componentFactoryPath :=
       "/app/node_modules/ionic-angular/components/alert/alert-component.ngfactory.js" },
   { name := "toast", className := "ToastController"
     controllerPath := "/app/node_modules/ionic-angular/components/toast/toast-controller.js"
     componentPath := "/app/node_modules/ionic-angular/components/toast/toast-component.js"
     componentFactoryPath :=
       "/app/node_modules/ionic-angular/components/toast/toast-component.ngfactory.js" }]

/-- The root factory serves both overlays; the controllers have some further importers. -/
def overlayGraph (ofAlert ofToast : List String) : ImportGraph :=
  let factory := "/app/src/app/app.module.ngfactory.js"
  let overlay (provider : Provider) (others : List String) :=
    [(provider.controllerPath, factory :: others),
      (provider.componentPath, [provider.controllerPath]),
      (provider.componentFactoryPath, [factory])]
  .ofList ((overlays.zip [ofAlert, ofToast]).flatMap fun (provider, others) =>
    overlay provider others)

/-- The full pruning of an overlay graph with the services in some order. -/
def overlayPruning (ofAlert ofToast : List String) (providers : List Provider) : Pruning :=
  (overlayGraph ofAlert ofToast).unusedComponents { sampleConfig with providers }
    (isEligible sampleConfig)

/-- All modules of an overlay graph are components of the framework, so all of them may be
pruned. -/
theorem isEligible_overlayGraph (ofAlert ofToast : List String) :
    ∀ module ∈ (overlayGraph ofAlert ofToast).keys, isEligible sampleConfig module = true := by
  have directory : sampleConfig.frameworkComponentsDir
      = "/app/node_modules/ionic-angular/components" := by decide +kernel
  intro module listed
  rw [overlayGraph, OrderedMap.mem_keys_ofList] at listed
  simp only [overlays, List.zip_cons_cons, List.zip_nil_right, List.flatMap_cons, List.flatMap_nil,
    List.append_nil, List.cons_append, List.nil_append, List.mem_cons, List.not_mem_nil, or_false,
    exists_eq_or_imp, ↓existsAndEq, true_and] at listed
  rw [isEligible, directory, Bool.or_eq_true]
  -- The kernel takes long to decode a text, so the paths are rewritten to their characters.
  rcases listed with rfl | rfl | rfl | rfl | rfl | rfl <;>
    (rw [Path.isWithin, String.toList_ofList, String.toList_ofList]; exact .inl (by decide +kernel))

/-- The modules of an overlay graph need not be asked whether they may be pruned. -/
theorem overlayPruning_eq (ofAlert ofToast : List String) (providers : List Provider) :
    overlayPruning ofAlert ofToast providers
      = (overlayGraph ofAlert ofToast).unusedComponents { sampleConfig with providers }
        fun _ => true := by
  rw [overlayPruning, unusedComponents, unusedComponents, prune, prune,
    prunedGraph_congr (isEligible_overlayGraph ofAlert ofToast)]

/-- Without the page that uses the toasts, the alerts still go. -/
theorem purged_of_fewer_overlays :
    "/app/node_modules/ionic-angular/components/alert/alert-component.ngfactory.js"
      ∈ (overlayPruning [] [] overlays).purgedPaths := by
  have goes : "/app/node_modules/ionic-angular/components/alert/alert-component.ngfactory.js"
      ∈ (overlayPruning [] ["/app/src/pages/home/home.js"] overlays).purgedPaths := by
    rw [overlayPruning_eq]
    decide +kernel
  exact (@purged_of_fewer (overlayGraph [] []) (overlayGraph [] ["/app/src/pages/home/home.js"])
    { sampleConfig with providers := overlays } (isEligible sampleConfig)
    (by decide +kernel) (by decide +kernel) (by decide +kernel)).1 _ goes

end RouteTrim.ImportGraph
