import RouteTrim.Proofs.Graph.Pruning

/-!
# Why an edge is gone

The full pruning runs one cascade from the barrel and then two passes over the catalogue of
services, which take single edges away and cascade from what dies by that. This file keeps the
account of it: at every moment each edge that is gone has a reason. It started at the barrel, or at
a module that has died, or it is one of the edges by which the root factory serves the catalogue.

The account (`Accounted`) carries a list of the dead modules in the order in which they died, and
says that each of them died because of the barrel, of earlier ones and of the root factory. So the
reasons do not run in circles, and no ring of modules dies by itself. The list grows at the end
only, and edges never come back, so a reason once given stays one. That makes the account an
invariant of a single `releaseEdge`, whatever was released before, and the passes, which are folds
over the catalogue, keep it without any look at the order or the overlap of the services.
-/

set_option autoImplicit false

namespace RouteTrim

open RouteTrim.Settings (BuildConfig Provider)

/-! ## The two parts of a pruning as one graph -/

/-- Both parts of a pruning in one graph, the modules that stay in front. -/
def Pruning.whole (pruning : Pruning) : ImportGraph :=
  .ofList (pruning.retained.entries ++ pruning.purged.entries)

namespace ImportGraph

variable {graph start : ImportGraph} {config : BuildConfig} {entry module importer : String}
  {dead : List String}

theorem entries_whole_divide (graph : ImportGraph) (required : List String) :
    (graph.divide required).whole.entries
      = (graph.divide required).retained.entries ++ (graph.divide required).purged.entries := by
  refine OrderedMap.entries_ofList ?_
  rw [List.map_append, List.nodup_append]
  refine ⟨nodup_keys _, nodup_keys _, ?_⟩
  rintro module hr _ hp rfl
  exact (mem_keys_retained_divide.1 hr).2 (mem_keys_purged_divide.1 hp).2

theorem mem_keys_whole_divide (graph : ImportGraph) (required : List String) (module : String) :
    module ∈ (graph.divide required).whole.keys ↔ module ∈ graph.keys := by
  rw [OrderedMap.keys, entries_whole_divide, List.map_append, List.mem_append]
  show module ∈ (graph.divide required).retained.keys ∨ module ∈ (graph.divide required).purged.keys
    ↔ _
  rw [mem_keys_retained_divide, mem_keys_purged_divide]
  by_cases h : graph.importers module = [] ∧ module ∉ required
  · exact ⟨fun hm => hm.elim And.left And.left, fun hk => Or.inr ⟨hk, h⟩⟩
  · exact ⟨fun hm => hm.elim And.left And.left, fun hk => Or.inl ⟨hk, h⟩⟩

theorem importers_whole_divide (graph : ImportGraph) (required : List String) (module : String) :
    (graph.divide required).whole.importers module = graph.importers module := by
  by_cases hk : module ∈ graph.keys
  · refine importers_of_mem_entries ?_
    have there : (module, graph.importers module) ∈ graph.entries :=
      (OrderedMap.get?_eq_some_iff ..).1 (get?_eq_some_importers_iff.2 ⟨hk, rfl⟩)
    rw [entries_whole_divide, List.mem_append]
    by_cases stays : (!(graph.importers module).isEmpty || module ∈ required) = true
    · exact Or.inl (List.mem_filter.2 ⟨there, stays⟩)
    · exact Or.inr (List.mem_filter.2 ⟨there, by simpa using stays⟩)
  · rw [importers_of_not_mem_keys hk, importers_of_not_mem_keys]
    exact fun h => hk ((mem_keys_whole_divide graph required module).1 h)

/-! ## The account -/

/-- An edge by which the root factory serves the catalogue, once it is needed no more: to a
controller that has no importers, or to the user interface of a service whose controller is in the
graph and has none. -/
def ServiceEdge (config : BuildConfig) (graph : ImportGraph) (importer module : String) : Prop :=
  importer = config.rootFactoryModule ∧ ∃ provider ∈ config.providers,
    (module = provider.controllerPath ∧ graph.importers module = [])
      ∨ (module = provider.componentFactoryPath ∧ provider.controllerPath ∈ graph.keys
          ∧ graph.importers provider.controllerPath = [])

/-- A module that had importers and has none left. -/
def Died (start graph : ImportGraph) (module : String) : Prop :=
  start.importers module ≠ [] ∧ graph.importers module = []

/-- The reason why an edge is gone, given the modules that died before. -/
def Excused (config : BuildConfig) (entry : String) (graph : ImportGraph) (before : List String)
    (importer module : String) : Prop :=
  importer = entry ∨ importer ∈ before ∨ ServiceEdge config graph importer module

/-- The account of what a graph has lost since the start. The modules that wait are the barrel or
dead, and their edges are still to be taken away. -/
structure Accounted (config : BuildConfig) (entry : String) (start graph : ImportGraph)
    (dead waiting : List String) : Prop where
  /-- Edges go, and none comes. -/
  within : Within graph start
  waits : ∀ module ∈ waiting, module = entry ∨ module ∈ dead
  /-- The barrel and the dead import nothing any more, unless they wait. -/
  gone : ∀ module, ∀ importer ∈ graph.importers module,
    importer = entry ∨ importer ∈ dead → importer ∈ waiting
  /-- Every edge that is gone has its reason. -/
  excused : ∀ module, ∀ importer ∈ start.importers module, importer ∉ graph.importers module →
    Excused config entry graph dead importer module
  /-- The list names the dead, each once. -/
  died : ∀ module, module ∈ dead ↔ Died start graph module
  nodup : dead.Nodup
  /-- Each of the dead died by what stands in front of it. -/
  grounded : ∀ before module after, dead = before ++ module :: after →
    ∀ importer ∈ start.importers module, Excused config entry graph before importer module

/-! ### Fewer edges, more reasons -/

theorem Within.trans {later : ImportGraph} (h : Within later graph) (h' : Within graph start) :
    Within later start :=
  ⟨h.keys.trans h'.keys, fun module importer hi =>
    h'.importers module importer (h.importers module importer hi)⟩

theorem within_cascade (graph : ImportGraph) (waiting : List String) :
    Within (graph.cascade waiting).1 graph :=
  ⟨keys_cascade .., fun _ _ hi => (mem_importers_cascade.1 hi).1⟩

theorem within_withoutEdge (graph : ImportGraph) (module importer : String) :
    Within (graph.withoutEdge module importer) graph := by
  refine ⟨keys_withoutEdge .., fun other x hx => ?_⟩
  rw [importers_withoutEdge] at hx
  split at hx
  · exact (mem_dropImporter.1 hx).1
  · exact hx

theorem Within.eq_nil {later : ImportGraph} (h : Within later graph)
    (empty : graph.importers module = []) : later.importers module = [] := by
  refine List.eq_nil_iff_forall_not_mem.2 fun importer hi => ?_
  have hi := h.importers module importer hi
  rw [empty] at hi
  exact absurd hi (by simp)

theorem Excused.mono {later : ImportGraph} {before more : List String}
    (h : Excused config entry graph before importer module) (within : Within later graph)
    (grown : ∀ module ∈ before, module ∈ more) :
    Excused config entry later more importer module := by
  rcases h with h | h | ⟨factory, provider, hp, ⟨hm, empty⟩ | ⟨hm, hk, empty⟩⟩
  · exact Or.inl h
  · exact Or.inr (Or.inl (grown importer h))
  · exact Or.inr (Or.inr ⟨factory, provider, hp, Or.inl ⟨hm, within.eq_nil empty⟩⟩)
  · exact Or.inr (Or.inr ⟨factory, provider, hp, Or.inr ⟨hm, by rw [within.keys]; exact hk,
      within.eq_nil empty⟩⟩)

theorem Excused.whole_divide {before : List String}
    (h : Excused config entry graph before importer module) (required : List String) :
    importer = entry ∨ importer ∈ before
      ∨ ServiceEdge config (graph.divide required).whole importer module := by
  refine h.imp id (Or.imp id ?_)
  rintro ⟨factory, provider, hp, service⟩
  refine ⟨factory, provider, hp, ?_⟩
  rw [importers_whole_divide, importers_whole_divide, mem_keys_whole_divide]
  exact service

theorem died_whole_divide (required : List String) :
    Died start (graph.divide required).whole module ↔ Died start graph module := by
  rw [Died, Died, importers_whole_divide]

/-! ### What keeps the account -/

/-- A cascade settles what waits: the modules that it releases are the next ones to die. -/
theorem Accounted.cascade {waiting : List String}
    (h : Accounted config entry start graph dead waiting) :
    Accounted config entry start (graph.cascade waiting).1 (dead ++ (graph.cascade waiting).2) [] := by
  have within := within_cascade graph waiting
  refine ⟨within.trans h.within, fun _ hw => absurd hw (by simp), ?_, ?_, ?_, ?_, ?_⟩
  case refine_1 =>
    intro module importer hi reason
    obtain ⟨hi, hw, hr⟩ := mem_importers_cascade.1 hi
    rcases reason with hentry | hdead
    · exact absurd (h.gone module importer hi (Or.inl hentry)) hw
    · rcases List.mem_append.1 hdead with hdead | hreleased
      · exact absurd (h.gone module importer hi (Or.inr hdead)) hw
      · exact absurd hreleased hr
  case refine_2 =>
    intro module importer hi hgone
    by_cases there : importer ∈ graph.importers module
    · by_cases hw : importer ∈ waiting
      · exact (h.waits importer hw).imp id fun hd => Or.inl (List.mem_append_left _ hd)
      · by_cases hr : importer ∈ (graph.cascade waiting).2
        · exact Or.inr (Or.inl (List.mem_append_right _ hr))
        · exact absurd (mem_importers_cascade.2 ⟨there, hw, hr⟩) hgone
    · exact (h.excused module importer hi there).mono within fun _ hd => List.mem_append_left _ hd
  case refine_3 =>
    intro module
    rw [List.mem_append]
    constructor
    · rintro (hd | hr)
      · obtain ⟨had, empty⟩ := (h.died module).1 hd
        exact ⟨had, within.eq_nil empty⟩
      · have hne := importers_ne_nil_of_cascade hr
        exact ⟨fun empty => hne (h.within.eq_nil empty), importers_cascade_of_mem hr⟩
    · rintro ⟨had, empty⟩
      by_cases hne : graph.importers module = []
      · exact Or.inl ((h.died module).2 ⟨had, hne⟩)
      · refine Or.inr (releaseClosed_cascade graph waiting module hne fun importer hi => ?_)
        by_cases hw : importer ∈ waiting
        · exact Or.inl hw
        by_cases hr : importer ∈ (graph.cascade waiting).2
        · exact Or.inr hr
        · have left := mem_importers_cascade.2 ⟨hi, hw, hr⟩
          rw [empty] at left
          exact absurd left (by simp)
  case refine_4 =>
    refine List.nodup_append.2 ⟨h.nodup, nodup_cascade graph waiting, ?_⟩
    rintro module hd _ hr rfl
    exact importers_ne_nil_of_cascade hr ((h.died module).1 hd).2
  case refine_5 =>
    intro before module after split importer hi
    rcases split_of_append_eq split with ⟨rest, hdead⟩ | ⟨more, rfl, hr⟩
    · exact (h.grounded before module rest hdead importer hi).mono within fun _ hm => hm
    · by_cases there : importer ∈ graph.importers module
      · rcases mem_before_of_cascade hr importer there with hw | hm
        · exact (h.waits importer hw).imp id fun hd => Or.inl (List.mem_append_left _ hd)
        · exact Or.inr (Or.inl (List.mem_append_right _ hm))
      · exact (h.excused module importer hi there).mono within fun _ hd =>
          List.mem_append_left _ hd

/-- At the start nothing is gone, and the barrel waits. -/
theorem accounted_start (config : BuildConfig) (entry : String) (start : ImportGraph) :
    Accounted config entry start start [] [entry] := by
  refine ⟨.refl start, fun _ hw => Or.inl (List.mem_singleton.1 hw), ?_, ?_, ?_, List.nodup_nil, ?_⟩
  · intro module importer _ reason
    exact reason.elim (fun he => List.mem_singleton.2 he) fun hd => absurd hd (by simp)
  · intro module importer hi hgone
    exact absurd hi hgone
  · intro module
    exact ⟨fun hd => absurd hd (by simp), fun hd => absurd hd.2 hd.1⟩
  · intro before module after split
    exact absurd split (by simp)

/-- Taking away an edge of the root factory keeps the account if the module has another importer. -/
theorem Accounted.withoutEdge (h : Accounted config entry start graph dead [])
    (service : ServiceEdge config (graph.withoutEdge module importer) importer module)
    (left : (graph.withoutEdge module importer).importers module ≠ []) :
    Accounted config entry start (graph.withoutEdge module importer) dead [] := by
  have within := within_withoutEdge graph module importer
  refine ⟨within.trans h.within, h.waits, ?_, ?_, ?_, h.nodup, ?_⟩
  · intro other x hx reason
    exact h.gone other x (within.importers other x hx) reason
  · intro other x hx hgone
    by_cases there : x ∈ graph.importers other
    · rw [importers_withoutEdge] at hgone
      split at hgone
      · next same =>
        have hx : x = importer := by
          by_cases hx : x = importer
          · exact hx
          · exact absurd (mem_dropImporter.2 ⟨there, hx⟩) hgone
        rw [hx, same]
        exact Or.inr (Or.inr service)
      · exact absurd there hgone
    · exact (h.excused other x hx there).mono within fun _ hd => hd
  · intro other
    rw [h.died other]
    constructor
    · exact fun ⟨had, empty⟩ => ⟨had, within.eq_nil empty⟩
    · rintro ⟨had, empty⟩
      by_cases same : other = module
      · exact absurd (same ▸ empty) left
      · rw [importers_withoutEdge, if_neg same] at empty
        exact ⟨had, empty⟩
  · intro before other after split x hx
    exact (h.grounded before other after split x hx).mono within fun _ hm => hm

theorem Accounted.withoutLastEdge (h : Accounted config entry start graph dead [])
    (service : ServiceEdge config (graph.withoutEdge module importer) importer module)
    (only : isOnlyImporter importer (graph.importers module) = true) :
    Accounted config entry start (graph.withoutEdge module importer) (dead ++ [module]) [module] := by
  have within := within_withoutEdge graph module importer
  obtain ⟨hne, hall⟩ := isOnlyImporter_iff.1 only
  have empty : (graph.withoutEdge module importer).importers module = [] := by
    rw [importers_withoutEdge, if_pos rfl]
    exact dropImporter_eq_nil_iff.2 hall
  have rest : ∀ other, other ≠ module →
      (graph.withoutEdge module importer).importers other = graph.importers other := by
    intro other ho
    rw [importers_withoutEdge, if_neg ho]
  -- An importer of `module` at the start has gone before, with a reason, or is the one that goes
  -- now.
  have last : ∀ x ∈ start.importers module,
      Excused config entry (graph.withoutEdge module importer) dead x module := by
    intro x hx
    by_cases there : x ∈ graph.importers module
    · rw [hall x there]
      exact Or.inr (Or.inr service)
    · exact (h.excused module x hx there).mono within fun _ hd => hd
  refine ⟨within.trans h.within, ?_, ?_, ?_, ?_, ?_, ?_⟩
  · intro x hw
    exact Or.inr (List.mem_append_right _ hw)
  · intro other x hx reason
    rcases reason with hentry | hdead
    · exact absurd (h.gone other x (within.importers other x hx) (Or.inl hentry)) (by simp)
    · rcases List.mem_append.1 hdead with hdead | hm
      · exact absurd (h.gone other x (within.importers other x hx) (Or.inr hdead)) (by simp)
      · exact hm
  · intro other x hx hgone
    by_cases same : other = module
    · subst same
      exact (last x hx).mono (.refl _) fun _ hd => List.mem_append_left _ hd
    · rw [rest other same] at hgone
      exact (h.excused other x hx hgone).mono within fun _ hd => List.mem_append_left _ hd
  · intro other
    rw [List.mem_append, List.mem_singleton, h.died other]
    constructor
    · rintro (⟨had, gone⟩ | rfl)
      · exact ⟨had, within.eq_nil gone⟩
      · exact ⟨fun had => hne (h.within.eq_nil had), empty⟩
    · rintro ⟨had, gone⟩
      by_cases same : other = module
      · exact Or.inr same
      · exact Or.inl ⟨had, (rest other same).symm.trans gone⟩
  · refine List.nodup_append.2 ⟨h.nodup, by simp, ?_⟩
    rintro other hd _ hm rfl
    rw [List.mem_singleton.1 hm] at hd
    exact hne ((h.died module).1 hd).2
  · intro before other after split x hx
    rcases split_of_append_eq split with ⟨more, hdead⟩ | ⟨more, rfl, hm⟩
    · exact (h.grounded before other more hdead x hx).mono within fun _ hd => hd
    · have hmore : more = [] ∧ other = module := by
        rcases more with _ | ⟨first, more⟩
        · exact ⟨rfl, (List.cons.inj hm).1.symm⟩
        · exact absurd (List.cons.inj hm).2 (by simp)
      obtain ⟨rfl, rfl⟩ := hmore
      exact (last x hx).mono (.refl _) fun _ hd => List.mem_append_left _ hd

theorem Accounted.releaseEdge (h : Accounted config entry start graph dead [])
    (service : ServiceEdge config (graph.withoutEdge module importer) importer module) :
    ∃ dead, Accounted config entry start (graph.releaseEdge module importer).1 dead [] := by
  by_cases there : importer ∈ graph.importers module
  · by_cases only : isOnlyImporter importer (graph.importers module) = true
    · rw [ImportGraph.releaseEdge, if_pos there, if_pos only]
      exact ⟨_, (h.withoutLastEdge service only).cascade⟩
    · rw [ImportGraph.releaseEdge, if_pos there, if_neg only]
      refine ⟨dead, h.withoutEdge service fun empty => only ?_⟩
      rw [importers_withoutEdge, if_pos rfl] at empty
      exact (isOnlyImporter_iff_dropImporter there).2 empty
  · rw [ImportGraph.releaseEdge, if_neg there]
    exact ⟨dead, h⟩

/-! ### The passes -/

theorem Accounted.releaseController {provider : Provider} (hp : provider ∈ config.providers)
    (h : Accounted config entry start graph dead []) :
    ∃ dead, Accounted config entry start
      (graph.releaseController config.rootFactoryModule provider) dead [] := by
  rw [ImportGraph.releaseController]
  split
  · next only =>
    refine h.releaseEdge ⟨rfl, provider, hp, Or.inl ⟨rfl, ?_⟩⟩
    rw [importers_withoutEdge, if_pos rfl]
    exact (isOnlyImporter_iff_dropImporter (mem_of_isOnlyImporter only)).1 only
  · exact ⟨dead, h⟩

theorem Accounted.releaseComponent {provider : Provider} (hp : provider ∈ config.providers)
    (h : Accounted config entry start graph dead []) :
    ∃ dead, Accounted config entry start
      (graph.releaseComponent config.rootFactoryModule provider) dead [] := by
  rw [ImportGraph.releaseComponent]
  split
  · next found =>
    obtain ⟨hk, empty⟩ := get?_eq_some_importers_iff.1 found
    refine h.releaseEdge ⟨rfl, provider, hp, Or.inr ⟨rfl, ?_, ?_⟩⟩
    · rw [keys_withoutEdge]
      exact hk
    · exact (within_withoutEdge ..).eq_nil empty
  · exact ⟨dead, h⟩

/-- A pass over services of the catalogue keeps the account if each of its steps does. -/
theorem accounted_foldl {step : ImportGraph → Provider → ImportGraph}
    (keeps : ∀ {graph : ImportGraph} {dead : List String} {provider : Provider},
      provider ∈ config.providers → Accounted config entry start graph dead [] →
      ∃ dead, Accounted config entry start (step graph provider) dead [])
    {providers : List Provider} (listed : ∀ provider ∈ providers, provider ∈ config.providers)
    (h : ∃ dead, Accounted config entry start graph dead []) :
    ∃ dead, Accounted config entry start (providers.foldl step graph) dead [] := by
  induction providers generalizing graph with
  | nil => exact h
  | cons provider providers ih =>
    obtain ⟨dead, h⟩ := h
    exact ih (fun other ho => listed other (List.mem_cons_of_mem _ ho))
      (keeps (listed provider List.mem_cons_self) h)

theorem accounted_prunedGraph (graph : ImportGraph) (config : BuildConfig)
    (eligible : String → Bool) (entry : String) :
    ∃ dead, Accounted config entry (graph.eligiblePart eligible)
      (graph.prunedGraph config eligible entry true) dead [] := by
  have first := (accounted_start config entry (graph.eligiblePart eligible)).cascade
  have controllers := accounted_foldl Accounted.releaseController (fun _ hp => hp) ⟨_, first⟩
  exact accounted_foldl Accounted.releaseComponent (fun _ hp => hp) controllers

/-- **Every edge that the full pruning takes away has a reason, and the reasons are grounded.** Let
`start` be the eligible part of the graph and `left` both parts of the pruning together. They have
the same modules; what is left of a module's importers was there at the start and is neither the
barrel nor dead. Each edge that is gone started at the barrel, at a dead module, or at the root
factory by way of the catalogue. The dead can be listed so that all importers that one of them had
are excused by what stands in front of it. The modules that go are the ones that are not required
and have no importers left. -/
theorem unusedComponents_accounted (graph : ImportGraph) (config : BuildConfig)
    (eligible : String → Bool) :
    let start := graph.eligiblePart eligible
    let pruning := graph.unusedComponents config eligible
    let left := pruning.whole
    let entry := config.frameworkEntryPoint
    (∀ module, module ∈ left.keys ↔ module ∈ start.keys)
      ∧ (∀ module, ∀ importer ∈ left.importers module,
          importer ∈ start.importers module ∧ importer ≠ entry ∧ ¬ Died start left importer)
      ∧ (∀ module, ∀ importer ∈ start.importers module, importer ∉ left.importers module →
          importer = entry ∨ Died start left importer ∨ ServiceEdge config left importer module)
      ∧ (∃ dead : List String, dead.Nodup ∧ (∀ module, module ∈ dead ↔ Died start left module)
          ∧ ∀ before module after, dead = before ++ module :: after →
            ∀ importer ∈ start.importers module,
              importer = entry ∨ importer ∈ before ∨ ServiceEdge config left importer module)
      ∧ pruning.purged.keys = (start.keys.filter fun module =>
          left.importers module = [] ∧ module ∉ config.requiredModules)
      ∧ pruning.retained.keys = (start.keys.filter fun module =>
          ¬(left.importers module = [] ∧ module ∉ config.requiredModules)) := by
  intro start pruning left entry
  obtain ⟨dead, account⟩ := accounted_prunedGraph graph config eligible entry
  have importers : ∀ module, left.importers module
      = (graph.prunedGraph config eligible entry true).importers module :=
    importers_whole_divide _ _
  have died : ∀ module, module ∈ dead ↔ Died start left module := fun module =>
    (account.died module).trans (died_whole_divide _).symm
  refine ⟨?_, ?_, ?_, ⟨dead, account.nodup, died, ?_⟩, ?_, ?_⟩
  · intro module
    rw [← account.within.keys]
    exact mem_keys_whole_divide _ _ _
  · intro module importer hi
    rw [importers] at hi
    refine ⟨account.within.importers module importer hi, fun hentry => ?_, fun hdead => ?_⟩
    · exact absurd (account.gone module importer hi (Or.inl hentry)) (by simp)
    · exact absurd (account.gone module importer hi (Or.inr ((died importer).2 hdead))) (by simp)
  · intro module importer hi hgone
    rw [importers] at hgone
    have reason := (account.excused module importer hi hgone).whole_divide config.requiredModules
    exact reason.imp id (Or.imp (died importer).1 id)
  · intro before module after split importer hi
    exact (account.grounded before module after split importer hi).whole_divide _
  · rw [← account.within.keys]
    simp only [importers]
    exact keys_purged_divide _ _
  · rw [← account.within.keys]
    simp only [importers]
    exact keys_retained_divide _ _

end ImportGraph

end RouteTrim
