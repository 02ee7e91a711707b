import RouteTrim.Proofs.Graph.WorkList

/-!
# Which modules a pruning takes away

A pruning divides the eligible modules by what the cascade leaves of their importers. Since a
cascade is told by the modules that it releases, so is the division: an eligible module goes if it
is not required and each other module that imports it is the entry or released.
`cascade_and_prune_exact` puts this beside everything that is known about the released modules
themselves.

The second half asks what the modules that stay have to do with the ones that go. A module that goes
may be imported by one that stays, and there is one way for that to happen: the importer is
required, so it stays in any case, but the cascade released it all the same and took its imports
away (`importer_of_purged`). The cascade looks at importers only, and the list of required modules
is asked when the graph is divided, not before.
-/

set_option autoImplicit false

namespace RouteTrim

open RouteTrim.Settings (BuildConfig)

namespace ImportGraph

variable {graph : ImportGraph} {config : BuildConfig} {eligible : String → Bool}

/-! ## The two parts -/

theorem keys_purged_divide (graph : ImportGraph) (required : List String) :
    (graph.divide required).purged.keys
      = graph.keys.filter fun module => graph.importers module = [] ∧ module ∉ required := by
  refine OrderedMap.keys_filter graph fun entry he => ?_
  rw [(importers_of_mem_entries he : graph.importers entry.1 = entry.2)]
  cases entry.2 <;> simp

theorem keys_retained_divide (graph : ImportGraph) (required : List String) :
    (graph.divide required).retained.keys
      = graph.keys.filter fun module => ¬(graph.importers module = [] ∧ module ∉ required) := by
  refine OrderedMap.keys_filter graph fun entry he => ?_
  rw [(importers_of_mem_entries he : graph.importers entry.1 = entry.2)]
  cases entry.2 <;> simp

theorem mem_keys_purged_divide {required : List String} {module : String} :
    module ∈ (graph.divide required).purged.keys
      ↔ module ∈ graph.keys ∧ graph.importers module = [] ∧ module ∉ required := by
  rw [keys_purged_divide, List.mem_filter, decide_eq_true_eq]

theorem mem_keys_retained_divide {required : List String} {module : String} :
    module ∈ (graph.divide required).retained.keys
      ↔ module ∈ graph.keys ∧ ¬(graph.importers module = [] ∧ module ∉ required) := by
  rw [keys_retained_divide, List.mem_filter, decide_eq_true_eq]

theorem importers_retained_divide {required : List String} {module : String}
    (h : module ∈ (graph.divide required).retained.keys) :
    (graph.divide required).retained.importers module = graph.importers module := by
  obtain ⟨hk, hs⟩ := mem_keys_retained_divide.1 h
  have found := get?_eq_some_importers_iff.2 ⟨hk, rfl⟩
  show (OrderedMap.get? (graph.filter _) module).getD [] = _
  rw [OrderedMap.get?_filter, found, Option.filter, if_pos]
  · rfl
  · cases hi : graph.importers module with
    | nil => simpa [hi] using hs
    | cons => rfl

/-! ## Pruning without the services -/

/-- The modules that a pruning releases, in the order of their release. -/
def releasedFrom (graph : ImportGraph) (eligible : String → Bool) (entry : String) : List String :=
  ((graph.eligiblePart eligible).cascadeFrom entry).2

/-- Whether an eligible module goes: it is not required, and every other module that imports it is
the entry or released. -/
def goes (graph : ImportGraph) (config : BuildConfig) (eligible : String → Bool) (entry : String)
    (module : String) : Bool :=
  module ∉ config.requiredModules ∧
    ∀ importer ∈ graph.importers module,
      importer = module ∨ importer = entry ∨ importer ∈ graph.releasedFrom eligible entry

theorem keys_prunedGraph_false (graph : ImportGraph) (config : BuildConfig)
    (eligible : String → Bool) (entry : String) :
    (graph.prunedGraph config eligible entry false).keys = graph.keys.filter eligible :=
  (keys_cascade ..).trans (keys_eligiblePart ..)

theorem prunedGraph_congr {eligible' : String → Bool}
    (same : ∀ module ∈ graph.keys, eligible module = eligible' module) (config : BuildConfig)
    (entry : String) (withProviders : Bool) :
    graph.prunedGraph config eligible entry withProviders
      = graph.prunedGraph config eligible' entry withProviders := by
  rw [prunedGraph, prunedGraph, eligiblePart_congr same]

/-- Nothing is left of an eligible module's importers if each of them was the module itself, the
entry or released. -/
theorem importers_prunedGraph_eq_nil_iff {entry module : String} (he : eligible module = true) :
    (graph.prunedGraph config eligible entry false).importers module = []
      ↔ ∀ importer ∈ graph.importers module,
          importer = module ∨ importer = entry ∨ importer ∈ graph.releasedFrom eligible entry := by
  have left : ∀ importer,
      importer ∈ (graph.prunedGraph config eligible entry false).importers module
        ↔ (importer ∈ graph.importers module ∧ importer ≠ module) ∧ importer ∉ [entry]
          ∧ importer ∉ graph.releasedFrom eligible entry := by
    intro importer
    refine mem_importers_cascade.trans ?_
    rw [importers_eligiblePart, if_pos he, mem_dropImporter]
    rfl
  rw [List.eq_nil_iff_forall_not_mem]
  constructor
  · intro none importer hi
    by_cases hm : importer = module
    · exact Or.inl hm
    by_cases hentry : importer = entry
    · exact Or.inr (Or.inl hentry)
    by_cases hr : importer ∈ graph.releasedFrom eligible entry
    · exact Or.inr (Or.inr hr)
    · exact absurd ((left importer).2 ⟨⟨hi, hm⟩, by simpa using hentry, hr⟩) (none importer)
  · intro all importer hi
    obtain ⟨⟨hi, hm⟩, hentry, hr⟩ := (left importer).1 hi
    rcases all importer hi with h | h | h
    · exact hm h
    · exact hentry (List.mem_singleton.2 h)
    · exact hr h

theorem keys_purged_prune (graph : ImportGraph) (config : BuildConfig) (eligible : String → Bool)
    (entry : String) :
    (graph.prune config eligible entry false).purged.keys
      = graph.keys.filter fun module =>
          eligible module && graph.goes config eligible entry module := by
  rw [prune, keys_purged_divide, keys_prunedGraph_false, List.filter_filter]
  refine List.filter_congr fun module _ => ?_
  by_cases he : eligible module = true
  · simp only [importers_prunedGraph_eq_nil_iff he, goes, he, and_comm, Bool.true_and,
      Bool.and_true]
  · simp only [he, Bool.and_false, Bool.false_and]

theorem keys_retained_prune (graph : ImportGraph) (config : BuildConfig) (eligible : String → Bool)
    (entry : String) :
    (graph.prune config eligible entry false).retained.keys
      = graph.keys.filter fun module =>
          eligible module && !graph.goes config eligible entry module := by
  rw [prune, keys_retained_divide, keys_prunedGraph_false, List.filter_filter]
  refine List.filter_congr fun module _ => ?_
  by_cases he : eligible module = true
  · simp only [importers_prunedGraph_eq_nil_iff he, goes, he, and_comm, Bool.true_and,
      Bool.and_true, decide_not]
  · simp only [he, Bool.and_false, Bool.false_and]

/-- **The cascade computes a least closure, and a pruning is read off it.** From any graph and any
root, the loop over the fixed index ends with the cascade's result. What is released is released
once, is the least set closed under release from the root, and is exactly what all modules lose as
importers besides the root; each released module stands behind all of its importers. A pruning takes
away the eligible modules that are not required and whose other importers are all the entry or
released, keeps the other eligible ones, and changes the order of neither. -/
theorem cascade_and_prune_exact (graph : ImportGraph) (config : BuildConfig)
    (eligible : String → Bool) (root : String) :
    let left := (graph.cascadeFrom root).1
    let released := (graph.cascadeFrom root).2
    Work.Runs graph.importsOf ⟨graph, [root], []⟩ ⟨left, [], released⟩
      ∧ released.Nodup
      ∧ graph.ReleaseClosed [root] (· ∈ released)
      ∧ (∀ set : String → Prop, graph.ReleaseClosed [root] set → ∀ module ∈ released, set module)
      ∧ left.keys = graph.keys
      ∧ (∀ module, left.importers module
          = (graph.importers module).filter fun importer => importer ≠ root ∧ importer ∉ released)
      ∧ (∀ before module after, released = before ++ module :: after →
          ∀ importer ∈ graph.importers module, importer = root ∨ importer ∈ before)
      ∧ (graph.prune config eligible root false).purged.keys
          = (graph.keys.filter fun module =>
              eligible module && graph.goes config eligible root module)
      ∧ (graph.prune config eligible root false).retained.keys
          = (graph.keys.filter fun module =>
              eligible module && !graph.goes config eligible root module) := by
  refine ⟨runs_cascade graph [root], nodup_cascade graph [root],
    releaseClosed_cascade graph [root], fun set closed => cascade_least closed,
    keys_cascade graph [root], fun module => ?_, fun before module after h importer hi => ?_,
    keys_purged_prune graph config eligible root, keys_retained_prune graph config eligible root⟩
  · refine (importers_cascade graph [root] module).trans (List.filter_congr fun importer _ => ?_)
    simp only [List.mem_singleton]
    rfl
  · exact (mem_before_of_cascade h importer hi).imp List.mem_singleton.1 id

/-! ## What stays and imports what goes -/

/-- **What imports a module that goes was released itself.** Let a pruning take a module away, and
let another module, which is not the entry, import it. The importer is eligible and the cascade
released it; if it is not required it goes too, and if it is required it stays with no importers
left. So a module that goes is imported by no module that may not be pruned, and by no module that
stays and is still in use. -/
theorem importer_of_purged {entry module importer : String}
    (purged : module ∈ (graph.prune config eligible entry false).purgedPaths)
    (imports : importer ∈ graph.importers module) (other : importer ≠ module)
    (notEntry : importer ≠ entry) :
    eligible importer = true
      ∧ importer ∈ graph.releasedFrom eligible entry
      ∧ (importer ∉ config.requiredModules →
          importer ∈ (graph.prune config eligible entry false).purgedPaths)
      ∧ (importer ∈ config.requiredModules →
          importer ∈ (graph.prune config eligible entry false).retained.keys
            ∧ (graph.prune config eligible entry false).retained.importers importer = []) := by
  have hgoes : graph.goes config eligible entry module = true := by
    rw [Pruning.purgedPaths, keys_purged_prune, List.mem_filter, Bool.and_eq_true] at purged
    exact purged.2.2
  have hreleased : importer ∈ graph.releasedFrom eligible entry := by
    rw [goes, decide_eq_true_eq] at hgoes
    rcases hgoes.2 importer imports with h | h | h
    · exact absurd h other
    · exact absurd h notEntry
    · exact h
  have hkey : importer ∈ (graph.prunedGraph config eligible entry false).keys := by
    rw [keys_prunedGraph_false, ← keys_eligiblePart]
    exact mem_keys_of_cascade hreleased
  have hnone : (graph.prunedGraph config eligible entry false).importers importer = [] :=
    importers_cascade_of_mem hreleased
  refine ⟨?_, hreleased, fun free => ?_, fun required => ?_⟩
  · rw [keys_prunedGraph_false, List.mem_filter] at hkey
    exact hkey.2
  · exact mem_keys_purged_divide.2 ⟨hkey, hnone, free⟩
  · have hstays : importer ∈ (graph.prune config eligible entry false).retained.keys :=
      mem_keys_retained_divide.2 ⟨hkey, fun h => h.2 required⟩
    exact ⟨hstays, (importers_retained_divide hstays).trans hnone⟩

/-- The configuration of a small project below `/app`, with the usual names. -/
def sampleConfig : BuildConfig where
  rootDir := "/app"
  srcDir := "/app/src"
  rootDescriptorPath := "/app/src/app/app.module.ts"
  appEntryPoint := "/app/src/app/main.ts"
  frameworkDir := "/app/node_modules/ionic-angular"
  frameworkEntryPoint := "/app/node_modules/ionic-angular/index.js"
  compiledMode := false
  descriptorSuffix := ".module.ts"
  compiledSuffix := ".ngfactory"
  compiledClassSuffix := "NgFactory"
  routeDecorator := "IonicPage"
  registrarDecorator := "NgModule"
  frameworkModule := "IonicModule"
  frameworkRootMethod := "forRoot"
  compiledRegistryField := "_DeepLinkConfigToken"
  compiledFactoryMarker := ".ngfactory."
  providers := []

/-- The bootstrap file is imported by the barrel alone, a page by the bootstrap file, and a part of
the page by the page. -/
def bootstrapChain : ImportGraph :=
  .ofList [("/app/src/app/main.js", ["/app/node_modules/ionic-angular/index.js"]),
    ("/app/src/pages/home/home.js", ["/app/src/app/main.js"]),
    ("/app/src/pages/home/card.js", ["/app/src/pages/home/home.js"])]

/-- The pruning of the chain from the barrel. -/
def bootstrapPruning : Pruning :=
  bootstrapChain.prune sampleConfig (isEligible sampleConfig) sampleConfig.frameworkEntryPoint false

/-- Both kinds of importers: the page goes with its part, the bootstrap file stays unused. -/
theorem importer_of_purged_bootstrapChain :
    "/app/src/pages/home/home.js" ∈ bootstrapPruning.purgedPaths
      ∧ "/app/src/app/main.js" ∈ bootstrapPruning.retained.keys
      ∧ bootstrapPruning.retained.importers "/app/src/app/main.js" = [] :=
  ⟨(@importer_of_purged bootstrapChain sampleConfig (isEligible sampleConfig)
      sampleConfig.frameworkEntryPoint "/app/src/pages/home/card.js" "/app/src/pages/home/home.js"
      (by decide +kernel) (by decide +kernel) (by decide) (by decide)).2.2.1 (by decide +kernel),
    (@importer_of_purged bootstrapChain sampleConfig (isEligible sampleConfig)
      sampleConfig.frameworkEntryPoint "/app/src/pages/home/home.js" "/app/src/app/main.js"
      (by decide +kernel) (by decide +kernel) (by decide) (by decide)).2.2.2 (by decide +kernel)⟩

/-- Not everything that imports a purged module is purged: the page of the chain goes, and the
bootstrap file, which imports it, stays. -/
theorem retained_imports_purged :
    ¬ ∀ module ∈ bootstrapPruning.purgedPaths, ∀ importer ∈ bootstrapChain.importers module,
      importer ≠ module → importer ≠ sampleConfig.frameworkEntryPoint →
      importer ∈ bootstrapPruning.purgedPaths := by
  decide +kernel

end ImportGraph

end RouteTrim
