import RouteTrim.Graph.Pruning
import RouteTrim.Proofs.OrderedMap

/-!
# A graph as its keys and its importers

An import graph is a list of entries, but every statement about pruning speaks of two things only:
the order of the keys, and the importers of a module. This file says that nothing else counts
(`ImportGraph.ext`) and gives, for each operation that the cascade and the passes use, its effect on
the one and on the other. Proofs further on never look at entries again.

A module that is not in the graph has no importers. That is the right reading throughout: an edge
taken away from such a module changes nothing, so the equations below hold for every module and not
only for the keys.
-/

set_option autoImplicit false

namespace RouteTrim

namespace ImportGraph

variable {graph : ImportGraph} {module importer : String}

theorem nodup_keys (graph : ImportGraph) : graph.keys.Nodup :=
  graph.nodup

theorem importers_of_mem_entries {importers : List String}
    (h : (module, importers) ∈ graph.entries) : graph.importers module = importers := by
  rw [ImportGraph.importers, (OrderedMap.get?_eq_some_iff ..).2 h]
  rfl

theorem importers_of_not_mem_keys (h : module ∉ graph.keys) : graph.importers module = [] := by
  rw [ImportGraph.importers, (OrderedMap.get?_eq_none_iff ..).2 h]
  rfl

theorem mem_keys_of_importers_ne_nil (h : graph.importers module ≠ []) : module ∈ graph.keys := by
  by_cases hk : module ∈ graph.keys
  · exact hk
  · exact absurd (importers_of_not_mem_keys hk) h

theorem mem_keys_of_mem_importers (h : importer ∈ graph.importers module) :
    module ∈ graph.keys :=
  mem_keys_of_importers_ne_nil (List.ne_nil_of_mem h)

theorem get?_eq_some_importers_iff {importers : List String} :
    graph.get? module = some importers ↔ module ∈ graph.keys
      ∧ graph.importers module = importers := by
  constructor
  · intro h
    refine ⟨?_, by rw [ImportGraph.importers, h]; rfl⟩
    by_cases hk : module ∈ graph.keys
    · exact hk
    · rw [(OrderedMap.get?_eq_none_iff ..).2 hk] at h
      exact absurd h (by simp)
  · rintro ⟨hk, rfl⟩
    cases hg : graph.get? module with
    | none => exact absurd hk ((OrderedMap.get?_eq_none_iff ..).1 hg)
    | some importers => rw [ImportGraph.importers, hg]; rfl

theorem entries_eq (graph : ImportGraph) :
    graph.entries = graph.keys.map fun module => (module, graph.importers module) := by
  rw [OrderedMap.keys, List.map_map]
  refine (List.map_id _).symm.trans (List.map_congr_left fun entry h => ?_)
  rw [Function.comp_apply, (importers_of_mem_entries h : graph.importers entry.1 = entry.2)]
  rfl

/-- Two graphs are equal if they have the same keys in the same order and the same importers. -/
theorem ext {other : ImportGraph} (keys : graph.keys = other.keys)
    (importers : ∀ module ∈ graph.keys, graph.importers module = other.importers module) :
    graph = other := by
  have entries : graph.entries = other.entries := by
    rw [entries_eq graph, entries_eq other, ← keys]
    exact List.map_congr_left fun module h => by rw [importers module h]
  cases graph
  cases other
  cases entries
  rfl

/-! ## Lists of importers -/

theorem mem_dropImporter {other : String} {importers : List String} :
    other ∈ dropImporter importer importers ↔ other ∈ importers ∧ other ≠ importer := by
  simp [dropImporter]

@[simp] theorem dropImporter_nil (importer : String) : dropImporter importer [] = [] := rfl

theorem dropImporter_eq_self {importers : List String} (h : importer ∉ importers) :
    dropImporter importer importers = importers := by
  refine List.filter_eq_self.2 fun other ho => ?_
  simp only [bne_iff_ne, ne_eq]
  intro same
  exact h (same ▸ ho)

theorem mem_of_isOnlyImporter {importers : List String}
    (h : isOnlyImporter importer importers = true) : importer ∈ importers := by
  obtain ⟨hne, hall⟩ := isOnlyImporter_iff.1 h
  obtain ⟨other, ho⟩ := List.exists_mem_of_ne_nil _ hne
  exact hall other ho ▸ ho

theorem isOnlyImporter_iff_dropImporter {importers : List String} (h : importer ∈ importers) :
    isOnlyImporter importer importers = true ↔ dropImporter importer importers = [] := by
  rw [isOnlyImporter_iff, dropImporter_eq_nil_iff]
  exact ⟨fun ⟨_, hall⟩ => hall, fun hall => ⟨List.ne_nil_of_mem h, hall⟩⟩

/-! ## The operations -/

/-- A change of values that leaves the empty list alone changes the importers of every module. -/
theorem importers_mapValues {f : String → List String → List String}
    (hf : ∀ module, f module [] = []) :
    ImportGraph.importers (graph.mapValues f) module = f module (graph.importers module) := by
  rw [ImportGraph.importers, ImportGraph.importers, OrderedMap.get?_mapValues]
  cases graph.get? module with
  | none => exact (hf module).symm
  | some importers => rfl

@[simp] theorem keys_withoutImporter (graph : ImportGraph) (importer : String) :
    (graph.withoutImporter importer).keys = graph.keys :=
  OrderedMap.keys_mapValues ..

@[simp] theorem importers_withoutImporter (graph : ImportGraph) (importer module : String) :
    (graph.withoutImporter importer).importers module
      = dropImporter importer (graph.importers module) :=
  importers_mapValues fun _ => rfl

theorem mem_importers_withoutImporter {other : String} :
    other ∈ (graph.withoutImporter importer).importers module
      ↔ other ∈ graph.importers module ∧ other ≠ importer := by
  rw [importers_withoutImporter, mem_dropImporter]

@[simp] theorem keys_withoutEdge (graph : ImportGraph) (module importer : String) :
    (graph.withoutEdge module importer).keys = graph.keys :=
  OrderedMap.keys_mapValues ..

theorem importers_withoutEdge (graph : ImportGraph) (module importer other : String) :
    (graph.withoutEdge module importer).importers other
      = if other = module then dropImporter importer (graph.importers other)
        else graph.importers other :=
  importers_mapValues fun other => by split <;> rfl

theorem importedOnlyBy_eq (graph : ImportGraph) (importer : String) :
    graph.importedOnlyBy importer
      = graph.keys.filter fun module => isOnlyImporter importer (graph.importers module) := by
  rw [importedOnlyBy, entries_eq, List.filter_map, List.map_map]
  exact List.map_id _

theorem mem_importedOnlyBy :
    module ∈ graph.importedOnlyBy importer
      ↔ graph.importers module ≠ [] ∧ ∀ other ∈ graph.importers module, other = importer := by
  rw [importedOnlyBy_eq, List.mem_filter, isOnlyImporter_iff]
  exact ⟨fun ⟨_, h⟩ => h, fun h => ⟨mem_keys_of_importers_ne_nil h.1, h⟩⟩

theorem nodup_importedOnlyBy (graph : ImportGraph) (importer : String) :
    (graph.importedOnlyBy importer).Nodup := by
  rw [importedOnlyBy_eq]
  exact graph.nodup_keys.sublist List.filter_sublist

@[simp] theorem keys_eligiblePart (graph : ImportGraph) (eligible : String → Bool) :
    (graph.eligiblePart eligible).keys = graph.keys.filter eligible := by
  rw [eligiblePart, OrderedMap.keys_mapValues]
  exact OrderedMap.keys_filter graph fun _ _ => rfl

theorem importers_eligiblePart (graph : ImportGraph) (eligible : String → Bool) (module : String) :
    (graph.eligiblePart eligible).importers module
      = if eligible module then dropImporter module (graph.importers module) else [] := by
  have kept : ImportGraph.importers (graph.filter fun module _ => eligible module) module
      = if eligible module then graph.importers module else [] := by
    rw [ImportGraph.importers, ImportGraph.importers, OrderedMap.get?_filter]
    cases graph.get? module with
    | none => simp
    | some importers => by_cases h : eligible module = true <;> simp [h, Option.filter]
  rw [eligiblePart, importers_mapValues fun _ => rfl, kept]
  split <;> rfl

/-- Only the modules of the graph are asked whether they may be pruned. -/
theorem eligiblePart_congr {eligible eligible' : String → Bool}
    (same : ∀ module ∈ graph.keys, eligible module = eligible' module) :
    graph.eligiblePart eligible = graph.eligiblePart eligible' := by
  refine ext ?_ fun module listed => ?_
  · rw [keys_eligiblePart, keys_eligiblePart, List.filter_congr same]
  · rw [keys_eligiblePart] at listed
    rw [importers_eligiblePart, importers_eligiblePart, same module (List.mem_filter.1 listed).1]

end ImportGraph

end RouteTrim
