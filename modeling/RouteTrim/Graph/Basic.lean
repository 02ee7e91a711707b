import RouteTrim.OrderedMap

/-!
# Import graphs

The bundler reports, for every module, the modules that import it. So an edge leads from an importer
to what it imports, and a module without importers is used by nothing. The importers of a module
are a set: a list of which only the members count.
-/

set_option autoImplicit false

namespace RouteTrim

/-- The importers of each module, in the order of the report. -/
abbrev ImportGraph := OrderedMap String (List String)

namespace ImportGraph

/-- The importers of a module; a module that is not in the graph has none. -/
def importers (graph : ImportGraph) (module : String) : List String :=
  (graph.get? module).getD []

def edgeCount (graph : ImportGraph) : Nat :=
  graph.entries.foldr (fun entry edges => entry.2.length + edges) 0

/-- A list of importers without one of them. -/
def dropImporter (importer : String) (importers : List String) : List String :=
  importers.filter fun other => other != importer

/-- The graph without the edges that start at a module. -/
def withoutImporter (graph : ImportGraph) (importer : String) : ImportGraph :=
  graph.mapValues fun _ importers => dropImporter importer importers

def withoutEdge (graph : ImportGraph) (module importer : String) : ImportGraph :=
  graph.mapValues fun key importers =>
    if key = module then dropImporter importer importers else importers

/-- Whether a module is the one and only importer in a list. -/
def isOnlyImporter (importer : String) (importers : List String) : Bool :=
  !importers.isEmpty && importers.all fun other => other == importer

/-- The modules that only the given module imports, in the order of the graph. -/
def importedOnlyBy (graph : ImportGraph) (importer : String) : List String :=
  (graph.entries.filter fun entry => isOnlyImporter importer entry.2).map Prod.fst

theorem isOnlyImporter_iff {importer : String} {importers : List String} :
    isOnlyImporter importer importers = true ↔
      importers ≠ [] ∧ ∀ other ∈ importers, other = importer := by
  simp [isOnlyImporter]

theorem dropImporter_eq_nil_iff {importer : String} {importers : List String} :
    dropImporter importer importers = [] ↔ ∀ other ∈ importers, other = importer := by
  simp [dropImporter, List.filter_eq_nil_iff]

theorem length_dropImporter_le (importer : String) (importers : List String) :
    (dropImporter importer importers).length ≤ importers.length :=
  List.length_filter_le ..

theorem length_importedOnlyBy_add_edgeCount_le (graph : ImportGraph) (importer : String) :
    (graph.importedOnlyBy importer).length + (graph.withoutImporter importer).edgeCount
      ≤ graph.edgeCount := by
  obtain ⟨entries, nodup⟩ := graph
  simp only [importedOnlyBy, withoutImporter, edgeCount, OrderedMap.mapValues, List.length_map]
  clear nodup
  induction entries with
  | nil => simp
  | cons entry entries ih =>
    have hle := length_dropImporter_le importer entry.2
    by_cases h : isOnlyImporter importer entry.2 = true
    · obtain ⟨hne, hall⟩ := isOnlyImporter_iff.1 h
      have hnil := dropImporter_eq_nil_iff.2 hall
      have hpos := List.length_pos_iff.2 hne
      simp only [List.filter_cons, h, if_true, List.length_cons, List.map_cons, List.foldr_cons,
        hnil, List.length_nil]
      omega
    · simp only [List.filter_cons, h, if_false, List.map_cons, List.foldr_cons, Bool.false_eq_true]
      omega

end ImportGraph

end RouteTrim
