import RouteTrim.Graph.Basic

/-!
# The cascade

Once a module is out of use, what it imports may be out of use too. The cascade takes the edges of
a module away; each module that loses its last importer by that is released, and its own edges are
taken away in turn. A module that something else still imports keeps its edges, and so does one
that never had an importer.

Released modules wait on a stack, the last one on top. Taking away an edge never adds one and a
release costs at least one edge, so the number of edges and waiting modules falls with each step.
-/

set_option autoImplicit false

namespace RouteTrim.ImportGraph

/-- Takes away the edges of the waiting modules. Gives the graph that is left and the modules that
were released, in the order of their release. -/
def cascade (graph : ImportGraph) : List String → ImportGraph × List String
  | [] => (graph, [])
  | module :: waiting =>
    let freed := graph.importedOnlyBy module
    let rest := cascade (graph.withoutImporter module) (freed.reverse ++ waiting)
    (rest.1, freed ++ rest.2)
termination_by waiting => graph.edgeCount + waiting.length
decreasing_by
  have h := length_importedOnlyBy_add_edgeCount_le graph module
  simp only [List.length_append, List.length_reverse, List.length_cons]
  omega

def cascadeFrom (graph : ImportGraph) (root : String) : ImportGraph × List String :=
  graph.cascade [root]

/-- Takes one edge away, and cascades from the module if that was its last importer. Also tells
whether there was such an edge. -/
def releaseEdge (graph : ImportGraph) (module importer : String) : ImportGraph × Bool :=
  let importers := graph.importers module
  if importer ∈ importers then
    let without := graph.withoutEdge module importer
    if isOnlyImporter importer importers then ((without.cascadeFrom module).1, true)
    else (without, true)
  else (graph, false)

end RouteTrim.ImportGraph
