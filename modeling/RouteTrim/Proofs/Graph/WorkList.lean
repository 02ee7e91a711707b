import RouteTrim.Proofs.Graph.Cascade

/-!
# The cascade as a loop over a fixed index

`cascade` asks the graph that is left, at every step, which modules the waiting one imports. A loop
need not: it may look up the imports once, in the graph at the start, and follow that list for the
whole run, passing over the imports that have gone in the meantime. It then works edge by edge,
drops one importer from one module's set at a time and puts a module on the stack the moment its set
is empty.

`runs_cascade` says that this loop always comes to an end, and with what `cascade` gives: the same
graph and the same list of released modules in the same order. The invariant is small. Edges only
go, so the list from the start holds every import that is left (`Within`), and an import that has
gone is no edge to drop.
-/

set_option autoImplicit false

namespace RouteTrim.ImportGraph

/-- The modules that a module imports, in the order of the graph. -/
def importsOf (graph : ImportGraph) (importer : String) : List String :=
  graph.keys.filter fun module => importer ∈ graph.importers module

/-- What the loop changes: the graph, the stack and the list of released modules. -/
structure Work where
  graph : ImportGraph
  pending : List String
  released : List String

namespace Work

/-- Takes one edge away, if it is still there; a module that is left without importers is released
and waits. -/
def takeEdge (current : String) (work : Work) (module : String) : Work :=
  if current ∈ work.graph.importers module then
    let graph := work.graph.withoutEdge module current
    if graph.importers module = [] then
      ⟨graph, module :: work.pending, work.released ++ [module]⟩
    else ⟨graph, work.pending, work.released⟩
  else work

/-- One turn of the loop: the imports of the module on top of the stack, one by one. -/
def step (index : String → List String) (work : Work) : Option Work :=
  match work.pending with
  | [] => none
  | current :: pending =>
    some ((index current).foldl (takeEdge current) { work with pending := pending })

/-- The loop turns until the stack is empty. -/
inductive Runs (index : String → List String) : Work → Work → Prop where
  | done {work : Work} : work.step index = none → Runs index work work
  | turn {work next last : Work} :
      work.step index = some next → Runs index next last → Runs index work last

end Work

variable {graph start : ImportGraph} {current module : String}

/-- A graph from which edges of the start have gone. -/
structure Within (graph start : ImportGraph) : Prop where
  keys : graph.keys = start.keys
  importers : ∀ module, ∀ importer ∈ graph.importers module, importer ∈ start.importers module

theorem Within.refl (graph : ImportGraph) : Within graph graph :=
  ⟨rfl, fun _ _ h => h⟩

theorem Within.withoutImporter (h : Within graph start) (importer : String) :
    Within (graph.withoutImporter importer) start := by
  refine ⟨(keys_withoutImporter ..).trans h.keys, fun module other ho => ?_⟩
  exact h.importers module other (mem_importers_withoutImporter.1 ho).1

theorem nodup_importsOf (graph : ImportGraph) (importer : String) :
    (graph.importsOf importer).Nodup :=
  graph.nodup_keys.sublist List.filter_sublist

theorem mem_importsOf : module ∈ graph.importsOf current ↔ current ∈ graph.importers module := by
  rw [importsOf, List.mem_filter, decide_eq_true_eq]
  exact ⟨fun ⟨_, h⟩ => h, fun h => ⟨mem_keys_of_mem_importers h, h⟩⟩

/-! ## One edge, one module's edges -/

def withoutEdges (graph : ImportGraph) (modules : List String) (importer : String) : ImportGraph :=
  graph.mapValues fun module importers =>
    if module ∈ modules then dropImporter importer importers else importers

@[simp] theorem keys_withoutEdges (graph : ImportGraph) (modules : List String)
    (importer : String) : (graph.withoutEdges modules importer).keys = graph.keys :=
  OrderedMap.keys_mapValues ..

theorem importers_withoutEdges (graph : ImportGraph) (modules : List String)
    (importer module : String) :
    (graph.withoutEdges modules importer).importers module
      = if module ∈ modules then dropImporter importer (graph.importers module)
        else graph.importers module :=
  importers_mapValues fun module => by split <;> rfl

theorem withoutEdges_nil (graph : ImportGraph) (importer : String) :
    graph.withoutEdges [] importer = graph :=
  ext (keys_withoutEdges ..) fun module _ => by rw [importers_withoutEdges, if_neg (by simp)]

theorem withoutEdges_cons {modules : List String} (fresh : module ∉ modules) (importer : String) :
    graph.withoutEdges (module :: modules) importer
      = (graph.withoutEdge module importer).withoutEdges modules importer := by
  refine ext (by simp) fun other _ => ?_
  rw [importers_withoutEdges, importers_withoutEdges, importers_withoutEdge]
  by_cases same : other = module
  · rw [same, if_pos List.mem_cons_self, if_neg fresh, if_pos rfl]
  · simp only [List.mem_cons, same, false_or, if_false]

theorem withoutEdge_eq_self (h : current ∉ graph.importers module) :
    graph.withoutEdge module current = graph := by
  refine ext (keys_withoutEdge ..) fun other _ => ?_
  rw [importers_withoutEdge]
  split
  · next same => rw [same, dropImporter_eq_self h]
  · rfl

/-- The modules of a list that have no importer besides a given one. -/
def freedIn (graph : ImportGraph) (current : String) (modules : List String) : List String :=
  modules.filter fun module => isOnlyImporter current (graph.importers module)

theorem freedIn_cons (graph : ImportGraph) (current module : String) (modules : List String) :
    graph.freedIn current (module :: modules)
      = graph.freedIn current [module] ++ graph.freedIn current modules :=
  List.filter_append [module] modules

/-- What the loop does with one edge, told without asking whether the edge is there. -/
theorem takeEdge_eq (current : String) (work : Work) (module : String) :
    work.takeEdge current module
      = ⟨work.graph.withoutEdge module current,
          (work.graph.freedIn current [module]).reverse ++ work.pending,
          work.released ++ work.graph.freedIn current [module]⟩ := by
  by_cases there : current ∈ work.graph.importers module
  · have only := isOnlyImporter_iff_dropImporter there
    by_cases hnil : dropImporter current (work.graph.importers module) = []
    · simp [Work.takeEdge, freedIn, there, importers_withoutEdge, hnil, only.2 hnil]
    · have more : isOnlyImporter current (work.graph.importers module) = false := by
        simpa using fun h => hnil (only.1 h)
      simp [Work.takeEdge, freedIn, there, importers_withoutEdge, hnil, more]
  · have more : isOnlyImporter current (work.graph.importers module) = false := by
      simpa using fun h => there (mem_of_isOnlyImporter h)
    simp [Work.takeEdge, freedIn, there, more, withoutEdge_eq_self there]

theorem takeEdges_eq (current : String) {modules : List String} (nodup : modules.Nodup)
    (work : Work) :
    modules.foldl (Work.takeEdge current) work
      = ⟨work.graph.withoutEdges modules current,
          (work.graph.freedIn current modules).reverse ++ work.pending,
          work.released ++ work.graph.freedIn current modules⟩ := by
  induction modules generalizing work with
  | nil => rw [List.foldl_nil, withoutEdges_nil]; simp [freedIn]
  | cons module modules ih =>
    obtain ⟨fresh, nodup⟩ := List.nodup_cons.1 nodup
    -- The later modules are other ones, so the first edge leaves their importers as they are.
    have later : (work.graph.withoutEdge module current).freedIn current modules
        = work.graph.freedIn current modules := by
      refine List.filter_congr fun other ho => ?_
      have hne : other ≠ module := by
        rintro rfl
        exact fresh ho
      rw [importers_withoutEdge, if_neg hne]
    rw [List.foldl_cons, ih nodup, takeEdge_eq, withoutEdges_cons fresh,
      freedIn_cons work.graph current module modules]
    simp only [later, List.reverse_append, List.append_assoc]

/-- The index of the start names all edges that are left, so one turn of the loop is one step of
the cascade. -/
theorem takeEdges_importsOf (within : Within graph start) (current : String)
    (pending released : List String) :
    (start.importsOf current).foldl (Work.takeEdge current) ⟨graph, pending, released⟩
      = ⟨graph.withoutImporter current, (graph.importedOnlyBy current).reverse ++ pending,
          released ++ graph.importedOnlyBy current⟩ := by
  have graphs : graph.withoutEdges (start.importsOf current) current
      = graph.withoutImporter current := by
    refine ext (by simp) fun module _ => ?_
    rw [importers_withoutEdges, importers_withoutImporter]
    split
    · rfl
    · next gone =>
      refine (dropImporter_eq_self fun left => gone ?_).symm
      exact mem_importsOf.2 (within.importers module current left)
  have freed : graph.freedIn current (start.importsOf current) = graph.importedOnlyBy current := by
    rw [freedIn, importsOf, List.filter_filter, importedOnlyBy_eq, within.keys]
    refine List.filter_congr fun module _ => ?_
    by_cases only : isOnlyImporter current (graph.importers module) = true
    · simp [only, within.importers module current (mem_of_isOnlyImporter only)]
    · simp [only]
  rw [takeEdges_eq current (start.nodup_importsOf current)]
  simp only [graphs, freed]

/-! ## The whole loop -/

theorem runs_of_within (within : Within graph start) (waiting released : List String) :
    Work.Runs start.importsOf ⟨graph, waiting, released⟩
      ⟨(graph.cascade waiting).1, [], released ++ (graph.cascade waiting).2⟩ := by
  induction graph, waiting using cascade.induct generalizing released with
  | case1 graph =>
    rw [cascade_nil, List.append_nil]
    exact .done rfl
  | case2 graph module waiting freed =>
    rename_i ih
    rw [cascade_cons, ← List.append_assoc]
    exact .turn (congrArg some (takeEdges_importsOf within module waiting released))
      (ih (within.withoutImporter module) (released ++ freed))

/-- **The loop over the index of the start ends, and with the result of the cascade.** -/
theorem runs_cascade (graph : ImportGraph) (waiting : List String) :
    Work.Runs graph.importsOf ⟨graph, waiting, []⟩
      ⟨(graph.cascade waiting).1, [], (graph.cascade waiting).2⟩ :=
  runs_of_within (.refl graph) waiting []

end RouteTrim.ImportGraph
