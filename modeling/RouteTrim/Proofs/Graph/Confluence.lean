import RouteTrim.Proofs.Graph.Cascade

/-!
# Cascades one after the other

The pruner cascades from the barrel and then, service by service, from more modules. Each cascade
works on the graph that the earlier ones left, so a module may lose its importers to several of
them, and a root may have been released before its turn. None of this matters for the end: cascades
in turn release what one closure over all the roots at once releases.

The proof puts two runs together. `Releases` says of a list that it holds the least set closed under
release for some roots, and `Releases.append` that what a second run releases, in the graph that a
first run left, makes up with what the first run released the least closed set for the roots of
both. A least set does not depend on the order of the roots, of the modules or of the importers
(`Releases.mem_iff`), and what is left of a graph is told by the roots and the released modules.
-/

set_option autoImplicit false

namespace RouteTrim.ImportGraph

/-- Cascades from some roots in turn, each one in the graph that the last one left. Gives the graph
at the end and the modules that were released on the way. -/
def cascadeEach (graph : ImportGraph) : List String → ImportGraph × List String
  | [] => (graph, [])
  | root :: roots =>
    let first := graph.cascadeFrom root
    let rest := cascadeEach first.1 roots
    (rest.1, first.2 ++ rest.2)

/-- The same modules with the same importers, in whatever order. -/
structure Same (graph other : ImportGraph) : Prop where
  mem_keys : ∀ module, module ∈ graph.keys ↔ module ∈ other.keys
  mem_importers : ∀ module importer,
    importer ∈ graph.importers module ↔ importer ∈ other.importers module

/-- A list holds, each once, the modules of the least set that is closed under release. -/
structure Releases (graph : ImportGraph) (roots released : List String) : Prop where
  closed : graph.ReleaseClosed roots (· ∈ released)
  least : ∀ set, graph.ReleaseClosed roots set → ∀ module ∈ released, set module
  nodup : released.Nodup

/-- What is left of a graph when the edges of some roots and of some released modules are gone. -/
structure Leaves (graph : ImportGraph) (roots released : List String) (left : ImportGraph) :
    Prop where
  keys : left.keys = graph.keys
  importers : ∀ module, left.importers module = (graph.importers module).filter fun importer =>
    importer ∉ roots ∧ importer ∉ released

variable {graph other left last : ImportGraph} {roots others released more : List String}
  {module importer : String}

theorem Leaves.mem_importers (h : Leaves graph roots released left) :
    importer ∈ left.importers module ↔
      importer ∈ graph.importers module ∧ importer ∉ roots ∧ importer ∉ released := by
  rw [h.importers, List.mem_filter, decide_eq_true_eq]

/-- An importer that is left is one of the start; the others were roots or released. -/
theorem Leaves.cases (h : Leaves graph roots released left)
    (hi : importer ∈ graph.importers module) :
    importer ∈ roots ∨ importer ∈ released ∨ importer ∈ left.importers module := by
  by_cases hroot : importer ∈ roots
  · exact .inl hroot
  · by_cases hreleased : importer ∈ released
    · exact .inr (.inl hreleased)
    · exact .inr (.inr (h.mem_importers.2 ⟨hi, hroot, hreleased⟩))

theorem ReleaseClosed.of_subset {set : String → Prop} (closed : graph.ReleaseClosed roots set)
    (subset : ∀ root ∈ others, root ∈ roots) : graph.ReleaseClosed others set :=
  fun module hne hall =>
    closed module hne fun importer hi => (hall importer hi).imp_left (subset importer)

/-! ## Least closed sets -/

theorem Releases.justified (h : Releases graph roots released) (hm : module ∈ released) :
    ∀ importer ∈ graph.importers module, importer ∈ roots ∨ importer ∈ released := by
  refine (h.least (fun module => module ∈ released ∧ ∀ importer ∈ graph.importers module,
    importer ∈ roots ∨ importer ∈ released) ?_ module hm).2
  intro module hne hall
  have justified : ∀ importer ∈ graph.importers module, importer ∈ roots ∨ importer ∈ released :=
    fun importer hi => (hall importer hi).imp_right And.left
  exact ⟨h.closed module hne justified, justified⟩

theorem Releases.importers_eq_nil (h : Releases graph roots released)
    (leaves : Leaves graph roots released left) (hm : module ∈ released) :
    left.importers module = [] := by
  refine List.eq_nil_iff_forall_not_mem.2 fun importer hi => ?_
  obtain ⟨hi, hroot, hreleased⟩ := leaves.mem_importers.1 hi
  exact (h.justified hm importer hi).elim hroot hreleased

theorem Releases.importers_ne_nil (h : Releases graph roots released) (hm : module ∈ released) :
    graph.importers module ≠ [] :=
  h.least (fun module => graph.importers module ≠ []) (fun _ hne _ => hne) module hm

theorem Same.releaseClosed (same : Same graph other) (hroots : ∀ root, root ∈ roots ↔ root ∈ others)
    {set : String → Prop} (closed : graph.ReleaseClosed roots set) :
    other.ReleaseClosed others set := by
  intro module hne hall
  obtain ⟨importer, hi⟩ := List.exists_mem_of_ne_nil _ hne
  refine closed module (List.ne_nil_of_mem ((same.mem_importers module importer).2 hi)) ?_
  intro importer hi
  exact (hall importer ((same.mem_importers module importer).1 hi)).imp_left (hroots importer).2

theorem Same.of_perm (keys : graph.keys.Perm other.keys)
    (importers : ∀ module ∈ graph.keys, (graph.importers module).Perm (other.importers module)) :
    Same graph other := by
  refine ⟨fun module => keys.mem_iff, fun module importer => ?_⟩
  by_cases hk : module ∈ graph.keys
  · exact (importers module hk).mem_iff
  · rw [importers_of_not_mem_keys hk, importers_of_not_mem_keys fun hk' => hk (keys.mem_iff.2 hk')]

theorem Same.symm (same : Same graph other) : Same other graph :=
  ⟨fun module => (same.mem_keys module).symm,
    fun module importer => (same.mem_importers module importer).symm⟩

theorem Same.refl (graph : ImportGraph) : Same graph graph :=
  ⟨fun _ => Iff.rfl, fun _ _ => Iff.rfl⟩

/-- What is released depends on the modules, their importers and the roots, and on no order. -/
theorem Releases.mem_iff (h : Releases graph roots released) (h' : Releases other others more)
    (same : Same graph other) (hroots : ∀ root, root ∈ roots ↔ root ∈ others) :
    module ∈ released ↔ module ∈ more :=
  ⟨h.least _ (same.symm.releaseClosed (fun root => (hroots root).symm) h'.closed) module,
    h'.least _ (same.releaseClosed hroots h.closed) module⟩

/-- What is left depends on no order either. -/
theorem Leaves.same (h : Leaves graph roots released left) (h' : Leaves other others more last)
    (same : Same graph other) (hroots : ∀ root, root ∈ roots ↔ root ∈ others)
    (hreleased : ∀ module, module ∈ released ↔ module ∈ more) : Same left last := by
  refine ⟨fun module => ?_, fun module importer => ?_⟩
  · rw [h.keys, h'.keys]
    exact same.mem_keys module
  · rw [h.mem_importers, h'.mem_importers, same.mem_importers, hroots, hreleased]

/-! ## Two runs, one after the other -/

theorem releases_cascade (graph : ImportGraph) (waiting : List String) :
    Releases graph waiting (graph.cascade waiting).2 where
  closed := releaseClosed_cascade graph waiting
  least _ closed := cascade_least closed
  nodup := nodup_cascade graph waiting

theorem leaves_cascade (graph : ImportGraph) (waiting : List String) :
    Leaves graph waiting (graph.cascade waiting).2 (graph.cascade waiting).1 where
  keys := keys_cascade graph waiting
  importers := importers_cascade graph waiting

theorem Leaves.append (h : Leaves graph roots released left) (h' : Leaves left others more last) :
    Leaves graph (roots ++ others) (released ++ more) last := by
  refine ⟨h'.keys.trans h.keys, fun module => ?_⟩
  rw [h'.importers, h.importers, List.filter_filter]
  refine List.filter_congr fun importer _ => ?_
  rw [← Bool.decide_and, decide_eq_decide]
  simp only [List.mem_append]
  grind

theorem Releases.append (h : Releases graph roots released)
    (leaves : Leaves graph roots released left) (h' : Releases left others more) :
    Releases graph (roots ++ others) (released ++ more) := by
  refine ⟨fun module hne hall => ?closed, fun set closed => ?least, ?nodup⟩
  case closed =>
    by_cases none : left.importers module = []
    -- The first run took all the importers away, so it released the module.
    · refine List.mem_append_left _ (h.closed module hne fun importer hi => ?_)
      rcases leaves.cases hi with hroot | hreleased | kept
      · exact .inl hroot
      · exact .inr hreleased
      · rw [none] at kept
        exact absurd kept (by simp)
    · refine List.mem_append_right _ (h'.closed module none fun importer hi => ?_)
      obtain ⟨hi, hroot, hreleased⟩ := leaves.mem_importers.1 hi
      refine (hall importer hi).imp (fun hr => ?_) fun hr => ?_
      · exact (List.mem_append.1 hr).resolve_left hroot
      · exact (List.mem_append.1 hr).resolve_left hreleased
  case least =>
    have first : ∀ module ∈ released, set module :=
      h.least set (closed.of_subset fun _ => List.mem_append_left others)
    have second : left.ReleaseClosed others set := by
      intro module hne hall
      obtain ⟨importer, hi⟩ := List.exists_mem_of_ne_nil _ hne
      refine closed module (List.ne_nil_of_mem (leaves.mem_importers.1 hi).1) ?_
      intro importer hi
      rcases leaves.cases hi with hroot | hreleased | kept
      · exact .inl (List.mem_append_left others hroot)
      · exact .inr (first importer hreleased)
      · exact (hall importer kept).imp_left (List.mem_append_right roots)
    intro module hm
    exact (List.mem_append.1 hm).elim (first module) (h'.least set second module)
  case nodup =>
    refine List.nodup_append.2 ⟨h.nodup, h'.nodup, ?_⟩
    rintro module hm _ hm' rfl
    exact h'.importers_ne_nil hm' (h.importers_eq_nil leaves hm)

/-! ## Any number of runs -/

theorem releases_cascadeEach (graph : ImportGraph) (roots : List String) :
    Releases graph roots (graph.cascadeEach roots).2
      ∧ Leaves graph roots (graph.cascadeEach roots).2 (graph.cascadeEach roots).1 := by
  induction roots generalizing graph with
  | nil =>
    have releases := releases_cascade graph []
    have leaves := leaves_cascade graph []
    rw [cascade_nil] at releases leaves
    exact ⟨releases, leaves⟩
  | cons root roots ih =>
    have first := releases_cascade graph [root]
    have kept := leaves_cascade graph [root]
    obtain ⟨second, last⟩ := ih (graph.cascade [root]).1
    exact ⟨first.append kept second, kept.append last⟩

/-- **Cascades are confluent.** Let two graphs have the same modules with the same importers, and
two sequences of roots the same elements, in any order and with any repetitions. Then the cascades
in turn end in the same graphs and release the same modules, each one once; from one graph the order
of the roots makes no difference at all. What they release is the least set closed under release for
all the roots at once, what they leave are the edges that start neither at a root nor at a released
module, and a single cascade from all the roots comes to the same. -/
theorem cascadeEach_confluent (graph other : ImportGraph) (roots others : List String)
    (same : Same graph other) (sameRoots : ∀ root, root ∈ roots ↔ root ∈ others) :
    (Same (graph.cascadeEach roots).1 (other.cascadeEach others).1
        ∧ (graph.cascadeEach roots).2.Perm (other.cascadeEach others).2)
      ∧ (graph = other → (graph.cascadeEach roots).1 = (other.cascadeEach others).1)
      ∧ (∀ module, module ∈ (graph.cascadeEach roots).2 ↔
          ∀ set, graph.ReleaseClosed roots set → set module)
      ∧ (∀ module, (graph.cascadeEach roots).1.importers module
          = (graph.importers module).filter fun importer =>
              importer ∉ roots ∧ importer ∉ (graph.cascadeEach roots).2)
      ∧ (graph.cascadeEach roots).1 = (graph.cascade roots).1
      ∧ (graph.cascadeEach roots).2.Perm (graph.cascade roots).2 := by
  obtain ⟨releases, leaves⟩ := releases_cascadeEach graph roots
  -- Any other run that releases what it should ends alike.
  have perm {other : ImportGraph} {others released : List String}
      (h : Releases other others released) (same : Same graph other)
      (sameRoots : ∀ root, root ∈ roots ↔ root ∈ others) :
      (graph.cascadeEach roots).2.Perm released :=
    (List.perm_ext_iff_of_nodup releases.nodup h.nodup).2 fun module =>
      releases.mem_iff h same sameRoots
  have exact {others released : List String} {left : ImportGraph}
      (h : Releases graph others released) (h' : Leaves graph others released left)
      (sameRoots : ∀ root, root ∈ roots ↔ root ∈ others) : (graph.cascadeEach roots).1 = left := by
    refine ext (leaves.keys.trans h'.keys.symm) fun module _ => ?_
    rw [leaves.importers, h'.importers]
    refine List.filter_congr fun importer _ => ?_
    rw [decide_eq_decide, sameRoots, (perm h (.refl graph) sameRoots).mem_iff]
  obtain ⟨releases', leaves'⟩ := releases_cascadeEach other others
  refine ⟨⟨?_, perm releases' same sameRoots⟩, ?_, fun module => ?_, leaves.importers, ?_, ?_⟩
  · exact leaves.same leaves' same sameRoots fun module => releases.mem_iff releases' same sameRoots
  · rintro rfl
    exact exact releases' leaves' sameRoots
  · exact ⟨fun hm set closed => releases.least set closed module hm,
      fun all => all _ releases.closed⟩
  · exact exact (releases_cascade graph roots) (leaves_cascade graph roots) fun _ => Iff.rfl
  · exact perm (releases_cascade graph roots) (.refl graph) fun _ => Iff.rfl

/-- Two pages that use each other, a part that both use, and the part of a part; the modules and the
importers stand in another order from copy to copy. -/
def partGraph (turned : Bool) : ImportGraph :=
  let entries := [("home", ["main", "about"]), ("about", ["home", "menu"]),
    ("card", ["home", "about"]), ("badge", ["card"]), ("main", [])]
  .ofList (if turned then (entries.map fun (key, importers) => (key, importers.reverse)).reverse
    else entries)

/-- The bootstrap file and the menu let go of the pages in either order, and `card` is a root that
the cascade before may have released. -/
theorem cascadeEach_confluent_parts :
    ((partGraph false).cascadeEach ["card", "main", "menu", "home"]).2.Perm
        ((partGraph true).cascadeEach ["home", "menu", "card", "menu", "main"]).2
      ∧ ((partGraph true).cascadeEach ["home", "menu", "card", "menu", "main"]).2
        = ["about", "card", "badge", "home"] :=
  ⟨(cascadeEach_confluent (partGraph false) (partGraph true) ["card", "main", "menu", "home"]
      ["home", "menu", "card", "menu", "main"] (.of_perm (by decide +kernel) (by decide +kernel))
      (by simp only [List.mem_cons, List.not_mem_nil]; grind)).1.2,
    by decide +kernel⟩

end RouteTrim.ImportGraph
