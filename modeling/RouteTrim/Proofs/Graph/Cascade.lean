import RouteTrim.Proofs.Graph.Importers

/-!
# What a cascade releases and what it leaves

A cascade is told by its list of released modules alone. This file proves, for any stack of waiting
modules,

* what is left: every module keeps the importers that neither waited nor were released
  (`importers_cascade`),
* what is released: the least set that contains each module with importers all of which waited or
  are in the set (`releaseClosed_cascade`, `cascade_least`),
* in which order: a module comes behind all of its importers that did not wait
  (`mem_before_of_cascade`), and only once (`nodup_cascade`).

Everything is proved along the recursion of `cascade`, whose step takes the edges of one waiting
module away and puts the modules freed by that on the stack. The statements hold for a whole stack,
since the stack is what changes from step to step; the cascade from one root is the stack `[root]`.
-/

set_option autoImplicit false

namespace RouteTrim.ImportGraph

/-- A set is closed under release if it holds every module with importers all of which are roots or
in the set. A module that never had an importer need not be in it. -/
def ReleaseClosed (graph : ImportGraph) (roots : List String) (released : String → Prop) : Prop :=
  ∀ module, graph.importers module ≠ [] →
    (∀ importer ∈ graph.importers module, importer ∈ roots ∨ released importer) → released module

variable {graph : ImportGraph} {waiting : List String} {module importer : String}

@[simp] theorem cascade_nil (graph : ImportGraph) : graph.cascade [] = (graph, []) := by
  rw [cascade]

theorem cascade_cons (graph : ImportGraph) (module : String) (waiting : List String) :
    graph.cascade (module :: waiting)
      = (((graph.withoutImporter module).cascade
            ((graph.importedOnlyBy module).reverse ++ waiting)).1,
          graph.importedOnlyBy module
            ++ ((graph.withoutImporter module).cascade
              ((graph.importedOnlyBy module).reverse ++ waiting)).2) := by
  rw [cascade]

/-! ## What is left -/

theorem keys_cascade (graph : ImportGraph) (waiting : List String) :
    (graph.cascade waiting).1.keys = graph.keys := by
  induction graph, waiting using cascade.induct with
  | case1 graph => rw [cascade_nil]
  | case2 graph module waiting freed ih =>
    rw [cascade_cons]
    exact ih.trans (keys_withoutImporter ..)

/-- A cascade takes away the edges of what waits and of what it releases, and no other edge. -/
theorem importers_cascade (graph : ImportGraph) (waiting : List String) (target : String) :
    (graph.cascade waiting).1.importers target
      = (graph.importers target).filter fun importer =>
          importer ∉ waiting ∧ importer ∉ (graph.cascade waiting).2 := by
  induction graph, waiting using cascade.induct with
  | case1 graph =>
    rw [cascade_nil]
    exact (List.filter_eq_self.2 fun _ _ => by simp).symm
  | case2 graph module waiting freed ih =>
    rw [cascade_cons]
    show ImportGraph.importers (cascade _ (freed.reverse ++ waiting)).1 target = _
    rw [ih, importers_withoutImporter, dropImporter, List.filter_filter]
    refine List.filter_congr fun importer _ => ?_
    by_cases hm : importer = module
    · simp [hm]
    · by_cases hf : importer ∈ freed
      · simp [hm, hf, freed]
      · by_cases hw : importer ∈ waiting <;> simp [hm, hf, hw, freed]

theorem mem_importers_cascade {target : String} :
    importer ∈ (graph.cascade waiting).1.importers target
      ↔ importer ∈ graph.importers target ∧ importer ∉ waiting
        ∧ importer ∉ (graph.cascade waiting).2 := by
  rw [importers_cascade, List.mem_filter]
  simp

/-! ## What is released -/

theorem releaseClosed_cascade (graph : ImportGraph) (waiting : List String) :
    graph.ReleaseClosed waiting (· ∈ (graph.cascade waiting).2) := by
  induction graph, waiting using cascade.induct with
  | case1 graph =>
    intro target hne hall
    obtain ⟨importer, hi⟩ := List.exists_mem_of_ne_nil _ hne
    rcases hall importer hi with h | h
    · exact absurd h (by simp)
    · rw [cascade_nil] at h
      exact absurd h (by simp)
  | case2 graph module waiting freed ih =>
    intro target hne hall
    rw [cascade_cons] at hall ⊢
    by_cases hfree : target ∈ freed
    · exact List.mem_append_left _ hfree
    -- Some other importer is left once the edges of `module` are gone, so the rest of the run
    -- decides.
    · refine List.mem_append_right _ (ih target ?_ fun importer hi => ?_)
      · intro hnil
        rw [importers_withoutImporter, dropImporter_eq_nil_iff] at hnil
        exact hfree (mem_importedOnlyBy.2 ⟨hne, hnil⟩)
      · rw [mem_importers_withoutImporter] at hi
        rcases hall importer hi.1 with hw | hr
        · rcases List.mem_cons.1 hw with rfl | hw
          · exact absurd rfl hi.2
          · exact Or.inl (List.mem_append_right _ hw)
        · rcases List.mem_append.1 hr with hf | hr
          · exact Or.inl (List.mem_append_left _ (List.mem_reverse.2 hf))
          · exact Or.inr hr

/-- Whatever is closed under release holds what is released: the cascade never goes too far. -/
theorem cascade_least {released : String → Prop} (closed : graph.ReleaseClosed waiting released) :
    ∀ target ∈ (graph.cascade waiting).2, released target := by
  induction graph, waiting using cascade.induct with
  | case1 graph => intro target ht; rw [cascade_nil] at ht; exact absurd ht (by simp)
  | case2 graph module waiting freed ih =>
    intro target ht
    have hfreed : ∀ free ∈ freed, released free := by
      intro free hf
      obtain ⟨hne, hall⟩ := mem_importedOnlyBy.1 hf
      exact closed free hne fun importer hi => Or.inl (hall importer hi ▸ List.mem_cons_self)
    rw [cascade_cons] at ht
    rcases List.mem_append.1 ht with hf | hr
    · exact hfreed target hf
    · refine ih ?_ target hr
      intro other hne hall
      refine closed other (fun hnil => hne (by rw [importers_withoutImporter, hnil]; rfl)) ?_
      intro importer hi
      by_cases hm : importer = module
      · exact Or.inl (hm ▸ List.mem_cons_self)
      · rcases hall importer (mem_importers_withoutImporter.2 ⟨hi, hm⟩) with hw | hr
        · rcases List.mem_append.1 hw with hf | hw
          · exact Or.inr (hfreed importer (List.mem_reverse.1 hf))
          · exact Or.inl (List.mem_cons_of_mem _ hw)
        · exact Or.inr hr

theorem importers_ne_nil_of_cascade {target : String} (h : target ∈ (graph.cascade waiting).2) :
    graph.importers target ≠ [] :=
  cascade_least (fun _ hne _ => hne : graph.ReleaseClosed waiting fun m => graph.importers m ≠ [])
    target h

theorem mem_keys_of_cascade {target : String} (h : target ∈ (graph.cascade waiting).2) :
    target ∈ graph.keys :=
  mem_keys_of_importers_ne_nil (importers_ne_nil_of_cascade h)

/-! ## In which order -/

/-- A module is released once: whatever a step frees has no importers left afterwards. -/
theorem nodup_cascade (graph : ImportGraph) (waiting : List String) :
    (graph.cascade waiting).2.Nodup := by
  induction graph, waiting using cascade.induct with
  | case1 graph => rw [cascade_nil]; exact List.nodup_nil
  | case2 graph module waiting freed ih =>
    rw [cascade_cons]
    refine List.nodup_append.2 ⟨nodup_importedOnlyBy .., ih, ?_⟩
    rintro free hf _ hr rfl
    refine importers_ne_nil_of_cascade hr ?_
    rw [importers_withoutImporter, dropImporter_eq_nil_iff]
    exact (mem_importedOnlyBy.1 hf).2

/-- A place in the concatenation of two lists is a place in the first one or in the second. -/
theorem split_of_append_eq {α : Type} {front back before after : List α} {a : α}
    (h : front ++ back = before ++ a :: after) :
    (∃ rest, front = before ++ a :: rest)
      ∨ ∃ more, before = front ++ more ∧ back = more ++ a :: after := by
  rcases List.append_eq_append_iff.1 h with ⟨more, hb, hr⟩ | ⟨more, hf, hr⟩
  · exact Or.inr ⟨more, hb, hr⟩
  · cases more with
    | nil => exact Or.inr ⟨[], by rw [hf, List.append_nil, List.append_nil], hr.symm⟩
    | cons first more =>
      obtain ⟨rfl, _⟩ := List.cons.inj hr
      exact Or.inl ⟨more, hf⟩

/-- A module is released behind all of its importers that did not wait from the start. -/
theorem mem_before_of_cascade {before after : List String} {target : String}
    (h : (graph.cascade waiting).2 = before ++ target :: after) :
    ∀ importer ∈ graph.importers target, importer ∈ waiting ∨ importer ∈ before := by
  induction graph, waiting using cascade.induct generalizing before with
  | case1 graph => rw [cascade_nil] at h; exact absurd h (by simp)
  | case2 graph module waiting freed =>
    rename_i ih
    intro importer hi
    by_cases hm : importer = module
    · exact Or.inl (hm ▸ List.mem_cons_self)
    rw [cascade_cons] at h
    rcases split_of_append_eq h with ⟨rest, hf⟩ | ⟨more, rfl, hr⟩
    · have hfree : target ∈ graph.importedOnlyBy module := by
        rw [hf]
        exact List.mem_append_right _ List.mem_cons_self
      exact absurd ((mem_importedOnlyBy.1 hfree).2 importer hi) hm
    -- `target` is released later in the run, and what was freed here stands in front of it.
    · rcases ih hr importer (mem_importers_withoutImporter.2 ⟨hi, hm⟩) with hw | hmore
      · rcases List.mem_append.1 hw with hf | hw
        · exact Or.inr (List.mem_append_left _ (List.mem_reverse.1 hf))
        · exact Or.inl (List.mem_cons_of_mem _ hw)
      · exact Or.inr (List.mem_append_right _ hmore)

/-- A released module has no importers left: all of them waited or were released before it. -/
theorem importers_cascade_of_mem {target : String} (h : target ∈ (graph.cascade waiting).2) :
    (graph.cascade waiting).1.importers target = [] := by
  obtain ⟨before, after, split⟩ := List.append_of_mem h
  refine List.eq_nil_iff_forall_not_mem.2 fun importer hi => ?_
  obtain ⟨hi, hw, hr⟩ := mem_importers_cascade.1 hi
  rcases mem_before_of_cascade split importer hi with h | h
  · exact hw h
  · rw [split] at hr
    exact hr (List.mem_append_left _ h)

end RouteTrim.ImportGraph
