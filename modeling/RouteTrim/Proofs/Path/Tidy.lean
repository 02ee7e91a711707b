import RouteTrim.Proofs.Path.Parts

/-!
# Tidy paths and their normal spelling

A tidy path has the anchor and the steps of the path it was made from (`anchor_tidy`, `steps_tidy`).
For that, only slashes separate, while the normal spelling takes a backslash for one, too. So a
segment may still fall apart when the path is normalized. It falls apart into the same steps
wherever it stands (`steps_slashed`), and leaving out what leads nowhere makes a difference only in
front of a backslash: where that is the first character behind the anchor, it may become a slash of
the anchor (`normalize_tidy_iff`).
-/

set_option autoImplicit false

namespace RouteTrim.Path

open RouteTrim.Text

/-- A path with its backslashes turned into slashes. -/
def slashed (path : List Char) : List Char :=
  path.map fun c => if c = backslash then '/' else c

def slashedSteps (path : List Char) : List Segment :=
  steps (split '/' (slashed path))

/-! ## Steps -/

theorem steps_append
    (front back : List Segment) : steps (front ++ back) = steps front ++ steps back :=
  List.filter_append ..

theorem steps_tidy (path : String) :
    steps (split '/' (tidy path).toList) = steps (split '/' path.toList) := by
  rw [tidy, String.toList_ofList]
  exact steps_toPath fun s hs => isStep_of_mem_steps hs

theorem plain_tidy {path : String}
    (h : backslash ∉ path.toList) : backslash ∉ (tidy path).toList := by
  rw [tidy, String.toList_ofList]
  exact plain_toPath fun s hs hc => h (mem_of_mem_split (List.mem_filter.1 hs).1 hc)

theorem slashedSteps_append (front back : List Char) :
    slashedSteps (front ++ '/' :: back) = slashedSteps front ++ slashedSteps back := by
  have kept : slashed ('/' :: back) = '/' :: slashed back := rfl
  rw [slashedSteps, slashed, List.map_append, ← slashed, ← slashed, kept,
    split_append, steps_append]
  rfl

/-- **Every segment falls apart into steps of its own.** -/
theorem steps_slashed (path : List Char) :
    slashedSteps path = (steps (split '/' path)).flatMap slashedSteps := by
  have joined (parts : List Segment) :
      slashedSteps (joinWith ['/'] parts) = (steps parts).flatMap slashedSteps := by
    induction parts with
    | nil => rfl
    | cons s parts ih =>
      -- A segment that leads nowhere has no steps, so it does not matter that it is dropped.
      have first : (steps [s]).flatMap slashedSteps = slashedSteps s := by
        by_cases hs : s = [] ∨ s = here
        · rcases hs with rfl | rfl <;> rfl
        · obtain ⟨hempty, hhere⟩ := not_or.1 hs
          simp [steps, hempty, hhere]
      have apart : steps (s :: parts) = steps [s] ++ steps parts := steps_append [s] parts
      rw [apart, List.flatMap_append, first, ← ih]
      cases parts with
      | nil => exact (List.append_nil _).symm
      | cons next parts =>
        rw [joinWith, List.append_assoc, List.singleton_append, slashedSteps_append]
  have whole := joined (split '/' path)
  rwa [joinWith_split] at whole

theorem slashedSteps_tidy (path : String) :
    slashedSteps (tidy path).toList = slashedSteps path.toList := by
  rw [steps_slashed, steps_tidy, ← steps_slashed]

/-! ## Anchors -/

theorem anchor_tidy (path : String) :
    Anchor.ofPath (tidy path).toList = Anchor.ofPath path.toList := by
  rw [tidy, String.toList_ofList]
  exact anchor_toPath fun s hs => isStep_of_mem_steps hs

/-- Whether the first segment of a path that leads somewhere starts with a backslash. -/
def OpensSlashed (path : List Char) : Prop :=
  ∃ s segments, steps (split '/' path) = (backslash :: s) :: segments

theorem opensSlashed_of_dropWhile {path rest : List Char}
    (h : path.dropWhile (· == '/') = backslash :: rest) : OpensSlashed path := by
  induction path with
  | nil => exact absurd h (by simp)
  | cons c path ih =>
    by_cases hc : c = '/'
    · subst hc
      exact ih h
    · rw [List.dropWhile_cons_of_neg (by simpa using hc)] at h
      obtain ⟨rfl, -⟩ := List.cons.inj h
      obtain ⟨s, parts, hsplit⟩ : ∃ s parts, split '/' (backslash :: path)
          = (backslash :: s) :: parts := by
        rw [split, if_neg hc]
        cases split '/' path with
        | nil => exact ⟨_, _, rfl⟩
        | cons s parts => exact ⟨_, _, rfl⟩
      refine ⟨s, steps parts, ?_⟩
      have away : backslash :: s ≠ here := fun same => absurd (List.cons.inj same).1 (by decide)
      rw [hsplit]
      simp [steps, away]

theorem anchor_slashed {path : List Char} (opens : ¬OpensSlashed path) :
    Anchor.ofPath (slashed path) = Anchor.ofPath path := by
  -- The first character that is no slash is no backslash, so it ends the slashes in both spellings.
  have ends (c : Char) (rest : List Char) (h : path.dropWhile (· == '/') = c :: rest) :
      (if c = backslash then '/' else c) = c :=
    if_neg fun hc => opens (opensSlashed_of_dropWhile (hc ▸ h))
  rcases path with _ | ⟨a, path⟩
  · rfl
  by_cases ha : a = '/'
  · subst ha
    rcases path with _ | ⟨b, path⟩
    · rfl
    by_cases hb : b = '/'
    · subst hb
      rcases path with _ | ⟨c, path⟩
      · rfl
      by_cases hc : c = '/'
      · subst hc
        rfl
      · have same := ends c path (by simp [hc])
        simp [slashed, Anchor.ofPath, same, hc]
    · have same := ends b path (by simp [hb])
      simp [slashed, Anchor.ofPath, same, hb]
  · have same := ends a path (by simp [ha])
    simp [slashed, Anchor.ofPath, same, ha]

/-! ## Normal spellings -/

theorem locationOf_eq (path : String) :
    locationOf path = ⟨Anchor.ofPath (slashed path.toList), ((slashedSteps path.toList).foldl
      (Location.step (Anchor.ofPath (slashed path.toList))) []).reverse⟩ := by
  rw [slashedSteps, foldl_step_steps]
  rfl

/-- **A tidy path has the normal spelling of the path if it has the same anchor with all backslashes
turned into slashes.** -/
theorem normalize_tidy_iff {path : String} : normalize (tidy path) = normalize path ↔
    Anchor.ofPath (slashed (tidy path).toList) = Anchor.ofPath (slashed path.toList) := by
  rw [normalize_eq_iff, locationOf_eq, locationOf_eq, slashedSteps_tidy]
  constructor
  · exact fun same => (Location.mk.inj same).1
  · exact fun anchor => by rw [anchor]

/-- That is so for every path whose first step does not start with a backslash. -/
theorem normalize_tidy_of_not_opensSlashed {path : String} (opens : ¬OpensSlashed path.toList) :
    normalize (tidy path) = normalize path := by
  have tidied : ¬OpensSlashed (tidy path).toList := by
    rwa [OpensSlashed, steps_tidy]
  rw [normalize_tidy_iff, anchor_slashed tidied, anchor_slashed opens, anchor_tidy]

theorem normalize_tidy {path : String} (plain : backslash ∉ path.toList) :
    normalize (tidy path) = normalize path := by
  refine normalize_tidy_of_not_opensSlashed ?_
  rintro ⟨s, segments, opened⟩
  have first : backslash :: s ∈ steps (split '/' path.toList) := opened ▸ List.mem_cons_self
  exact plain (mem_of_mem_split (List.mem_filter.1 first).1 List.mem_cons_self)

end RouteTrim.Path
