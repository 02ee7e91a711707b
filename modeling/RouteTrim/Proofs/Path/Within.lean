import RouteTrim.Proofs.Graph.Pruning
import RouteTrim.Proofs.Path.Parts
import RouteTrim.Route.Discovery

/-!
# What lies in a directory

Whether a path lies in a directory is asked of the texts: the directory with a slash behind it
occurs in the path. That is meant to be a question about segments (`IsInside`). A slash ends a
segment, so the text of the directory ends where a segment of the path does, and between its own
slashes stand whole segments (`infix_iff_split`). What is left open is its first segment. A
directory that is named from the root begins with a slash, and then that segment is a whole one,
too. A relative directory begins within any segment that ends with its first name (`Overlaps`).

So the pruner and the search for pages keep to whole segments for directories that are named from a
root, and for relative ones they also take in a neighbour whose name ends like the directory's.
-/

set_option autoImplicit false

namespace RouteTrim.Path

open RouteTrim.Text

/-! ## Directories -/

/-- A directory with segments of its own, and with no more than one slash in front. -/
structure IsProper (dir : String) : Prop where
  notHere : normalize dir ≠ "."
  notRoot : normalize dir ≠ "/"
  oneSlash : ¬ ['/', '/'] <+: (normalize dir).toList

instance (dir : String) : Decidable (IsProper dir) :=
  decidable_of_iff
    (normalize dir ≠ "." ∧ normalize dir ≠ "/" ∧ ¬ ['/', '/'] <+: (normalize dir).toList)
    ⟨fun h => ⟨h.1, h.2.1, h.2.2⟩, fun h => ⟨h.notHere, h.notRoot, h.oneSlash⟩⟩

/-- The segments of a directory stand in a path, one behind the other, and something stands behind
them. The start of a relative path is no place for a directory that is named from the root. -/
def Covers (dir path : Location) : Prop :=
  ∃ front back, path.segments = front ++ dir.segments ++ back ∧ back ≠ [] ∧
    (dir.anchor = .root → path.anchor = .relative → front ≠ [])

/-- The segments of a relative directory stand in a path but for the first of them, and in its place
stands a longer one that ends with it. -/
def Overlaps (dir path : Location) : Prop :=
  dir.anchor = .relative ∧ ∃ name names front longer back, dir.segments = name :: names ∧
    path.segments = front ++ longer :: (names ++ back) ∧ back ≠ [] ∧ name <:+ longer ∧
    longer ≠ name

/-- A path is the directory itself, or lies in it. -/
def IsInside (path dir : String) : Prop :=
  normalize path = normalize dir ∨ Covers (locationOf dir) (locationOf path)

section

variable {dir path : Location}

/-- **The text of a directory with a slash behind it occurs in a path** where its segments stand in
it, or where those of a relative one stand but for the first, which a longer one ends with. -/
theorem infix_toPath_iff (hdir : ∀ s ∈ dir.segments, IsStep s)
    (hpath : ∀ s ∈ path.segments, IsStep s) (ne : dir.segments ≠ [])
    (single : dir.anchor ≠ .doubleRoot) :
    dir.toPath ++ ['/'] <:+: path.toPath ↔ Covers dir path ∨ Overlaps dir path := by
  obtain ⟨anchor, segments⟩ := dir
  obtain ⟨name, names, rfl⟩ := List.exists_cons_of_ne_nil ne
  have filled : name ≠ [] := (hdir name (List.mem_cons_self ..)).1
  have slashless : ∀ part ∈ name :: names, '/' ∉ part := fun part h => (hdir part h).2.2
  cases anchor with
  | doubleRoot => exact absurd rfl single
  | relative =>
    rw [toPath_cons .relative filled, Anchor.text, List.nil_append, infix_iff_split slashless]
    constructor
    · rintro ⟨front, part, back, hsplit, hback, ending⟩
      have hpart : part ≠ [] := fun empty => filled (List.suffix_nil.1 (empty ▸ ending))
      obtain ⟨before, -, hsegments⟩ :=
        (split_toPath_eq_iff hpath hpart (by simp [hback])).1 hsplit
      by_cases same : part = name
      · subst same
        exact .inl ⟨before, back, by simp [hsegments], hback, by simp⟩
      · exact .inr ⟨rfl, name, names, before, part, back, rfl, hsegments, hback, ending, same⟩
    · rintro (⟨before, back, hsegments, hback, -⟩ |
        ⟨-, _, _, before, longer, back, same, hsegments, hback, ending, -⟩)
      · exact ⟨_, name, back, (split_toPath_eq_iff hpath filled (by simp [hback])).2
          ⟨before, rfl, by simp [hsegments]⟩, hback, List.suffix_rfl⟩
      · obtain ⟨rfl, rfl⟩ := List.cons.inj same
        have hlonger : longer ≠ [] := fun empty => filled (List.suffix_nil.1 (empty ▸ ending))
        exact ⟨_, longer, back, (split_toPath_eq_iff hpath hlonger (by simp [hback])).2
          ⟨before, rfl, hsegments⟩, hback, ending⟩
  | root =>
    have spelled : (Location.mk .root (name :: names)).toPath
        = joinWith ['/'] ([] :: name :: names) := rfl
    rw [spelled, infix_iff_split (List.forall_mem_cons.2 ⟨by simp, slashless⟩)]
    have parts (front : List Segment) (part : Segment) (back : List Segment) :
        front ++ part :: (name :: names ++ back) = (front ++ [part]) ++ name :: (names ++ back) := by
      simp
    constructor
    · rintro ⟨front, part, back, hsplit, hback, -⟩
      rw [parts] at hsplit
      obtain ⟨before, hfront, hsegments⟩ :=
        (split_toPath_eq_iff hpath filled (by simp [hback])).1 hsplit
      refine .inl ⟨before, back, by simp [hsegments], hback, fun _ relative empty => ?_⟩
      -- The slash in front of the first name ends a part, which a relative path must have.
      rw [relative, empty] at hfront
      exact absurd hfront (by simp [Anchor.parts, Anchor.text])
    · rintro (⟨before, back, hsegments, hback, started⟩ | ⟨relative, -⟩)
      · have ahead : path.anchor.parts ++ before ≠ [] := by
          intro empty
          obtain ⟨hparts, hbefore⟩ := List.append_eq_nil_iff.1 empty
          refine started rfl ?_ hbefore
          cases hanchor : path.anchor <;> rw [hanchor] at hparts <;>
            first | rfl | exact absurd hparts (by simp [Anchor.parts, Anchor.text])
        obtain ⟨front, part, hfront⟩ := (List.eq_nil_or_concat' _).resolve_left ahead
        refine ⟨front, part, back, ?_, hback, List.nil_suffix⟩
        rw [parts, ← hfront]
        exact (split_toPath_eq_iff hpath filled (by simp [hback])).2
          ⟨before, rfl, by simp [hsegments]⟩
      · exact absurd relative (by simp)

end

theorem IsProper.location {dir : String} (h : IsProper dir) :
    (locationOf dir).segments ≠ [] ∧ (locationOf dir).anchor ≠ .doubleRoot := by
  obtain ⟨notHere, notRoot, oneSlash⟩ := h
  have spelled : (normalize dir).toList = (locationOf dir).toPath := String.toList_ofList
  generalize locationOf dir = l at spelled
  obtain ⟨anchor, segments⟩ := l
  constructor
  · rintro rfl
    cases anchor with
    | relative => exact notHere (String.toList_injective spelled)
    | root => exact notRoot (String.toList_injective spelled)
    | doubleRoot => exact oneSlash ⟨[], spelled.symm⟩
  · rintro rfl
    exact oneSlash ⟨joinWith ['/'] segments, spelled.symm⟩

/-- **A path lies in a directory where it has the directory's segments**, and for a relative
directory also where it has a longer segment in place of the first of them. -/
theorem isWithin_eq_true_iff {dir : String} (proper : IsProper dir) (path : String) :
    isWithin path dir = true ↔
      IsInside path dir ∨ Overlaps (locationOf dir) (locationOf path) := by
  obtain ⟨ne, single⟩ := proper.location
  have hdir := isStep_locationOf dir
  unfold isWithin
  dsimp only
  rw [normalizeChars_eq, normalizeChars_eq, dropRightWhile_self (getLast?_toPath hdir ne),
    Bool.or_eq_true, beq_iff_eq, occursIn_iff, infix_toPath_iff hdir (isStep_locationOf path) ne single,
    IsInside, or_assoc]
  exact or_congr_left ⟨congrArg String.ofList, fun same => String.ofList_injective same⟩

/-- A directory that is named from the root is found by whole segments only. -/
theorem not_overlaps {dir : String} (rooted : isAbsolute (normalize dir) = true) (path : Location) :
    ¬ Overlaps (locationOf dir) path := by
  rintro ⟨relative, -⟩
  have spelled : (normalize dir).toList = (locationOf dir).toPath := String.toList_ofList
  have anchor := anchor_toPath (isStep_locationOf dir)
  rw [relative, ← spelled] at anchor
  exact (startsAtSlash_iff _).1 (beq_iff_eq.1 rooted) anchor

/-- A path beside a directory has another segment where the directory has its last one, so if it
lies in the directory nevertheless, the directory's segments stand further down in it. -/
theorem exists_front_of_isInside {path dir : String} {parents rest : List Segment}
    {name other : Segment}
    (hdir : (locationOf dir).segments = parents ++ [name])
    (hpath : (locationOf path).segments = parents ++ other :: rest) (apart : other ≠ name)
    (inside : IsInside path dir) :
    ∃ front, front ≠ [] ∧ front ++ (locationOf dir).segments <+: (locationOf path).segments := by
  rcases inside with same | ⟨front, back, segments, -, -⟩
  · rw [normalize_eq_iff.1 same, hdir] at hpath
    have := List.append_cancel_left hpath
    exact absurd (List.cons.inj this).1.symm apart
  · refine ⟨front, fun empty => ?_, back, segments.symm⟩
    rw [empty, hpath, hdir, List.nil_append, List.append_assoc] at segments
    exact apart (List.cons.inj (List.append_cancel_left segments)).1

theorem subset_of_isInside {path dir : String} (inside : IsInside path dir) :
    (locationOf dir).segments ⊆ (locationOf path).segments := by
  rcases inside with same | ⟨front, back, segments, -, -⟩
  · rw [normalize_eq_iff.1 same]
    exact List.Subset.refl _
  · rw [segments]
    exact fun s hs => List.mem_append_left _ (List.mem_append_right _ hs)

/-! ## What may be pruned and what is read -/

open RouteTrim.ImportGraph (isEligible sampleConfig)
open RouteTrim.Route (pageSources)
open RouteTrim.Settings (BuildConfig)

/-- **Whether a path lies in a directory is a matter of whole segments, except for the first segment
of a relative directory.** A directory that is named from the root is found where its segments stand
in the path, one behind the other, with something behind them; so nothing that lies beside it is
taken for it, neither by the pruner nor by the search for pages. A relative one is found there, too,
and besides wherever a longer segment, which ends with its first one, stands in the place of
that. -/
theorem isWithin_segments (config : BuildConfig)
    (components : IsProper config.frameworkComponentsDir) (sources : IsProper config.srcDir) :
    (∀ path dir, IsProper dir → (isWithin path dir = true ↔
      IsInside path dir ∨ Overlaps (locationOf dir) (locationOf path))) ∧
    (∀ path dir, IsProper dir → isAbsolute (normalize dir) = true →
      (isWithin path dir = true ↔ IsInside path dir) ∧
      ∀ parents name other rest, (locationOf dir).segments = parents ++ [name] →
        (locationOf path).segments = parents ++ other :: rest → other ≠ name →
        isWithin path dir = true → ∃ front, front ≠ [] ∧
          front ++ (locationOf dir).segments <+: (locationOf path).segments) ∧
    (∀ module, isEligible config module = true ↔
      (IsInside module config.frameworkComponentsDir ∨
        Overlaps (locationOf config.frameworkComponentsDir) (locationOf module)) ∨
      (IsInside module config.srcDir ∨
        Overlaps (locationOf config.srcDir) (locationOf module))) ∧
    (∀ store, ∀ path ∈ pageSources store config, path ∈ store.paths ∧
      (IsInside path config.srcDir ∨ Overlaps (locationOf config.srcDir) (locationOf path))) ∧
    (isAbsolute (normalize config.srcDir) = true →
      (isAbsolute (normalize config.frameworkComponentsDir) = true → ∀ module,
        (isEligible config module = true ↔ IsInside module config.frameworkComponentsDir ∨
          IsInside module config.srcDir)) ∧
      ∀ store, ∀ path ∈ pageSources store config, IsInside path config.srcDir) := by
  have rooted (path dir : String) (proper : IsProper dir) (rooted : isAbsolute (normalize dir) = true) :
      isWithin path dir = true ↔ IsInside path dir :=
    (isWithin_eq_true_iff proper path).trans (or_iff_left (not_overlaps rooted _))
  have page (store : FileStore) (path : String) (found : path ∈ pageSources store config) :
      path ∈ store.paths ∧ isWithin path config.srcDir = true := by
    obtain ⟨listed, isPage⟩ := List.mem_filter.1 found
    simp only [Route.isPageSource, Bool.and_eq_true] at isPage
    exact ⟨(List.mem_filter.1 listed).1, isPage.2⟩
  refine ⟨fun path dir proper => isWithin_eq_true_iff proper path,
    fun path dir proper anchored => ⟨rooted path dir proper anchored,
      fun _ _ _ _ hdir hpath apart within =>
        exists_front_of_isInside hdir hpath apart ((rooted path dir proper anchored).1 within)⟩,
    fun module => ?_, fun store path found => ?_, fun anchored => ⟨fun above module => ?_,
      fun store path found => (rooted _ _ sources anchored).1 (page store path found).2⟩⟩
  · rw [isEligible, Bool.or_eq_true, isWithin_eq_true_iff components, isWithin_eq_true_iff sources]
  · exact (page store path found).imp_right (isWithin_eq_true_iff sources path).1
  · rw [isEligible, Bool.or_eq_true, rooted _ _ components above, rooted _ _ sources anchored]

/-- Nothing in a folder beside the sources is a page or may be pruned, whatever the name of the
folder ends or starts with, unless the path of the sources stands once more below it. -/
theorem isWithin_segments_beside :
    (IsProper sampleConfig.frameworkComponentsDir ∧ IsProper sampleConfig.srcDir ∧
      isAbsolute (normalize sampleConfig.srcDir) = true ∧
      isAbsolute (normalize sampleConfig.frameworkComponentsDir) = true) ∧
    IsInside "/app/src/home/home.ts" sampleConfig.srcDir ∧
    ¬ (IsInside "/app/mysrc/home.js" sampleConfig.frameworkComponentsDir ∨
      IsInside "/app/mysrc/home.js" sampleConfig.srcDir) ∧
    IsInside "/app/src/home.ts" sampleConfig.srcDir ∧
    ∃ front, front ≠ [] ∧ front ++ (locationOf sampleConfig.srcDir).segments
      <+: (locationOf "/app/srcs/app/src/home.ts").segments := by
  have components : IsProper sampleConfig.frameworkComponentsDir := by decide +kernel
  have sources : IsProper sampleConfig.srcDir := by decide +kernel
  have anchored : isAbsolute (normalize sampleConfig.srcDir) = true := by decide +kernel
  have above : isAbsolute (normalize sampleConfig.frameworkComponentsDir)
    = true := by decide +kernel
  obtain ⟨-, whole, -, -, exactly⟩ := isWithin_segments sampleConfig components sources
  refine ⟨⟨components, sources, anchored, above⟩,
    (whole "/app/src/home/home.ts" _ sources anchored).1.1 (by decide +kernel),
    fun inside => ?_, ?_, ?_⟩
  · have eligible := ((exactly anchored).1 above "/app/mysrc/home.js").2 inside
    exact absurd eligible (by decide +kernel)
  · exact (exactly anchored).2 (.ofList [("/app/mysrc/home.ts", ""), ("/app/src/home.ts", "")]) _
      (by decide +kernel)
  · exact (whole "/app/srcs/app/src/home.ts" _ sources anchored).2 ["app".toList] "src".toList
      "srcs".toList ["app".toList, "src".toList, "home.ts".toList] (by decide +kernel)
      (by decide +kernel) (by decide +kernel) (by decide +kernel)

/-- **A relative directory is found in a folder whose name only ends like its own**: its modules may
be pruned, and its pages are read. -/
theorem isWithin_takes_sibling :
    (IsProper "src" ∧ isWithin "/app/mysrc/home.js" "src" = true ∧
      ¬ IsInside "/app/mysrc/home.js" "src") ∧
    isEligible { sampleConfig with srcDir := "src" } "mysrc/home.js" = true ∧
    pageSources (.ofList [("mysrc/home.ts", ""), ("srcs/home.ts", "")])
      { sampleConfig with srcDir := "src" } = ["mysrc/home.ts"] := by
  refine ⟨⟨by decide +kernel, by decide +kernel, fun inside => ?_⟩, by decide +kernel,
    by decide +kernel⟩
  have found : "src".toList ∈ (locationOf "/app/mysrc/home.js").segments :=
    subset_of_isInside inside (by decide +kernel)
  exact absurd found (by decide +kernel)

end RouteTrim.Path
