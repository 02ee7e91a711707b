import RouteTrim.Proofs.Path.Specifier

/-!
# Which specifiers are relative

An import statement looks beside the importing file only for a specifier that starts with `./` or
`../`; any other one names an installed package. A specifier gets its `./` when it does not start
with a dot, so what decides is the first name on the way to the module. A way that leads up starts
with `..` and its slash. A way that leads down starts with the name of a folder or of the module
itself, and if that name has a dot in front, nothing is put before it: the specifier is the bare
way.

Ways are told from segments (`importSpecifier_eq`), so nothing here looks into the text of a path.
-/

set_option autoImplicit false

namespace RouteTrim.Path

open RouteTrim.Text

/-- A specifier that is looked up beside the importing file. -/
def IsRelative (specifier : String) : Prop :=
  ['.', '/'] <+: specifier.toList ∨ ['.', '.', '/'] <+: specifier.toList

instance (specifier : String) : Decidable (IsRelative specifier) :=
  inferInstanceAs (Decidable (_ ∨ _))

/-- A name that listings leave out. -/
def IsHidden (name : Segment) : Prop :=
  name.head? = some '.'

instance (name : Segment) : Decidable (IsHidden name) :=
  inferInstanceAs (Decidable (_ = _))

/-- Where a path leads, from the root down. -/
def placeOf [WorkingFolder] (path : String) : List Segment :=
  rootedSegments (normalizeChars path.toList)

/-- The folder that a file lies in, from the root down. Its fronts are the folders above the
file. -/
def folderOf [WorkingFolder] (file : String) : List Segment :=
  rootedSegments (directoryChars (normalizeChars file.toList))

theorem toPath_relative {s : Segment} (nonempty : s ≠ []) (segments : List Segment) :
    (Location.mk .relative (s :: segments)).toPath = joinWith ['/'] (s :: segments) :=
  toPath_cons .relative nonempty segments

theorem importSpecifier_eq [WorkingFolder] (fromFile target : String) :
    importSpecifier fromFile target = String.ofList (specifierChars
      (Location.mk .relative (way (folderOf fromFile) (placeOf target))).toPath) := by
  have folder : rootedSegments (if (directoryChars (normalizeChars fromFile.toList)).isEmpty
      then here else directoryChars (normalizeChars fromFile.toList)) = folderOf fromFile := by
    rw [folderOf]
    split
    · next empty => rw [List.isEmpty_iff.1 empty]; rfl
    · rfl
  have spelled : relativeChars (normalizeChars target.toList)
      (if (directoryChars (normalizeChars fromFile.toList)).isEmpty
        then here else directoryChars (normalizeChars fromFile.toList))
      = (Location.mk .relative (way (folderOf fromFile) (placeOf target))).toPath := by
    rw [relativeChars, folder, ← placeOf]
    cases hway : way (folderOf fromFile) (placeOf target) with
    | nil => rfl
    | cons s segments =>
      have step := isStep_way (isName_rootedSegments _) s (by rw [← placeOf, hway]; exact .head _)
      exact (toPath_relative step.1 segments).symm
  unfold importSpecifier
  dsimp only
  rw [spelled]
  rfl

/-! ## Ways up and ways down -/

theorem way_append (start down : List Segment) : way start (start ++ down) = down := by
  induction start with
  | nil => cases down <;> rfl
  | cons s start ih => rw [List.cons_append, way, if_pos rfl, ih]

/-- The way to a place that is not below the start leads up first. -/
theorem exists_way_up {start target : List Segment} (apart : ¬ start <+: target) :
    ∃ segments, way start target = up :: segments ∧ (segments = [] → target <+: start) := by
  obtain ⟨shared, back, down, rfl, rfl, hway⟩ := exists_way start target
  cases back with
  | nil => exact absurd ⟨down, by rw [List.append_nil]⟩ apart
  | cons s back =>
    refine ⟨(back.map fun _ => up) ++ down, hway, fun empty => ?_⟩
    obtain ⟨-, rfl⟩ := List.append_eq_nil_iff.1 empty
    exact ⟨s :: back, by rw [List.append_nil]⟩

theorem joinWith_prefix (s : Segment) {segments : List Segment} (more : segments ≠ []) :
    s ++ ['/'] <+: joinWith ['/'] (s :: segments) :=
  ⟨_, (joinWith_cons ['/'] s more).symm⟩

theorem eq_of_prefix_joinWith {s t : Segment} {segments : List Segment} (slashless : '/' ∉ s)
    (other : '/' ∉ t) (h : t ++ ['/'] <+: joinWith ['/'] (s :: segments)) : t = s := by
  cases segments with
  | nil =>
    have slash : '/' ∈ s := h.subset (by simp)
    exact absurd slash slashless
  | cons next segments =>
    obtain ⟨rest, whole⟩ := h
    rw [joinWith, List.append_assoc, List.append_assoc] at whole
    have front := congrArg (List.takeWhile (· != '/')) whole
    have inside {u : Segment} (hu : '/' ∉ u) : ∀ c ∈ u, (c != '/') = true := by
      intro c hc
      exact bne_iff_ne.2 fun slash => hu (slash ▸ hc)
    rwa [List.takeWhile_append_of_pos (inside other), List.takeWhile_append_of_pos (inside slashless),
      List.singleton_append, List.singleton_append, List.takeWhile_cons_of_neg (by simp),
      List.takeWhile_cons_of_neg (by simp), List.append_nil, List.append_nil] at front

theorem isRelative_specifierChars_of_not_dot {relative : List Char}
    (h : relative.head? ≠ some '.') : IsRelative (String.ofList (specifierChars relative)) := by
  rw [specifierChars, if_neg h, IsRelative, String.toList_ofList]
  exact .inl ⟨relative, rfl⟩

/-! ## Specifiers -/

section

variable {fromFile target : String}

/-- The specifier of a module below the importing file's folder is the way there, with `./` in front
of a name that is not hidden. -/
theorem importSpecifier_below [WorkingFolder] {name : Segment} {rest : List Segment}
    (below : placeOf target = folderOf fromFile ++ name :: rest) :
    IsName name ∧ importSpecifier fromFile target = String.ofList
      (specifierChars (joinWith ['/'] (name :: rest))) := by
  have isName : IsName name := isName_rootedSegments (normalizeChars target.toList) name (by
    rw [← placeOf, below]
    simp)
  refine ⟨isName, ?_⟩
  rw [importSpecifier_eq, below, way_append, toPath_relative isName.1.1]

theorem head?_joinWith_cons {s : Segment} (nonempty : s ≠ []) (segments : List Segment) :
    (joinWith ['/'] (s :: segments)).head? = s.head? := by
  cases segments with
  | nil => rfl
  | cons next segments =>
    rw [joinWith, List.append_assoc, List.head?_append_of_ne_nil _ nonempty]

/-- The specifier of a module that is reached through a hidden name is the bare way. -/
theorem importSpecifier_hidden [WorkingFolder] {name : Segment} {rest : List Segment}
    (below : placeOf target = folderOf fromFile ++ name :: rest) (hidden : IsHidden name) :
    importSpecifier fromFile target = String.ofList (joinWith ['/'] (name :: rest)) ∧
      ¬ IsRelative (importSpecifier fromFile target) := by
  obtain ⟨isName, spelled⟩ := importSpecifier_below below
  have dotted : (joinWith ['/'] (name :: rest)).head? = some '.' := by
    rw [head?_joinWith_cons isName.1.1]
    exact hidden
  rw [specifierChars, if_pos dotted] at spelled
  refine ⟨spelled, ?_⟩
  rw [spelled, IsRelative, String.toList_ofList]
  -- A name is neither `.` nor `..`, so the slash of neither prefix can stand behind it.
  rintro (dot | dots)
  · have same : here = name := eq_of_prefix_joinWith isName.1.2.2 (by decide) dot
    exact isName.1.2.1 same.symm
  · have same : up = name := eq_of_prefix_joinWith isName.1.2.2 (by decide) dots
    exact isName.2 same.symm

/-- **A specifier is relative unless the way to the module begins with a hidden name**, for every
importing file and every module that is none of the folders above it. Where the way begins with a
hidden name, the specifier is that way and nothing else, and so names a package. -/
theorem isRelative_importSpecifier_iff [WorkingFolder]
    (outside : ¬ placeOf target <+: folderOf fromFile) :
    (IsRelative (importSpecifier fromFile target) ↔
      ∀ name rest, placeOf target = folderOf fromFile ++ name :: rest → ¬ IsHidden name) ∧
    ∀ name rest, placeOf target = folderOf fromFile ++ name :: rest → IsHidden name →
      importSpecifier fromFile target = String.ofList (joinWith ['/'] (name :: rest)) := by
  refine ⟨⟨fun relative name rest below hidden => ?_, fun visible => ?_⟩,
    fun name rest below hidden => (importSpecifier_hidden below hidden).1⟩
  · exact (importSpecifier_hidden below hidden).2 relative
  by_cases below : folderOf fromFile <+: placeOf target
  · obtain ⟨down, hdown⟩ := below
    cases down with
    | nil => exact absurd ⟨[], by rw [← hdown, List.append_nil, List.append_nil]⟩ outside
    | cons name rest =>
      obtain ⟨isName, spelled⟩ := importSpecifier_below hdown.symm
      rw [spelled]
      refine isRelative_specifierChars_of_not_dot ?_
      rw [head?_joinWith_cons isName.1.1]
      exact visible name rest hdown.symm
  · obtain ⟨segments, hway, ends⟩ := exists_way_up below
    have leads := joinWith_prefix up fun empty => outside (ends empty)
    have dotted : (joinWith ['/'] (up :: segments)).head? = some '.' :=
      head?_joinWith_cons (by decide) segments
    rw [importSpecifier_eq, hway, toPath_relative (by decide), specifierChars, if_pos dotted,
      IsRelative, String.toList_ofList]
    exact .inr leads

end

/-- Up through two folders and down again past a hidden one, from a path with backslashes. -/
theorem isRelative_importSpecifier_routes :
    ¬ placeOf "/srv/app/../.routes/home.module" <+: folderOf "\\srv\\app/src//main.ts" ∧
    (∀ name rest, placeOf "/srv/app/../.routes/home.module"
      = folderOf "\\srv\\app/src//main.ts" ++ name :: rest → ¬ IsHidden name) ∧
    IsRelative (importSpecifier "\\srv\\app/src//main.ts" "/srv/app/../.routes/home.module") := by
  have outside : ¬ placeOf "/srv/app/../.routes/home.module"
      <+: folderOf "\\srv\\app/src//main.ts" := by decide +kernel
  have apart : ¬ folderOf "\\srv\\app/src//main.ts"
      <+: placeOf "/srv/app/../.routes/home.module" := by decide +kernel
  have visible : ∀ name rest, placeOf "/srv/app/../.routes/home.module"
      = folderOf "\\srv\\app/src//main.ts" ++ name :: rest → ¬ IsHidden name :=
    fun name rest below _ => apart ⟨name :: rest, below.symm⟩
  exact ⟨outside, visible, (isRelative_importSpecifier_iff outside).1.2 visible⟩

/-- A page in a hidden folder beside the root descriptor, and one whose own name begins with two
dots, are imported as if they were packages. So is a page in a hidden folder of the working folder,
if the importing file is named from there. -/
theorem importSpecifier_names_package :
    isAbsolute (normalize "/app/src/app/.pages/home.module") = true ∧
    ¬ placeOf "/app/src/app/.pages/home.module" <+: folderOf "/app/src/app/app.module.ts" ∧
    importSpecifier "/app/src/app/app.module.ts" "/app/src/app/.pages/home.module"
      = ".pages/home.module" ∧
    ¬ IsRelative (importSpecifier "/app/src/app/app.module.ts" "/app/src/app/.pages/home.module") ∧
    isAbsolute (normalize "/app/src/app/..home.module") = true ∧
    ¬ placeOf "/app/src/app/..home.module" <+: folderOf "/app/src/app/app.module.ts" ∧
    importSpecifier "/app/src/app/app.module.ts" "/app/src/app/..home.module" = "..home.module" ∧
    ¬ IsRelative (importSpecifier "/app/src/app/app.module.ts" "/app/src/app/..home.module") ∧
    ¬ @placeOf (.ofPath "/tmp") "/tmp/.pages/home" <+: @folderOf (.ofPath "/tmp") "a.ts" ∧
    @importSpecifier (.ofPath "/tmp") "a.ts" "/tmp/.pages/home" = ".pages/home" ∧
    ¬ IsRelative (@importSpecifier (.ofPath "/tmp") "a.ts" "/tmp/.pages/home") ∧
    IsRelative (importSpecifier "a.ts" "/tmp/.pages/home") := by
  decide +kernel

end RouteTrim.Path
