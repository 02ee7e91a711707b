import RouteTrim.Path.Specifier
import RouteTrim.Proofs.Path.Extension
import RouteTrim.Proofs.Store.Synced

/-!
# Import specifiers lead to their targets

A specifier is the way from one location to another. Walked from the first one, it takes back what
the two do not share and goes down to the second one (`foldl_way`). So a specifier that is put
behind the directory of the importing file and normalized is the module again, for every depth and
every common part of the two paths, and two modules never share a specifier in one file.
-/

set_option autoImplicit false

namespace RouteTrim.Path

open RouteTrim.Text

/-! ## Names under a root -/

theorem ofPath_names {names : List Segment} (h : ∀ s ∈ names, IsName s) :
    Location.ofPath (Location.mk .root names).toPath = ⟨.root, names⟩ := by
  have trail : Trail .root names.reverse :=
    .of_names fun s hs => h s (List.mem_reverse.1 hs)
  have read := ofPath_toPath trail
  rwa [List.reverse_reverse] at read

theorem toPath_root (names : List Segment) :
    (Location.mk .root names).toPath = '/' :: joinWith ['/'] names := rfl

theorem rootedSegments_names [WorkingFolder] {names : List Segment} (h : ∀ s ∈ names, IsName s) :
    rootedSegments (Location.mk .root names).toPath = names := by
  have read := ofPath_names h
  rw [Location.ofPath, anchor_toPath (l := ⟨.root, names⟩) fun s hs => (h s hs).1] at read
  have absolute : (Location.mk .root names).toPath.head? = some '/' := rfl
  rw [rootedSegments, startOf, if_pos absolute]
  exact congrArg Location.segments read

theorem plain_of_normal {path : String} {names : List Segment}
    (spelled : normalizeChars path.toList = (Location.mk .root names).toPath) :
    ∀ s ∈ names, backslash ∉ s := by
  intro s hs h
  have plain := plain_normalize path
  rw [normalize, String.toList_ofList, spelled, toPath_root] at plain
  exact plain (.tail _ (mem_joinWith_of_mem hs h))

/-! ## Walking along a way -/

section

variable {anchor : Anchor}

theorem foldl_ups {names : List Segment} (h : ∀ s ∈ names, IsName s) (trail : List Segment) :
    (names.map fun _ => up).foldl (Location.step anchor) (names ++ trail) = trail := by
  induction names with
  | nil => rfl
  | cons s names ih =>
    obtain ⟨first, rest⟩ := List.forall_mem_cons.1 h
    have back : Location.step anchor (s :: (names ++ trail)) up = names ++ trail := by
      have notNothing : ¬(up = [] ∨ up = here) := by decide
      rw [Location.step, if_neg notNothing, if_pos rfl]
      exact if_neg first.2
    rw [List.map_cons, List.foldl_cons, List.cons_append, back]
    exact ih rest

theorem exists_way (start target : List Segment) : ∃ shared back down,
    start = shared ++ back ∧ target = shared ++ down ∧
      way start target = (back.map fun _ => up) ++ down := by
  induction start, target using way.induct with
  | case1 start s target ih =>
    obtain ⟨shared, back, down, rfl, rfl, hway⟩ := ih
    exact ⟨s :: shared, back, down, rfl, rfl, by rw [way, if_pos rfl, hway]⟩
  | case2 s start t target ne =>
    exact ⟨[], s :: start, t :: target, rfl, rfl, by rw [way, if_neg ne]⟩
  | case3 start target other =>
    refine ⟨[], start, target, rfl, rfl, ?_⟩
    cases start with
    | nil => rfl
    | cons s start =>
      cases target with
      | nil => rfl
      | cons t target => exact absurd rfl (other s start t target rfl)

/-- **The way from one place to another leads there**, whatever lies in front of both. -/
theorem foldl_way {start target : List Segment} (hstart : ∀ s ∈ start, IsName s)
    (htarget : ∀ s ∈ target, IsName s) (trail : List Segment) :
    (way start target).foldl (Location.step anchor) (start.reverse ++ trail)
      = target.reverse ++ trail := by
  obtain ⟨shared, back, down, rfl, rfl, hway⟩ := exists_way start target
  have hback : ∀ s ∈ back, IsName s := fun s hs => hstart s (List.mem_append_right _ hs)
  have hdown : ∀ s ∈ down, IsName s := fun s hs => htarget s (List.mem_append_right _ hs)
  -- A trail has its last name first, and going up takes that one back first.
  have ups : (back.map fun _ => up) = back.reverse.map fun _ => up := by simp
  rw [hway, List.foldl_append, ups, List.reverse_append, List.reverse_append, List.append_assoc,
    List.append_assoc, foldl_ups fun s hs => hback s (List.mem_reverse.1 hs), foldl_names hdown]

end

/-! ## Directories -/

theorem dropRightWhile_slash {s : List Char} (h : s.getLast? ≠ some '/') :
    dropRightWhile (· == '/') (s ++ ['/']) = s := by
  have kept := dropRightWhile_self h
  rw [dropRightWhile, List.reverse_append, List.reverse_singleton, List.singleton_append,
    List.dropWhile_cons_of_pos (by rfl)]
  exact kept

theorem directoryChars_names {names : List Segment} (h : ∀ s ∈ names, IsName s) :
    directoryChars (Location.mk .root names).toPath
      = (Location.mk .root names.dropLast).toPath := by
  rcases List.eq_nil_or_concat' names with rfl | ⟨front, last, rfl⟩
  · rfl
  have slashless := (h last (by simp)).1.2.2
  rw [List.dropLast_concat, toPath_root, toPath_root, directoryChars]
  cases front with
  | nil =>
    have front : throughLast '/' ([] ++ '/' :: last) = [] ++ ['/'] := throughLast_append slashless
    have whole : joinWith ['/'] ([] ++ [last]) = last := rfl
    rw [List.nil_append] at front
    rw [whole, front]
    rfl
  | cons first front =>
    have names : ∀ s ∈ first :: front, IsName s := fun s hs => h s (List.mem_append_left _ hs)
    have parts : '/' :: joinWith ['/'] ((first :: front) ++ [last])
        = ('/' :: joinWith ['/'] (first :: front)) ++ '/' :: last := by
      rw [joinWith_concat (by simp)]
      simp
    have ending : ('/' :: joinWith ['/'] (first :: front)).getLast? ≠ some '/' := by
      rw [List.getLast?_cons_of_ne_nil (joinWith_ne_nil (names first (.head _)).1.1 _)]
      exact getLast?_joinWith fun s hs => (names s hs).1
    rw [parts, throughLast_append slashless, dropRightWhile_slash ending]
    rfl

/-! ## Specifiers -/

theorem mem_way {start target : List Segment} {s : Segment} (h : s ∈ way start target) :
    s = up ∨ s ∈ target := by
  obtain ⟨shared, back, down, rfl, rfl, hway⟩ := exists_way start target
  rcases List.mem_append.1 (hway ▸ h) with ups | hs
  · obtain ⟨-, -, rfl⟩ := List.mem_map.1 ups
    exact .inl rfl
  · exact .inr (List.mem_append_right _ hs)

theorem isStep_way {start target : List Segment} (h : ∀ s ∈ target, IsName s) :
    ∀ s ∈ way start target, IsStep s := by
  intro s hs
  rcases mem_way hs with rfl | hs
  · exact isStep_up
  · exact (h s hs).1

section

variable {start target : List Segment} (hstart : ∀ s ∈ start, IsName s)
  (htarget : ∀ s ∈ target, IsName s)

include hstart htarget

theorem relativeChars_names [WorkingFolder] :
    relativeChars (Location.mk .root target).toPath (Location.mk .root start).toPath
      = (Location.mk .relative (way start target)).toPath := by
  rw [relativeChars, rootedSegments_names hstart, rootedSegments_names htarget]
  cases hway : way start target with
  | nil => rfl
  | cons s segments =>
    have nonempty : s ≠ [] := (isStep_way htarget s (by rw [hway]; exact .head _)).1
    have text : ¬(Anchor.relative.text ++ joinWith ['/'] (s :: segments)).isEmpty = true := by
      simpa [Anchor.text] using joinWith_ne_nil nonempty segments
    exact (if_neg text).symm

end

theorem ofPath_joinChars {names : List Segment} (h : ∀ s ∈ names, IsName s) {next : List Char}
    (relative : next.head? ≠ some '/') :
    Location.ofPath (joinChars (Location.mk .root names).toPath next)
      = ⟨.root, ((split '/' next).foldl (Location.step .root) names.reverse).reverse⟩ := by
  -- The root itself ends with a slash already, so joining puts none behind it.
  obtain ⟨rest, joined, head, segments⟩ : ∃ rest,
      joinChars (Location.mk .root names).toPath next = Anchor.root.text ++ rest ∧
      rest.head? ≠ some '/' ∧ steps (split '/' ('/' :: rest)) = names
          ++ steps (split '/' next) := by
    rw [joinChars, if_neg relative]
    cases names with
    | nil =>
      have parts : split '/' ('/' :: next) = [] :: split '/' next := if_pos rfl
      exact ⟨next, rfl, relative, by rw [parts]; rfl⟩
    | cons s names =>
      have nonempty := joinWith_ne_nil (h s (.head _)).1.1 names
      have ending : ('/' :: joinWith ['/'] (s :: names)).getLast? ≠ some '/' := by
        rw [List.getLast?_cons_of_ne_nil nonempty]
        exact getLast?_joinWith fun s hs => (h s hs).1
      have own := steps_toPath (l := ⟨.root, s :: names⟩) fun s hs => (h s hs).1
      rw [toPath_root] at own ⊢
      refine ⟨joinWith ['/'] (s :: names) ++ '/' :: next, ?_, ?_, ?_⟩
      · rw [if_neg (by simpa using ending)]
        rfl
      · rw [List.head?_append_of_ne_nil _ nonempty]
        exact head_joinWith fun s hs => (h s hs).1
      · rw [← List.cons_append, split_append, steps, List.filter_append, ← steps, ← steps, own]
  rw [joined, Location.ofPath, ofPath_text_append .root head, ← foldl_step_steps]
  show Location.mk .root ((steps (split '/' ('/' :: rest))).foldl _ []).reverse = _
  rw [segments, List.foldl_append, foldl_names h, foldl_step_steps, List.append_nil]

/-- The text of a specifier for a relative path. -/
def specifierChars (relative : List Char) : List Char :=
  if relative.head? = some '.' then relative else '.' :: '/' :: relative

theorem head?_specifierChars (relative : List Char) :
    (specifierChars relative).head? = some '.' := by
  unfold specifierChars
  split
  · assumption
  · rfl

theorem head?_importSpecifier [WorkingFolder] (fromFile target : String) :
    (importSpecifier fromFile target).toList.head? = some '.' := by
  rw [importSpecifier, String.toList_ofList]
  exact head?_specifierChars _

/-- The dot in front of a specifier leads nowhere. -/
theorem steps_specifierChars (relative : List Char) :
    steps (split '/' (specifierChars relative)) = steps (split '/' relative) := by
  unfold specifierChars
  split
  · rfl
  · have parts : split '/' ('.' :: '/' :: relative) = ['.'] :: split '/' relative :=
      split_append '/' ['.'] relative
    rw [parts]
    rfl

theorem mem_specifierChars {relative : List Char} {c : Char} (h : c ∈ specifierChars relative) :
    c = '.' ∨ c = '/' ∨ c ∈ relative := by
  unfold specifierChars at h
  split at h
  · exact .inr (.inr h)
  · rcases List.mem_cons.1 h with rfl | h
    · exact .inl rfl
    · exact .inr (List.mem_cons.1 h)

theorem importSpecifier_names [WorkingFolder] {fromFile target : String}
    {names others : List Segment} (hnames : ∀ s ∈ names, IsName s)
    (hothers : ∀ s ∈ others, IsName s)
    (spelled : normalizeChars fromFile.toList = (Location.mk .root names).toPath)
    (aimed : normalizeChars target.toList = (Location.mk .root others).toPath) :
    importSpecifier fromFile target = String.ofList
      (specifierChars (Location.mk .relative (way names.dropLast others)).toPath) := by
  have parents : ∀ s ∈ names.dropLast, IsName s := fun s hs =>
    hnames s ((List.dropLast_sublist names).mem hs)
  have nonempty : ¬(Location.mk .root names.dropLast).toPath.isEmpty = true := by
    rw [toPath_root]
    simp
  unfold importSpecifier
  dsimp only
  rw [spelled, aimed, directoryChars_names hnames, if_neg nonempty,
    relativeChars_names parents hothers]
  rfl

/-- **A specifier leads from the directory of the importing file to the module.** -/
theorem normalize_join_importSpecifier [WorkingFolder] {fromFile target : String}
    (absolute : IsKey (normalize fromFile)) (aimed : IsKey (normalize target)) :
    normalize (join (directory (normalize fromFile)) (importSpecifier fromFile target))
      = normalize target := by
  obtain ⟨names, hnames, spelled⟩ := absolute
  obtain ⟨others, hothers, aimed⟩ := aimed
  have spelled' : normalizeChars fromFile.toList = (Location.mk .root names).toPath :=
    String.ofList_injective spelled
  have aimed' : normalizeChars target.toList = (Location.mk .root others).toPath :=
    String.ofList_injective aimed
  have parents : ∀ s ∈ names.dropLast, IsName s := fun s hs =>
    hnames s ((List.dropLast_sublist names).mem hs)
  have isStep : ∀ s ∈ way names.dropLast others, IsStep s := isStep_way hothers
  have relative : (specifierChars
      (Location.mk .relative (way names.dropLast others)).toPath).head? ≠ some '/' := by
    rw [head?_specifierChars]
    decide
  -- Normalizing would take a backslash for a slash, and neither of the two paths has one.
  have plain : backslash ∉ joinChars (Location.mk .root names.dropLast).toPath
      (specifierChars (Location.mk .relative (way names.dropLast others)).toPath) := by
    refine plain_joinChars (plain_toPath fun s hs => ?_) fun h => ?_
    · exact plain_of_normal spelled' s ((List.dropLast_sublist names).mem hs)
    · rcases mem_specifierChars h with dot | slash | h
      · exact absurd dot (by decide)
      · exact absurd slash (by decide)
      · refine plain_toPath (fun s hs => ?_) h
        rcases mem_way hs with rfl | hs
        · decide
        · exact plain_of_normal aimed' s hs
  rw [importSpecifier_names hnames hothers spelled' aimed', directory, spelled, normalize, join]
  simp only [String.toList_ofList]
  rw [directoryChars_names hnames, normalizeChars_of_plain plain, ofPath_joinChars parents relative,
    ← foldl_step_steps, steps_specifierChars, steps_toPath isStep]
  have walked := @foldl_way .root _ _ parents hothers []
  rw [List.append_nil, List.append_nil] at walked
  rw [walked, List.reverse_reverse, aimed]

/-! ## Rooted paths -/

/-- A path with exactly one slash in front. -/
def IsRooted (path : String) : Prop :=
  path.toList.takeWhile (· == '/') = ['/']

instance (path : String) : Decidable (IsRooted path) :=
  inferInstanceAs (Decidable (_ = _))

/-- One slash is the root's. No slash makes a path relative, and two have an anchor of their own. -/
theorem IsRooted.anchor_eq {path : String} (h : IsRooted path) :
    Anchor.ofPath path.toList = .root := by
  unfold IsRooted at h
  unfold Anchor.ofPath
  split
  · rfl
  · next two => simp [two] at h
  · rfl
  · next relative =>
    cases hpath : path.toList with
    | nil => simp [hpath] at h
    | cons c rest =>
      rw [hpath, List.takeWhile_cons] at h
      split at h
      · next slash => exact absurd (by rw [hpath, beq_iff_eq.1 slash]) (relative rest)
      · exact absurd h (by simp)

theorem IsRooted.isKey {path : String} (h : IsRooted (normalize path)) :
    IsKey (normalize path) := by
  obtain ⟨anchor, trail, htrail, spelled⟩ := trail_normalize path
  have isStep : ∀ s ∈ (Location.mk anchor trail.reverse).segments, IsStep s := fun s hs =>
    htrail.isStep s (List.mem_reverse.1 hs)
  have root := h.anchor_eq
  rw [spelled, anchor_toPath isStep] at root
  obtain rfl : anchor = .root := root
  refine ⟨trail.reverse, fun s hs => htrail.isName (by decide) s (List.mem_reverse.1 hs), ?_⟩
  rw [← spelled, String.ofList_toList]

/-- **From one file, a specifier stands for one module.** Walked from the folder of the importing
file, it leads back to the target that it was made for, and two targets have the same specifier only
if they are the same module. All spellings of a path are meant, with backslashes, with steps that
lead nowhere and with detours, as long as its normal spelling starts at the root; a folder above the
importing file is a target like any other. -/
theorem importSpecifier_exact [WorkingFolder] {fromFile target : String}
    (rooted : IsRooted (normalize fromFile))
    (aimed : IsRooted (normalize target)) :
    normalize (join (directory (normalize fromFile)) (importSpecifier fromFile target))
      = normalize target ∧
    ∀ other, IsRooted (normalize other) →
      (importSpecifier fromFile other = importSpecifier fromFile target ↔
        normalize other = normalize target) := by
  have leads := normalize_join_importSpecifier rooted.isKey aimed.isKey
  refine ⟨leads, fun other hother => ⟨fun same => ?_, fun same => ?_⟩⟩
  · rw [← normalize_join_importSpecifier rooted.isKey hother.isKey, same, leads]
  · have chars : normalizeChars other.toList = normalizeChars target.toList :=
      String.ofList_injective same
    unfold importSpecifier
    rw [chars]

/-- An importing file, spelled with backslashes, dot segments and repeated slashes. -/
def sampleImporter : String :=
  "\\srv\\app/./src//pages/../pages/home\\home.ts"

/-- A module that shares folders with the importing file. -/
def sampleTarget : String :=
  "///srv/app/lib/../src/components//alert/"

/-- The folder that both lie in has a specifier of its own. -/
theorem importSpecifier_exact_alert :
    IsRooted (normalize sampleImporter) ∧ IsRooted (normalize sampleTarget) ∧
    IsRooted (normalize "/srv/app\\src/.") ∧
    normalize (join (directory (normalize sampleImporter))
      (importSpecifier sampleImporter sampleTarget)) = normalize sampleTarget ∧
    importSpecifier sampleImporter "/srv/app\\src/."
      ≠ importSpecifier sampleImporter sampleTarget := by
  have rooted : IsRooted (normalize sampleImporter) := by decide +kernel
  have aimed : IsRooted (normalize sampleTarget) := by decide +kernel
  have other : IsRooted (normalize "/srv/app\\src/.") := by decide +kernel
  have exact := importSpecifier_exact rooted aimed
  refine ⟨rooted, aimed, other, exact.1, fun same => ?_⟩
  exact absurd ((exact.2 _ other).1 same) (by decide +kernel)

end RouteTrim.Path
