import RouteTrim.Proofs.Path.Parts

/-!
# Placed paths

Graphs and stores have their keys in the normal spelling, and a path is compared with them as it is.
So it finds what it names only if it is such a spelling itself and starts at a root, as they do
(`IsPlaced`). It is then the slashes of its root with plain names behind them, so a path that is put
together from a placed folder and something below it is placed if and only if there are plain names
between the slashes of what was put behind.
-/

set_option autoImplicit false

namespace RouteTrim.Path

open RouteTrim.Text

/-- A path from a root in its normal spelling. -/
structure IsPlaced (path : String) : Prop where
  filled : path ≠ ""
  absolute : isAbsolute path = true
  normal : normalize path = path

instance (path : String) : Decidable (IsPlaced path) :=
  decidable_of_iff (path ≠ "" ∧ isAbsolute path = true ∧ normalize path = path)
    ⟨fun h => ⟨h.1, h.2.1, h.2.2⟩, fun h => ⟨h.filled, h.absolute, h.normal⟩⟩

/-- A name that a path can be made of as it is. -/
def IsPlain (s : Segment) : Prop :=
  IsName s ∧ backslash ∉ s

instance (s : Segment) : Decidable (IsPlain s) :=
  inferInstanceAs (Decidable (_ ∧ _))

theorem isAbsolute_iff {path : String} :
    isAbsolute path = true ↔ Anchor.ofPath path.toList ≠ .relative := by
  rw [isAbsolute, beq_iff_eq, startsAtSlash_iff]

theorem toPath_rooted {anchor : Anchor} (rooted : anchor ≠ .relative) (names : List Segment) :
    (Location.mk anchor names).toPath = anchor.text ++ joinWith ['/'] names := by
  cases anchor with
  | relative => exact absurd rfl rooted
  | root => rfl
  | doubleRoot => rfl

/-- **A placed path is the slashes of a root and plain names.** -/
theorem isPlaced_iff {path : String} : IsPlaced path ↔ ∃ anchor names, anchor ≠ .relative ∧
    (∀ s ∈ names, IsPlain s) ∧ path.toList = Anchor.text anchor ++ joinWith ['/'] names := by
  constructor
  · rintro ⟨-, absolute, normal⟩
    obtain ⟨anchor, trail, htrail, spelled⟩ := trail_normalize path
    rw [normal] at spelled
    have rooted : anchor ≠ .relative := by
      rw [isAbsolute_iff, spelled,
        anchor_toPath fun s hs => htrail.isStep s (List.mem_reverse.1 hs)] at absolute
      exact absolute
    rw [toPath_rooted rooted] at spelled
    refine ⟨anchor, trail.reverse, rooted, fun s hs =>
      ⟨htrail.isName rooted s (List.mem_reverse.1 hs), fun found => ?_⟩, spelled⟩
    have plain := plain_normalize path
    rw [normal, spelled] at plain
    exact plain (List.mem_append_right _ (mem_joinWith_of_mem hs found))
  · rintro ⟨anchor, names, rooted, plain, spelled⟩
    have trail : Trail anchor names.reverse :=
      .of_names fun s hs => (plain s (List.mem_reverse.1 hs)).1
    rw [← toPath_rooted rooted] at spelled
    have read : Location.ofPath path.toList = ⟨anchor, names⟩ := by
      rw [spelled]
      simpa using ofPath_toPath trail
    have absolute : isAbsolute path = true := by
      rw [isAbsolute_iff, spelled, anchor_toPath fun s hs => (plain s hs).1.1]
      exact rooted
    refine ⟨?_, absolute, String.toList_injective ?_⟩
    · rintro rfl
      exact absurd absolute (by decide)
    · have slashed : backslash ∉ path.toList := spelled ▸ plain_toPath fun s hs => (plain s hs).2
      rw [normalize, String.toList_ofList, normalizeChars_of_plain slashed, read, spelled]

/-- What stands behind the slashes of a root makes a placed path if it is plain names between
slashes. -/
theorem isPlaced_rooted_iff {path : String} {anchor : Anchor} {rest : List Char}
    (rooted : anchor ≠ .relative) (spelled : path.toList = anchor.text ++ rest) (filled : rest ≠ [])
    (head : rest.head? ≠ some '/') : IsPlaced path ↔ ∀ s ∈ split '/' rest, IsPlain s := by
  rw [isPlaced_iff]
  constructor
  · rintro ⟨other, names, -, plain, same⟩
    have steps : ∀ s ∈ names, IsStep s := fun s hs => (plain s hs).1.1
    obtain rfl : anchor = other := by
      rw [← ofPath_text_append anchor head, ← spelled, same,
        ofPath_text_append other (head_joinWith steps)]
    obtain rfl : rest = joinWith ['/'] names := List.append_cancel_left (spelled.symm.trans same)
    have ne : names ≠ [] := fun empty => filled (by rw [empty]; rfl)
    rw [split_joinWith ne fun s hs => (steps s hs).2.2]
    exact plain
  · exact fun plain => ⟨anchor, _, rooted, plain, by rw [joinWith_split, spelled]⟩

theorem isAbsolute_normalize {path : String} (absolute : isAbsolute path = true) :
    isAbsolute (normalize path) = true := by
  have slash := beq_iff_eq.1 absolute
  rw [isAbsolute_iff, normalize, String.toList_ofList, normalizeChars_eq,
    anchor_toPath (isStep_locationOf path)]
  refine (startsAtSlash_iff _).1 ?_
  cases hpath : path.toList with
  | nil => rw [hpath] at slash; exact absurd slash (by simp)
  | cons c rest =>
    obtain rfl : c = '/' := by simpa [hpath] using slash
    rfl

theorem isPlaced_normalize {path : String} (absolute : isAbsolute path = true) :
    IsPlaced (normalize path) where
  filled := fun empty => absurd (isAbsolute_normalize absolute) (by rw [empty]; decide)
  absolute := isAbsolute_normalize absolute
  normal := normalize_normalize path

/-! ## Paths that go on -/

/-- The text of a folder with the slash that something can be put behind. -/
def opened (folder : List Char) : List Char :=
  if folder.isEmpty || folder.getLast? == some '/' then folder else folder ++ ['/']

theorem joinChars_relative (folder : List Char) {next : List Char}
    (relative : next.head? ≠ some '/') :
    joinChars folder next = opened folder ++ next := by
  rw [joinChars, if_neg relative, opened]
  split
  · rfl
  · simp

theorem joinChars_rooted (folder : List Char) {next : List Char} (rooted : next.head? = some '/') :
    joinChars folder next = next :=
  if_pos rooted

theorem opened_append (front : List Char) {folder : List Char} (filled : folder ≠ []) :
    opened (front ++ folder) = front ++ opened folder := by
  simp only [opened, List.getLast?_append_of_ne_nil _ filled, List.isEmpty_iff,
    List.append_eq_nil_iff, filled, Bool.or_eq_true, and_false]
  split <;> simp

theorem head?_opened {folder : List Char} (filled : folder ≠ []) (next : List Char) :
    (opened folder ++ next).head? = folder.head? := by
  unfold opened
  split
  · exact List.head?_append_of_ne_nil _ filled
  · rw [List.append_assoc, List.head?_append_of_ne_nil _ filled]

theorem join_ne_empty {folder : String} (filled : folder ≠ "") (next : String) :
    join folder next ≠ "" := by
  have more : folder.toList ≠ [] := fun empty => filled (String.toList_injective empty)
  intro empty
  have none := congrArg String.toList empty
  rw [join, String.toList_ofList] at none
  by_cases rooted : next.toList.head? = some '/'
  · rw [joinChars_rooted _ rooted] at none
    simp [none] at rooted
  · have head := head?_opened more next.toList
    rw [← joinChars_relative _ rooted, none] at head
    exact more (List.head?_eq_none_iff.1 head.symm)

/-- A path that goes on starts where it did, unless what follows starts at a root. -/
theorem isAbsolute_join_iff {folder next : String} (filled : folder ≠ "") :
    isAbsolute (join folder next) = true ↔ isAbsolute next = true ∨ isAbsolute folder = true := by
  have more : folder.toList ≠ [] := fun empty => filled (String.toList_injective empty)
  simp only [isAbsolute, beq_iff_eq, join, String.toList_ofList]
  by_cases rooted : next.toList.head? = some '/'
  · rw [joinChars_rooted _ rooted]
    simp [rooted]
  · rw [joinChars_relative _ rooted, head?_opened more]
    simp [rooted]

/-- Continuing a path by a continued path is continuing it twice. -/
theorem joinChars_assoc (folder : List Char) {middle next : List Char} (filled : middle ≠ [])
    (relative : next.head? ≠ some '/') :
    joinChars (joinChars folder middle) next = joinChars folder (joinChars middle next) := by
  rw [joinChars_relative middle relative]
  by_cases rooted : middle.head? = some '/'
  · rw [joinChars_rooted folder rooted, joinChars_relative middle relative,
      joinChars_rooted folder ((head?_opened filled next).trans rooted)]
  · have inner : (opened middle ++ next).head? ≠ some '/' := by rwa [head?_opened filled]
    rw [joinChars_relative folder rooted, joinChars_relative _ relative, opened_append _ filled,
      joinChars_relative folder inner, List.append_assoc]

/-- A placed path goes on as a placed one if and only if plain names stand between the slashes of
what is put behind. -/
theorem isPlaced_join_iff {folder next : String} (placed : IsPlaced folder) (filled : next ≠ "")
    (relative : next.toList.head? ≠ some '/') :
    IsPlaced (join folder next) ↔ ∀ s ∈ split '/' next.toList, IsPlain s := by
  obtain ⟨anchor, names, rooted, plain, spelled⟩ := isPlaced_iff.1 placed
  have more : next.toList ≠ [] := fun empty => filled (String.toList_injective empty)
  have joined : (join folder next).toList = opened folder.toList ++ next.toList :=
    String.toList_ofList.trans (joinChars_relative _ relative)
  cases names with
  | nil =>
    have slash : opened (Anchor.text anchor ++ joinWith ['/'] []) = Anchor.text anchor := by
      cases anchor with
      | relative => exact absurd rfl rooted
      | root => rfl
      | doubleRoot => rfl
    rw [spelled, slash] at joined
    exact isPlaced_rooted_iff rooted joined more relative
  | cons s names =>
    have steps : ∀ part ∈ s :: names, IsStep part := fun part hpart => (plain part hpart).1.1
    have inner := joinWith_ne_nil (steps s (List.mem_cons_self ..)).1 names
    have closed : opened (joinWith ['/'] (s :: names)) = joinWith ['/'] (s :: names) ++ ['/'] :=
      if_neg (by simp [inner, getLast?_joinWith steps])
    rw [spelled, opened_append _ inner, closed, List.append_assoc, List.append_assoc] at joined
    rw [isPlaced_rooted_iff rooted joined (by simp), List.singleton_append, split_append,
      split_joinWith (List.cons_ne_nil s names) fun part hpart => (steps part hpart).2.2,
      List.forall_mem_append]
    · exact and_iff_right plain
    · rw [List.head?_append_of_ne_nil _ inner]
      exact head_joinWith steps

end RouteTrim.Path
