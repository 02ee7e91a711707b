import Mathlib.Data.List.Basic
import RouteTrim.Proofs.Path.Extension

/-!
# The parts of a spelling

What stands between the slashes of a normal path are the segments of its location, with an empty
part in front for each slash of the anchor (`split_toPath`). So a question about the text of a path
is one about its parts: a text that ends with a slash occurs in a path where its parts occur among
those of the path, all of them whole but the first (`infix_iff_split`).
-/

set_option autoImplicit false

namespace RouteTrim.Text

/-! ## Texts and their parts -/

section

variable {separator : Char} {s : List Char}

theorem append_joinWith (front : List Char) (separator part : List Char)
    (parts : List (List Char)) :
    front ++ joinWith separator (part :: parts)
      = joinWith separator ((front ++ part) :: parts) := by
  cases parts with
  | nil => rfl
  | cons next parts => simp only [joinWith, List.append_assoc]

/-- A text has finished parts, and one that goes on with what follows it. -/
theorem exists_split_append (separator : Char) (s : List Char) : ∃ parts last, separator ∉ last ∧
    ∀ next, split separator (s ++ next) = parts ++ split separator (last ++ next) := by
  by_cases h : separator ∈ s
  · obtain ⟨front, last, rfl, absent⟩ := exists_last h
    refine ⟨split separator front, last, absent, fun next => ?_⟩
    rw [List.append_assoc, List.cons_append, split_append]
  · exact ⟨[], s, h, fun next => rfl⟩

theorem exists_split (separator : Char) (s : List Char) :
    ∃ front last, split separator s = front ++ [last] ∧ separator ∉ last := by
  obtain ⟨front, last, absent, parts⟩ := exists_split_append separator s
  refine ⟨front, last, ?_, absent⟩
  have whole := parts []
  rwa [List.append_nil, List.append_nil, split_of_not_mem absent] at whole

/-- Only the last part of a text goes on with what follows it. -/
theorem split_append_of_split {front : List (List Char)} {last : List Char}
    (h : split separator s = front ++ [last]) (next : List Char) :
    split separator (s ++ next) = front ++ split separator (last ++ next) := by
  obtain ⟨before, own, absent, parts⟩ := exists_split_append separator s
  have whole := parts []
  rw [List.append_nil, List.append_nil, split_of_not_mem absent, h] at whole
  obtain ⟨rfl, same⟩ := List.append_inj' whole rfl
  obtain ⟨rfl, -⟩ := List.cons.inj same
  exact parts next

/-- A text ends with the separator if nothing stands behind that. -/
theorem getLast?_eq_separator_iff {front : List (List Char)} {last : List Char} (filled : s ≠ [])
    (h : split separator s = front ++ [last]) : s.getLast? = some separator ↔ last = [] := by
  have slashless : separator ∉ last := not_mem_of_mem_split (s := s) (by rw [h]; simp)
  have whole := joinWith_split separator s
  rw [h] at whole
  constructor
  · intro ending
    by_contra more
    have own : s.getLast? = last.getLast? := by
      rw [← whole]
      cases front with
      | nil => rfl
      | cons part front => rw [joinWith_concat (by simp), List.getLast?_append_of_ne_nil _ more]
    exact slashless (List.mem_of_getLast? (own.symm.trans ending))
  · rintro rfl
    cases front with
    | nil => exact absurd whole.symm filled
    | cons part front =>
      rw [joinWith_concat (by simp)] at whole
      rw [← whole]
      simp

/-- **Where a text occurs with a separator behind it, its parts occur**: the first of them as the
end of a part, and the others as whole parts, with something behind them. -/
theorem infix_iff_split {first : List Char} {rest : List (List Char)}
    (h : ∀ part ∈ first :: rest, separator ∉ part) :
    joinWith [separator] (first :: rest) ++ [separator] <:+: s ↔ ∃ front part back,
      split separator s = front ++ part :: (rest ++ back) ∧ back ≠ [] ∧ first <:+ part := by
  obtain ⟨hfirst, hrest⟩ := List.forall_mem_cons.1 h
  constructor
  · rintro ⟨ahead, behind, rfl⟩
    obtain ⟨front, last, absent, parts⟩ := exists_split_append separator ahead
    have longer : ∀ part ∈ (last ++ first) :: rest, separator ∉ part :=
      List.forall_mem_cons.2 ⟨by simp [absent, hfirst], hrest⟩
    refine ⟨front, last ++ first, split separator behind, ?_, split_ne_nil _ _, ⟨last, rfl⟩⟩
    rw [List.append_assoc, parts, List.append_assoc, List.singleton_append, ← List.append_assoc,
      append_joinWith, split_append, split_joinWith (by simp) longer]
    simp
  · rintro ⟨front, _, back, hsplit, hback, ⟨last, rfl⟩⟩
    have joined : joinWith [separator] ((last ++ first) :: (rest ++ back))
        = last ++ (joinWith [separator] (first :: rest) ++ [separator])
          ++ joinWith [separator] back := by
      rw [← append_joinWith, ← List.cons_append, joinWith_append (by simp) hback]
      simp only [List.append_assoc]
    have whole : joinWith [separator] (split separator s) = s := joinWith_split separator s
    rw [hsplit] at whole
    rw [← whole]
    cases front with
    | nil => exact ⟨last, joinWith [separator] back, joined.symm⟩
    | cons part front =>
      rw [joinWith_append (by simp) (by simp), joined]
      refine ⟨joinWith [separator] (part :: front) ++ [separator] ++ last,
        joinWith [separator] back, ?_⟩
      simp only [List.append_assoc]

end

end RouteTrim.Text

namespace RouteTrim.Path

open RouteTrim.Text

/-! ## Locations and their segments -/

/-- The location that a path names. -/
def locationOf (path : String) : Location :=
  Location.ofPath (path.toList.map fun c => if c = backslash then '/' else c)

theorem normalizeChars_eq (path : String) :
    normalizeChars path.toList = (locationOf path).toPath := rfl

theorem isStep_locationOf (path : String) : ∀ s ∈ (locationOf path).segments, IsStep s := by
  obtain ⟨trail, htrail, read⟩ :=
    trail_ofPath (path.toList.map fun c => if c = backslash then '/' else c)
  intro s hs
  rw [locationOf, read] at hs
  exact htrail.isStep s (List.mem_reverse.1 hs)

/-- A location is read back from the normal spelling. -/
theorem ofPath_normalizeChars (path : String) :
    Location.ofPath (normalizeChars path.toList) = locationOf path := by
  obtain ⟨trail, htrail, read⟩ :=
    trail_ofPath (path.toList.map fun c => if c = backslash then '/' else c)
  rw [normalizeChars_eq, locationOf, read, ofPath_toPath htrail]

/-- Paths have one normal spelling if and only if they name one location. -/
theorem normalize_eq_iff {path other : String} :
    normalize path = normalize other ↔ locationOf path = locationOf other := by
  constructor
  · intro h
    rw [← ofPath_normalizeChars, ← ofPath_normalizeChars, String.ofList_injective h]
  · intro h
    rw [normalize, normalize, normalizeChars_eq, normalizeChars_eq, h]

theorem Anchor.eq_slash {anchor : Anchor} {c : Char} (h : c ∈ anchor.text) : c = '/' := by
  cases anchor <;> simp_all [Anchor.text]

/-- The empty parts that the slashes of an anchor make. -/
def Anchor.parts (anchor : Anchor) : List Segment :=
  anchor.text.map fun _ => []

/-- The parts of a spelling are those of its anchor and its segments; where there are none, one part
stands in their place. -/
theorem split_toPath {l : Location} (h : ∀ s ∈ l.segments, IsStep s) :
    ∃ parts, split '/' l.toPath = l.anchor.parts ++ parts ∧
      (parts = l.segments ∨ l.segments = [] ∧ parts.length = 1) := by
  obtain ⟨anchor, segments⟩ := l
  cases segments with
  | nil => cases anchor <;> exact ⟨_, rfl, .inr ⟨rfl, rfl⟩⟩
  | cons s segments =>
    have inner := split_joinWith (List.cons_ne_nil s segments) fun part hpart => (h part hpart).2.2
    refine ⟨s :: segments, ?_, .inl rfl⟩
    rw [toPath_cons anchor (h s (List.mem_cons_self ..)).1]
    cases anchor with
    | relative => exact inner
    | root => exact congrArg ([] :: ·) inner
    | doubleRoot => exact congrArg ([] :: [] :: ·) inner

/-- The spelling of a location with segments ends with no slash. -/
theorem getLast?_toPath {l : Location} (h : ∀ s ∈ l.segments, IsStep s) (ne : l.segments ≠ []) :
    l.toPath.getLast? ≠ some '/' := by
  obtain ⟨anchor, segments⟩ := l
  obtain ⟨s, segments, rfl⟩ := List.exists_cons_of_ne_nil ne
  have filled := (h s (List.mem_cons_self ..)).1
  rw [toPath_cons anchor filled, List.getLast?_append_of_ne_nil _ (joinWith_ne_nil filled segments)]
  exact getLast?_joinWith h

/-- Where a segment stands among the parts of a spelling, with something behind it, it stands among
the segments of the location. -/
theorem split_toPath_eq_iff {l : Location} (h : ∀ s ∈ l.segments, IsStep s)
    {front tail : List Segment} {s : Segment} (filled : s ≠ []) (more : tail ≠ []) :
    split '/' l.toPath = front ++ s :: tail ↔
      ∃ before, front = l.anchor.parts ++ before ∧ l.segments = before ++ s :: tail := by
  obtain ⟨parts, spelled, found⟩ := split_toPath h
  have tailed := List.length_pos_iff.2 more
  rw [spelled]
  constructor
  · intro same
    have behind : ∃ before, front = l.anchor.parts ++ before ∧ parts = before ++ s :: tail := by
      rcases List.append_eq_append_iff.1 same with
        ⟨before, hfront, hparts⟩ | ⟨after, hslashes, hparts⟩
      · exact ⟨before, hfront, hparts⟩
      · cases after with
        | nil => exact ⟨[], by simp [hslashes], hparts.symm⟩
        | cons t after =>
          obtain ⟨rfl, -⟩ := List.cons.inj hparts
          have slash : s ∈ l.anchor.parts := by rw [hslashes]; simp
          obtain ⟨-, -, rfl⟩ := List.mem_map.1 slash
          exact absurd rfl filled
    obtain ⟨before, hfront, hparts⟩ := behind
    refine ⟨before, hfront, ?_⟩
    rcases found with rfl | ⟨-, single⟩
    · exact hparts
    · rw [hparts] at single
      simp at single
      omega
  · rintro ⟨before, rfl, hsegments⟩
    rcases found with rfl | ⟨none, -⟩
    · rw [hsegments, List.append_assoc]
    · rw [none] at hsegments
      exact absurd hsegments (by simp)

end RouteTrim.Path
