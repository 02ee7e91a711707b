import RouteTrim.Proofs.Purge.Pieces

/-!
# Cutting up to a border

A text that goes on behind a border is cut like the two texts on its sides, as long as no match
reaches over the border (`removeFrom_append`, `findFrom_append`). That is not the same as cutting a
piece that is skipped or cut as a whole: what the pattern does in front of the border is left open.
It rests on one fact about the search, that a text with more behind it has all the ends it had
before, in the same order (`ends_within`).
-/

set_option autoImplicit false

namespace RouteTrim.Purge

def Place.extend (rest : List Char) (place : Place) : Place :=
  ⟨place.behind, place.ahead ++ rest⟩

/-- A place lies in front of the last characters of a text or right where they begin. -/
def Place.isWithin (rest : List Char) (place : Place) : Bool :=
  rest.length ≤ place.ahead.length

theorem Place.isWithin_iff {rest : List Char} {place : Place} :
    place.isWithin rest = true ↔ rest.length ≤ place.ahead.length :=
  decide_eq_true_iff

namespace Pattern

/-! ## The ends within a part of a text -/

/-- An end lies no further from the end of the text than the place where the pattern starts. -/
theorem length_le_of_mem_ends {pattern : Pattern} {place last : Place}
    (h : last ∈ pattern.ends place) :
    last.ahead.length ≤ place.ahead.length := by
  obtain ⟨stretch, back, hahead, rfl, -⟩ := mem_ends.1 h
  rw [hahead, List.length_append]
  exact Nat.le_add_left _ _

theorem placesAlong_within (p : Char → Bool) (behind ahead rest : List Char) :
    (placesAlong p behind (ahead ++ rest)).filter (·.isWithin rest)
      = (placesAlong p behind ahead).map (·.extend rest) := by
  induction ahead generalizing behind with
  | nil =>
    -- Of the places in the rest only the first one counts.
    cases rest with
    | nil => rfl
    | cons c rest =>
      have beyond : ∀ last ∈ placesAlong p (c :: behind) rest, ¬ last.isWithin (c :: rest) = true := by
        intro last hlast
        obtain ⟨stretch, back, rfl, rfl, -⟩ := mem_placesAlong.1 hlast
        simp only [Place.isWithin_iff, List.length_cons, List.length_append]
        omega
      have first : Place.isWithin (c :: rest) ⟨behind, c :: rest⟩ = true := by simp [Place.isWithin]
      have places : placesAlong p behind (c :: rest)
          = ⟨behind, c :: rest⟩ :: (if p c then placesAlong p (c :: behind) rest else []) := rfl
      rw [List.nil_append, places, List.filter_cons_of_pos first]
      cases p c with
      | false => rfl
      | true => rw [if_pos rfl, List.filter_eq_nil_iff.2 beyond]; rfl
  | cons c ahead ih =>
    have here : Place.isWithin rest ⟨behind, c :: (ahead ++ rest)⟩ = true := by
      simp only [Place.isWithin_iff, List.length_cons, List.length_append]
      omega
    rw [List.cons_append, placesAlong, placesAlong, List.filter_cons_of_pos here, List.map_cons]
    split
    · exact congrArg _ (ih (c :: behind))
    · rfl

/-- With more text behind it a text keeps its ends, in their order. -/
theorem ends_within (pattern : Pattern) (place : Place) (rest : List Char) :
    (pattern.ends (place.extend rest)).filter (·.isWithin rest)
      = (pattern.ends place).map (·.extend rest) := by
  induction pattern generalizing place with
  | nothing => simp [ends, Place.extend, Place.isWithin]
  | one p =>
    obtain ⟨behind, ahead⟩ := place
    cases ahead with
    | nil =>
      cases rest with
      | nil => rfl
      | cons c rest =>
        simp only [Place.extend, ends, List.nil_append]
        split <;> simp [Place.isWithin]
    | cons c ahead =>
      simp only [Place.extend, ends, List.cons_append]
      split <;> simp [Place.isWithin]
  | both first second ihFirst ihSecond =>
    -- A first part that ends beyond the border has no end within it.
    have beyond (middle : Place) (h : middle.isWithin rest = false) :
        (second.ends middle).filter (·.isWithin rest) = [] := by
      refine List.filter_eq_nil_iff.2 fun last hlast hwithin => ?_
      have shorter := length_le_of_mem_ends hlast
      rw [Place.isWithin_iff] at hwithin
      rw [Place.isWithin, decide_eq_false_iff_not] at h
      omega
    have split (middles : List Place) :
        (middles.flatMap second.ends).filter (·.isWithin rest)
          = (middles.filter (·.isWithin rest)).flatMap fun middle =>
            (second.ends middle).filter (·.isWithin rest) := by
      induction middles with
      | nil => rfl
      | cons middle middles ih =>
        rw [List.flatMap_cons, List.filter_append, ih]
        cases hm : middle.isWithin rest with
        | false => rw [List.filter_cons_of_neg (by simp [hm]), beyond middle hm, List.nil_append]
        | true => rw [List.filter_cons_of_pos hm, List.flatMap_cons]
    rw [ends, ends, split, ihFirst, List.flatMap_map, List.map_flatMap]
    simp only [ihSecond]
  | either first second ihFirst ihSecond =>
    rw [ends, ends, List.filter_append, ihFirst, ihSecond, List.map_append]
  | many p =>
    rw [ends, ends, List.filter_reverse, List.map_reverse]
    exact congrArg _ (placesAlong_within ..)
  | few p => exact placesAlong_within ..
  | notBehind p =>
    obtain ⟨behind, ahead⟩ := place
    cases behind with
    | nil => simp [ends, Place.extend, Place.isWithin]
    | cons c behind =>
      simp only [Place.extend, ends]
      split <;> simp [Place.isWithin]

/-! ## Matches that stay in a part of a text -/

/-- No match that starts in a text reaches into the rest behind it. -/
def StaysIn (pattern : Pattern) (behind text rest : List Char) : Prop :=
  ∀ front back, text = front ++ back → back ≠ [] →
    ∀ last ∈ pattern.end? ⟨front.reverse ++ behind, back ++ rest⟩, last.isWithin rest = true

section Border

variable {pattern : Pattern} {behind text rest : List Char}

theorem StaysIn.tail {c : Char} (h : pattern.StaysIn behind (c :: text) rest) :
    pattern.StaysIn (c :: behind) text rest := by
  intro front back same hback last hlast
  refine h (c :: front) back (congrArg (c :: ·) same) hback last ?_
  rwa [List.reverse_cons, List.append_assoc]

theorem StaysIn.drop {front back : List Char} (h : pattern.StaysIn behind (front ++ back) rest) :
    pattern.StaysIn (front.reverse ++ behind) back rest := by
  induction front generalizing behind with
  | nil => exact h
  | cons c front ih =>
    have later := ih h.tail
    rwa [List.reverse_cons, List.append_assoc]

theorem IsSolid.end?_append (hsolid : pattern.IsSolid)
    (within : ∀ last ∈ pattern.end? ⟨behind, text ++ rest⟩, last.isWithin rest = true) :
    pattern.end? ⟨behind, text ++ rest⟩ = (pattern.end? ⟨behind, text⟩).map (·.extend rest) := by
  have same := pattern.ends_within ⟨behind, text⟩ rest
  rw [hsolid.end?_eq] at within ⊢
  rw [hsolid.end?_eq, ← List.head?_map, ← same]
  show _ = ((pattern.ends ⟨behind, text ++ rest⟩).filter _).head?
  cases hends : pattern.ends ⟨behind, text ++ rest⟩ with
  | nil => rfl
  | cons last others => rw [List.filter_cons_of_pos (within last (by rw [hends]; rfl))]; rfl

/-- **A text is cut on both sides of a border** as the two parts are, if no match reaches over
it. -/
theorem removeFrom_append {pattern : Pattern} {behind text rest : List Char}
    (hsolid : pattern.IsSolid)
    (stays : pattern.StaysIn behind text rest) :
    pattern.removeFrom ⟨behind, text ++ rest⟩
      = pattern.removeFrom ⟨behind, text⟩ ++ pattern.removeFrom ⟨text.reverse ++ behind, rest⟩ := by
  by_cases hnil : text = []
  · subst hnil
    rw [removeFrom_nil]
    rfl
  have here : pattern.end? ⟨behind, text ++ rest⟩ = _ :=
    hsolid.end?_append (stays [] text rfl hnil)
  cases hend : pattern.end? ⟨behind, text⟩ with
  | some last =>
    obtain ⟨stretch, back, hahead, rfl, -⟩ := of_end?_eq_some hend
    obtain rfl : text = stretch ++ back := hahead
    have shorter : back.length < (stretch ++ back).length := end?_shorter hend
    have alone : pattern.Cuts behind stretch back := hend
    have continued : pattern.Cuts behind stretch (back ++ rest) := by
      rw [hend, List.append_assoc] at here
      exact here
    rw [alone.removeFrom, List.append_assoc, continued.removeFrom, removeFrom_append hsolid stays.drop,
      List.reverse_append, List.append_assoc]
  | none =>
    rw [hend] at here
    obtain ⟨c, text, rfl⟩ := List.exists_cons_of_ne_nil hnil
    have skip (ahead : List Char) (h : pattern.end? ⟨behind, c :: ahead⟩ = none) :
        pattern.removeFrom ⟨behind, c :: ahead⟩ = c :: pattern.removeFrom ⟨c :: behind, ahead⟩ := by
      rw [Pattern.removeFrom.eq_def]
      split
      · next last hlast => exact absurd (hlast.symm.trans h) (by simp)
      · rfl
    rw [List.cons_append, skip text hend, skip (text ++ rest) here,
      removeFrom_append hsolid stays.tail, List.cons_append, List.reverse_cons, List.append_assoc]
    rfl
termination_by text.length

theorem findFrom_append (hsolid : pattern.IsSolid) (stays : pattern.StaysIn behind text rest) :
    pattern.findFrom behind (text ++ rest)
      = ((pattern.findFrom behind text).map fun found => (found.1.extend rest, found.2.extend rest)).or
        (pattern.findFrom (text.reverse ++ behind) rest) := by
  induction text generalizing behind with
  | nil =>
    have none_ : pattern.findFrom behind [] = none :=
      (hsolid.findFrom_eq_none behind []).2 fun h => hsolid behind (occursFrom_nil.1 h)
    rw [none_]
    rfl
  | cons c text ih =>
    have here : pattern.end? ⟨behind, c :: (text ++ rest)⟩
        = (pattern.end? ⟨behind, c :: text⟩).map (·.extend rest) :=
      hsolid.end?_append (stays [] (c :: text) rfl (by simp))
    rw [List.cons_append, findFrom, findFrom, here]
    cases hend : pattern.end? ⟨behind, c :: text⟩ with
    | some last => rfl
    | none =>
      rw [List.reverse_cons, List.append_assoc]
      exact ih stays.tail

end Border

end Pattern

end RouteTrim.Purge
