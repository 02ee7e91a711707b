import RouteTrim.Proofs.Purge.Border
import RouteTrim.Proofs.Purge.Usage

/-!
# Names and references in a text

A word is mentioned where it stands as a whole name (`Mentions`), and a module is referred to where
a name of it stands behind its alias and a dot (`Refers`). What the rewrites of lists look for
begins with the one or the other, so a text without it is skipped, as long as what follows the text
does not go on with a name (`skips_listedClass`, `skips_freeQualified`).
-/

set_option autoImplicit false

namespace RouteTrim.Purge

open Pattern
open RouteTrim.Text (isBlank)

/-- A word stands in a text as a whole name that belongs to nothing in front of it. -/
def Mentions (word text : List Char) : Prop :=
  ∃ front back, text = front ++ (word ++ back) ∧ (∀ c ∈ front.getLast?, continuesName c = false)
    ∧ ∀ c ∈ back.head?, isNameChar c = false

theorem not_mentions_of_absent {word text : List Char}
    (h : ¬ word <:+: text) : ¬ Mentions word text := by
  rintro ⟨front, back, rfl, -, -⟩
  exact h ⟨front, back, List.append_assoc ..⟩

/-- A name of the module with an alias stands in a text, behind the alias and a dot. -/
def Refers (moduleAlias text : List Char) : Prop :=
  ∃ front c back, text = front ++ (moduleAlias ++ '.' :: c :: back)
    ∧ (∀ c ∈ front.getLast?, continuesName c = false) ∧ isNameChar c = true

theorem describes_freeQualified {moduleAlias behind stretch : List Char} :
    (freeQualified moduleAlias).Describes behind stretch ↔
      (∀ c ∈ behind.head?, continuesName c = false)
        ∧ ∃ className, stretch = moduleAlias ++ '.' :: className ∧ IsName className := by
  constructor
  · rintro ⟨_, back, ⟨rfl, start⟩, hqualified, rfl⟩
    exact ⟨start, describes_qualified.1 hqualified⟩
  · rintro ⟨start, hqualified⟩
    exact ⟨[], stretch, ⟨rfl, start⟩, describes_qualified.2 hqualified, rfl⟩

theorem refers_iff_occurs {moduleAlias text : List Char} :
    Refers moduleAlias text ↔ (freeQualified moduleAlias).Occurs text := by
  constructor
  · rintro ⟨front, c, back, rfl, start, hc⟩
    refine ⟨front, moduleAlias ++ ['.', c], back, by simp [Place.start], describes_freeQualified.2
      ⟨by simpa [Place.start] using start, [c], rfl, by simp, by simpa using hc⟩⟩
  · rintro ⟨front, stretch, back, same, hs⟩
    obtain ⟨start, className, rfl, hname⟩ := describes_freeQualified.1 hs
    obtain ⟨c, className, rfl⟩ := List.exists_cons_of_ne_nil hname.1
    exact ⟨front, c, className ++ back, by simpa [Place.start] using same,
      by simpa [Place.start] using start, hname.2 c (by simp)⟩

theorem isSolid_freeQualified (moduleAlias : List Char) : (freeQualified moduleAlias).IsSolid :=
  ((isSolid_oneOrMore isNameChar).append_right _).append_right _

instance (moduleAlias text : List Char) : Decidable (Refers moduleAlias text) :=
  decidable_of_iff ((freeQualified moduleAlias).find? text ≠ none) <| by
    rw [ne_eq, (isSolid_freeQualified moduleAlias).find?_eq_none,
      Classical.not_not, refers_iff_occurs]

/-! ## Texts without a name are skipped -/

theorem continuesName_of_isBlank {c : Char} (h : isBlank c = true) : continuesName c = false := by
  have dot : c ≠ '.' := by rintro rfl; exact absurd h (by decide)
  simp [continuesName, isNameChar_of_isBlank h, dot]

theorem start_behind_gap {mark : Char} {gap : List Char} (hmark : continuesName mark = false)
    (hgap : IsGap gap) (behind : List Char) :
    ∀ c ∈ ((mark :: gap).reverse ++ behind).head?, continuesName c = false := by
  rcases gap.eq_nil_or_concat with rfl | ⟨gap, d, rfl⟩
  · exact fun c hc => Option.some.inj hc ▸ hmark
  · have last : ((mark :: gap.concat d).reverse ++ behind).head? = some d := by simp
    exact fun c hc => Option.some.inj (last.symm.trans hc) ▸ continuesName_of_isBlank (hgap d (by simp))

/-- A pattern is skipped by a text that holds none of the characters that it may begin with. -/
theorem skips_of_head {pattern : Pattern} {p : Char → Bool} {piece rest : List Char}
    (shape : ∀ behind stretch, pattern.Describes behind stretch → ∃ c ∈ stretch.head?, p c = true)
    (none_ : ∀ c ∈ piece, p c = false) (behind : List Char) : pattern.Skips behind piece rest := by
  rintro front back rfl hback stretch more ahead hs
  obtain ⟨c, hc, first⟩ := shape _ stretch hs
  obtain ⟨stretch, rfl⟩ := List.head?_eq_some_iff.1 hc
  obtain ⟨d, back, rfl⟩ := List.exists_cons_of_ne_nil hback
  obtain rfl : d = c := (List.cons.inj ahead).1
  exact absurd first (by simp [none_ d (by simp)])

/-- What consists of characters of a kind does not go on behind a text that is followed by another
kind. -/
theorem prefix_of_border {p : Char → Prop} {word text rest more : List Char}
    (hword : ∀ c ∈ word, p c) (border : ∀ c ∈ rest.head?, ¬ p c)
    (same : text ++ rest = word ++ more) :
    ∃ back, text = word ++ back ∧ more = back ++ rest := by
  rcases List.append_eq_append_iff.1 same with ⟨m, rfl, hrest⟩ | ⟨m, rfl, rfl⟩
  · cases m with
    | nil => exact ⟨[], by simp, by simpa using hrest.symm⟩
    | cons c m => exact absurd (hword c (by simp)) (border c (by rw [hrest]; rfl))
  · exact ⟨m, rfl, rfl⟩

section Skipped

variable {piece rest : List Char}

theorem head?_reverse_of_getLast? {p : Char → Prop} {front behind : List Char}
    (h : ∀ c ∈ (front.reverse ++ behind).head?, p c) : ∀ c ∈ front.getLast?, p c := by
  intro c hc
  refine h c ?_
  rw [List.head?_append, List.head?_reverse, Option.mem_def.1 hc]
  rfl

theorem skips_listedClass {className : String} (hname : IsName className.toList)
    (unmentioned : ¬ Mentions className.toList piece)
    (border : ∀ c ∈ rest.head?, isNameChar c = false)
    (behind : List Char) : (listedClass className).Skips behind piece rest := by
  rintro front back rfl hback stretch more same hs
  obtain ⟨_, gap', ⟨_, _, ⟨_, gap, ⟨_, _, ⟨rfl, start⟩, hword, rfl⟩, hgap, rfl⟩,
    hcomma, rfl⟩, -, rfl⟩ := hs
  obtain rfl := describes_literal.1 hword
  obtain rfl := describes_literal.1 hcomma
  simp only [List.append_assoc] at same
  obtain ⟨back, rfl, hmore⟩ := prefix_of_border (p := fun c => isNameChar c = true) hname.2
    (fun c hc => by simp [border c hc]) same
  refine unmentioned ⟨front, back, rfl, head?_reverse_of_getLast? start, fun c hc => ?_⟩
  -- Behind the name stands a blank or the comma.
  have next : c ∈ (gap ++ (",".toList ++ (gap' ++ more))).head? := by
    rw [hmore, List.head?_append, Option.mem_def.1 hc]
    rfl
  cases gap with
  | nil => exact Option.some.inj next ▸ by decide
  | cons d gap => exact Option.some.inj next ▸ isNameChar_of_isBlank (hgap d (by simp))

theorem skips_freeQualified {moduleAlias : List Char} {pattern : Pattern}
    (hname : IsName moduleAlias)
    (shape : ∀ behind stretch, pattern.Describes behind stretch →
      ∃ front back, stretch = front ++ back ∧ (freeQualified moduleAlias).Describes behind front)
    (unused : ¬ Refers moduleAlias piece) (border : ∀ c ∈ rest.head?, continuesName c = false)
    (behind : List Char) : pattern.Skips behind piece rest := by
  rintro front back rfl hback stretch more same hs
  obtain ⟨head, tail, rfl, hhead⟩ := shape _ stretch hs
  obtain ⟨start, className, rfl, hclass⟩ := describes_freeQualified.1 hhead
  obtain ⟨c, className, rfl⟩ := List.exists_cons_of_ne_nil hclass.1
  have hc := hclass.2 c (by simp)
  have continues : ∀ d ∈ moduleAlias ++ ['.', c], continuesName d = true := by
    intro d hd
    simp only [List.mem_append, List.mem_cons, List.not_mem_nil, or_false] at hd
    rcases hd with hd | rfl | rfl
    · simp [continuesName, hname.2 d hd]
    · decide
    · simp [continuesName, hc]
  have same : back ++ rest = moduleAlias ++ ['.', c] ++ (className ++ tail ++ more) := by
    simpa using same
  obtain ⟨back, rfl, -⟩ := prefix_of_border continues (fun d hd => by simp [border d hd]) same
  exact unused ⟨front, c, back, by simp, head?_reverse_of_getLast? start, hc⟩

end Skipped

end RouteTrim.Purge
