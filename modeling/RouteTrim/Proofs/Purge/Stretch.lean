import RouteTrim.Purge.Pattern

/-!
# What a pattern describes

`Pattern.ends` computes with places and prefers one end over another. Here a pattern is read as a
set of stretches: `Describes` says which texts it stands for, given what lies in front of them, and
`mem_ends` that the places it may end at are exactly the ends of those. Cutting is then understood
without its search: a text is left as it is if and only if nothing in it is described
(`removeAll_eq_self`, `removeFirst_eq_self`), and what is left of any text is a part of it.
-/

set_option autoImplicit false

namespace RouteTrim.Purge.Pattern

/-- The stretches of text that a pattern stands for. The characters in front matter to `notBehind`
alone; as in a `Place`, the nearest one comes first. -/
def Describes : Pattern → List Char → List Char → Prop
  | nothing, _, stretch => stretch = []
  | one p, _, stretch => ∃ c, p c = true ∧ stretch = [c]
  | both first second, behind, stretch =>
    ∃ front back, first.Describes behind front ∧ second.Describes (front.reverse ++ behind) back
      ∧ stretch = front ++ back
  | either first second, behind, stretch =>
    first.Describes behind stretch ∨ second.Describes behind stretch
  | many p, _, stretch => ∀ c ∈ stretch, p c = true
  | few p, _, stretch => ∀ c ∈ stretch, p c = true
  | notBehind p, behind, stretch => stretch = [] ∧ ∀ c ∈ behind.head?, p c = false

theorem Describes.of_append {pattern : Pattern} {front behind stretch : List Char}
    (h : pattern.Describes (front ++ behind) stretch) : pattern.Describes front stretch := by
  induction pattern generalizing front stretch with
  | nothing | one _ | many _ | few _ => exact h
  | both first second ihFirst ihSecond =>
    obtain ⟨head, tail, hhead, htail, rfl⟩ := h
    rw [← List.append_assoc] at htail
    exact ⟨head, tail, ihFirst hhead, ihSecond htail, rfl⟩
  | either first second ihFirst ihSecond => exact h.imp ihFirst ihSecond
  | notBehind p =>
    refine ⟨h.1, fun c hc => h.2 c ?_⟩
    rw [List.head?_append, Option.mem_def.1 hc]
    rfl

/-- Somewhere ahead of a place there is a stretch that a pattern stands for. -/
def OccursFrom (pattern : Pattern) (place : Place) : Prop :=
  ∃ front stretch back, place.ahead = front ++ stretch ++ back
    ∧ pattern.Describes (front.reverse ++ place.behind) stretch

/-- Somewhere in a text there is a stretch that a pattern stands for. -/
def Occurs (pattern : Pattern) (text : List Char) : Prop :=
  pattern.OccursFrom (.start text)

/-- A pattern that stands for no empty stretch. -/
def IsSolid (pattern : Pattern) : Prop :=
  ∀ behind, ¬ pattern.Describes behind []

/-! ## The places where a pattern ends -/

theorem mem_placesAlong {p : Char → Bool} {last : Place} {behind ahead : List Char} :
    last ∈ placesAlong p behind ahead ↔
      ∃ stretch back, ahead = stretch ++ back ∧ last = ⟨stretch.reverse ++ behind, back⟩
        ∧ ∀ c ∈ stretch, p c = true := by
  induction ahead generalizing behind with
  | nil => simp [placesAlong, and_assoc]
  | cons c ahead ih =>
    constructor
    · intro h
      rw [placesAlong, List.mem_cons] at h
      rcases h with rfl | h
      · exact ⟨[], c :: ahead, rfl, rfl, by simp⟩
      · cases hc : p c with
        | false => simp [hc] at h
        | true =>
          rw [hc, if_pos rfl] at h
          obtain ⟨stretch, back, rfl, rfl, hs⟩ := ih.1 h
          exact ⟨c :: stretch, back, rfl, by simp, by simpa [hc] using hs⟩
    · rintro ⟨stretch, back, hahead, rfl, hs⟩
      rw [placesAlong, List.mem_cons]
      cases stretch with
      | nil => exact .inl (by simp [hahead])
      | cons d stretch =>
        rw [List.cons_append, List.cons.injEq] at hahead
        obtain ⟨rfl, rfl⟩ := hahead
        rw [if_pos (hs c (by simp))]
        exact .inr (ih.2 ⟨stretch, back, rfl, by simp, fun d hd => hs d (by simp [hd])⟩)

theorem eq_place_iff (place last : Place) (holds : Prop) :
    last = place ∧ holds ↔
      ∃ stretch back, place.ahead = stretch ++ back ∧ last = ⟨stretch.reverse ++ place.behind, back⟩
        ∧ stretch = [] ∧ holds := by
  constructor
  · rintro ⟨rfl, h⟩
    exact ⟨[], last.ahead, rfl, rfl, rfl, h⟩
  · rintro ⟨_, back, hahead, rfl, rfl, h⟩
    exact ⟨congrArg (Place.mk place.behind) hahead.symm, h⟩

theorem mem_ends {pattern : Pattern} {place last : Place} :
    last ∈ pattern.ends place ↔
      ∃ stretch back, place.ahead = stretch ++ back ∧ last = ⟨stretch.reverse ++ place.behind, back⟩
        ∧ pattern.Describes place.behind stretch := by
  induction pattern generalizing place last with
  | nothing =>
    rw [ends, List.mem_singleton]
    have here := eq_place_iff place last True
    simp only [and_true] at here
    exact here
  | one p =>
    obtain ⟨behind, ahead⟩ := place
    cases ahead with
    | nil => simp [ends, Describes]
    | cons c ahead =>
      have hends : (one p).ends ⟨behind, c :: ahead⟩ = if p c then [⟨c :: behind, ahead⟩] else [] :=
        rfl
      rw [hends]
      constructor
      · intro h
        cases hc : p c with
        | false => simp [hc] at h
        | true =>
          rw [hc, if_pos rfl, List.mem_singleton] at h
          exact ⟨[c], ahead, rfl, h, c, hc, rfl⟩
      · rintro ⟨_, back, hahead, rfl, d, hd, rfl⟩
        obtain ⟨rfl, rfl⟩ := List.cons.inj hahead
        simp [hd]
  | both first second ihFirst ihSecond =>
    rw [ends, List.mem_flatMap]
    constructor
    · rintro ⟨middle, hmiddle, hlast⟩
      obtain ⟨front, rest, hahead, rfl, hfront⟩ := ihFirst.1 hmiddle
      obtain ⟨back, after, hrest, rfl, hback⟩ := ihSecond.1 hlast
      refine ⟨front ++ back, after, ?_, by simp, front, back, hfront, hback, rfl⟩
      rw [hahead, List.append_assoc, ← hrest]
    · rintro ⟨_, after, hahead, rfl, front, back, hfront, hback, rfl⟩
      rw [List.append_assoc] at hahead
      exact ⟨_, ihFirst.2 ⟨front, back ++ after, hahead, rfl, hfront⟩,
        ihSecond.2 ⟨back, after, rfl, by simp, hback⟩⟩
  | either first second ihFirst ihSecond =>
    rw [ends, List.mem_append, ihFirst, ihSecond]
    constructor
    · rintro (⟨stretch, back, hahead, hlast, h⟩ | ⟨stretch, back, hahead, hlast, h⟩)
      · exact ⟨stretch, back, hahead, hlast, .inl h⟩
      · exact ⟨stretch, back, hahead, hlast, .inr h⟩
    · rintro ⟨stretch, back, hahead, hlast, h | h⟩
      · exact .inl ⟨stretch, back, hahead, hlast, h⟩
      · exact .inr ⟨stretch, back, hahead, hlast, h⟩
  | many p => rw [ends, List.mem_reverse]; exact mem_placesAlong
  | few p => exact mem_placesAlong
  | notBehind p =>
    have hends : last ∈ (notBehind p).ends place ↔
        last = place ∧ ∀ c ∈ place.behind.head?, p c = false := by
      obtain ⟨behind, ahead⟩ := place
      rw [ends.eq_def]
      cases behind with
      | nil => simp
      | cons c behind => cases hc : p c <;> simp [hc]
    exact hends.trans (eq_place_iff place last _)

theorem IsSolid.end?_eq {pattern : Pattern} (hsolid : pattern.IsSolid) (place : Place) :
    pattern.end? place = (pattern.ends place).head? := by
  rw [end?]
  cases hhead : (pattern.ends place).head? with
  | none => rfl
  | some last =>
    obtain ⟨stretch, back, hahead, rfl, hs⟩ := mem_ends.1 (List.mem_of_mem_head? hhead)
    have hne : stretch ≠ [] := fun hnil => hsolid place.behind (hnil ▸ hs)
    have hpos := List.length_pos_iff.2 hne
    have shorter : back.length < place.ahead.length := by rw [hahead, List.length_append]; omega
    exact Option.filter_some_pos (decide_eq_true shorter)

theorem of_end?_eq_some {pattern : Pattern} {place last : Place}
    (h : pattern.end? place = some last) :
    ∃ stretch back, place.ahead = stretch ++ back ∧ last = ⟨stretch.reverse ++ place.behind, back⟩
      ∧ pattern.Describes place.behind stretch :=
  mem_ends.1 (List.mem_of_mem_head? (Option.filter_eq_some_iff.1 h).1)

theorem IsSolid.end?_eq_none {pattern : Pattern} (hsolid : pattern.IsSolid) {place : Place} :
    pattern.end? place = none ↔
      ∀ stretch back, place.ahead = stretch ++ back → ¬ pattern.Describes place.behind stretch := by
  rw [hsolid.end?_eq, List.head?_eq_none_iff, List.eq_nil_iff_forall_not_mem]
  constructor
  · intro h stretch back hahead hs
    exact h _ (mem_ends.2 ⟨stretch, back, hahead, rfl, hs⟩)
  · intro h last hlast
    obtain ⟨stretch, back, hahead, -, hs⟩ := mem_ends.1 hlast
    exact h stretch back hahead hs

/-! ## Cutting stretches out -/

theorem occursFrom_nil {pattern : Pattern} {behind : List Char} :
    pattern.OccursFrom ⟨behind, []⟩ ↔ pattern.Describes behind [] := by
  constructor
  · rintro ⟨front, stretch, back, hahead, hs⟩
    obtain ⟨⟨rfl, rfl⟩, -⟩ : (front = [] ∧ stretch = []) ∧ back = [] := by
      simpa [and_assoc] using hahead
    exact hs
  · intro hs
    exact ⟨[], [], [], rfl, hs⟩

theorem occursFrom_cons {pattern : Pattern} {behind ahead : List Char} {c : Char} :
    pattern.OccursFrom ⟨behind, c :: ahead⟩ ↔
      (∃ stretch back, c :: ahead = stretch ++ back ∧ pattern.Describes behind stretch)
        ∨ pattern.OccursFrom ⟨c :: behind, ahead⟩ := by
  constructor
  · rintro ⟨front, stretch, back, hahead, hs⟩
    cases front with
    | nil => exact .inl ⟨stretch, back, hahead, hs⟩
    | cons d front =>
      obtain ⟨rfl, hrest⟩ : c = d ∧ ahead = front ++ stretch ++ back := List.cons.inj hahead
      exact .inr ⟨front, stretch, back, hrest, by simpa using hs⟩
  · rintro (⟨stretch, back, hahead, hs⟩ | ⟨front, stretch, back, hahead, hs⟩)
    · exact ⟨[], stretch, back, hahead, hs⟩
    · exact ⟨c :: front, stretch, back, congrArg (c :: ·) hahead, by simpa using hs⟩

theorem removeFrom_sublist (pattern : Pattern) (place : Place) :
    (pattern.removeFrom place).Sublist place.ahead := by
  fun_induction removeFrom pattern place with
  | case1 place last hlast ih =>
    obtain ⟨stretch, back, hahead, rfl, -⟩ := of_end?_eq_some hlast
    rw [hahead]
    exact ih.trans (List.sublist_append_right stretch back)
  | case2 place hnone hnil => simp [hnil]
  | case3 place hnone c ahead hcons ih =>
    rw [hcons]
    exact ih.cons_cons c

theorem IsSolid.removeFrom_eq_self {pattern : Pattern} (hsolid : pattern.IsSolid) (place : Place) :
    pattern.removeFrom place = place.ahead ↔ ¬ pattern.OccursFrom place := by
  fun_induction removeFrom pattern place with
  | case1 place last hlast ih =>
    obtain ⟨stretch, back, hahead, -, hs⟩ := of_end?_eq_some hlast
    have shorter := end?_shorter hlast
    have hle := (removeFrom_sublist pattern last).length_le
    refine iff_of_false (fun heq => ?_) (not_not_intro ⟨[], stretch, back, hahead, hs⟩)
    rw [heq] at hle
    omega
  | case2 place hnone hnil =>
    obtain ⟨behind, ahead⟩ := place
    subst hnil
    exact iff_of_true rfl fun h => hsolid behind (occursFrom_nil.1 h)
  | case3 place hnone c ahead hcons ih =>
    obtain ⟨behind, ahead'⟩ := place
    subst hcons
    have none_here : ¬ ∃ stretch back, c :: ahead = stretch ++ back
        ∧ pattern.Describes behind stretch :=
      fun ⟨stretch, back, hahead, hs⟩ => hsolid.end?_eq_none.1 hnone stretch back hahead hs
    rw [occursFrom_cons, or_iff_right none_here, ← ih, List.cons_inj_right]

theorem removeAll_sublist (pattern : Pattern) (text : List Char) :
    (pattern.removeAll text).Sublist text :=
  removeFrom_sublist pattern (.start text)

/-- Cutting every stretch changes a text if and only if there is one to cut. -/
theorem IsSolid.removeAll_eq_self {pattern : Pattern} (hsolid : pattern.IsSolid)
    (text : List Char) : pattern.removeAll text = text ↔ ¬ pattern.Occurs text :=
  hsolid.removeFrom_eq_self (.start text)

theorem findFrom_eq_some {pattern : Pattern} {behind ahead : List Char} {first last : Place}
    (h : pattern.findFrom behind ahead = some (first, last)) :
    ∃ front stretch, ahead = front ++ stretch ++ last.ahead
      ∧ first = ⟨front.reverse ++ behind, stretch ++ last.ahead⟩
      ∧ pattern.Describes first.behind stretch := by
  fun_induction findFrom pattern behind ahead with
  | case1 behind =>
    obtain ⟨last', hlast, heq⟩ := Option.map_eq_some_iff.1 h
    obtain ⟨rfl, rfl⟩ := Prod.mk.inj heq
    obtain ⟨stretch, back, hahead, rfl, hs⟩ := of_end?_eq_some hlast
    exact ⟨[], stretch, hahead, congrArg (Place.mk behind) hahead, hs⟩
  | case2 behind c ahead last' hlast =>
    obtain ⟨rfl, rfl⟩ := Prod.mk.inj (Option.some.inj h)
    obtain ⟨stretch, back, hahead, rfl, hs⟩ := of_end?_eq_some hlast
    exact ⟨[], stretch, hahead, congrArg (Place.mk behind) hahead, hs⟩
  | case3 behind c ahead hnone ih =>
    obtain ⟨front, stretch, rfl, rfl, hs⟩ := ih h
    exact ⟨c :: front, stretch, rfl, by simp, hs⟩

theorem IsSolid.findFrom_eq_none {pattern : Pattern} (hsolid : pattern.IsSolid)
    (behind ahead : List Char) :
    pattern.findFrom behind ahead = none ↔ ¬ pattern.OccursFrom ⟨behind, ahead⟩ := by
  fun_induction findFrom pattern behind ahead with
  | case1 behind =>
    rw [Option.map_eq_none_iff, hsolid.end?_eq_none, occursFrom_nil]
    simp
  | case2 behind c ahead last hlast =>
    obtain ⟨stretch, back, hahead, -, hs⟩ := of_end?_eq_some hlast
    exact iff_of_false (by simp) (not_not_intro ⟨[], stretch, back, hahead, hs⟩)
  | case3 behind c ahead hnone ih =>
    have none_here : ¬ ∃ stretch back, c :: ahead = stretch ++ back
        ∧ pattern.Describes behind stretch :=
      fun ⟨stretch, back, hahead, hs⟩ => hsolid.end?_eq_none.1 hnone stretch back hahead hs
    rw [occursFrom_cons, or_iff_right none_here, ih]

theorem IsSolid.find?_eq_none {pattern : Pattern} (hsolid : pattern.IsSolid) (text : List Char) :
    pattern.find? text = none ↔ ¬ pattern.Occurs text :=
  hsolid.findFrom_eq_none [] text

/-- What is found in a text is a part of it, and without it the text is a shorter one. -/
theorem IsSolid.of_find?_eq_some {pattern : Pattern} (hsolid : pattern.IsSolid) {text : List Char}
    {first last : Place} (h : pattern.find? text = some (first, last)) :
    pattern.Occurs text ∧ (first.behind.reverse ++ last.ahead).Sublist text
      ∧ (first.behind.reverse ++ last.ahead).length < text.length := by
  obtain ⟨front, stretch, htext, rfl, hs⟩ := findFrom_eq_some h
  have hne : stretch ≠ [] := fun hnil => hsolid _ (hnil ▸ hs)
  have hpos := List.length_pos_iff.2 hne
  rw [List.append_nil, List.reverse_reverse, htext]
  refine ⟨⟨front, stretch, last.ahead, rfl, hs⟩, ?_, ?_⟩
  · exact (List.sublist_append_left front stretch).append_right last.ahead
  · simp only [List.length_append]
    omega

theorem IsSolid.removeFirst_sublist {pattern : Pattern} (hsolid : pattern.IsSolid)
    (text : List Char) : (pattern.removeFirst text).Sublist text := by
  rw [removeFirst]
  split
  · next hfind => exact (hsolid.of_find?_eq_some hfind).2.1
  · exact List.Sublist.refl text

/-- Cutting the first stretch changes a text if and only if there is one to cut. -/
theorem IsSolid.removeFirst_eq_self {pattern : Pattern} (hsolid : pattern.IsSolid)
    (text : List Char) : pattern.removeFirst text = text ↔ ¬ pattern.Occurs text := by
  rw [removeFirst]
  split
  · next hfind =>
    obtain ⟨hoccurs, -, shorter⟩ := hsolid.of_find?_eq_some hfind
    exact iff_of_false (fun heq => by rw [heq] at shorter; omega) (not_not_intro hoccurs)
  · next hfind => exact iff_of_true rfl ((hsolid.find?_eq_none text).1 hfind)

/-! ## Cutting by several patterns -/

theorem foldl_removeAll_sublist (patterns : List Pattern) (text : List Char) :
    (patterns.foldl (fun text pattern => pattern.removeAll text) text).Sublist text := by
  induction patterns generalizing text with
  | nil => exact List.Sublist.refl text
  | cons pattern patterns ih => exact (ih _).trans (removeAll_sublist pattern text)

theorem foldl_removeAll_eq_self {patterns : List Pattern} (hsolid : ∀ p ∈ patterns, p.IsSolid)
    (text : List Char) :
    patterns.foldl (fun text pattern => pattern.removeAll text) text = text ↔
      ∀ p ∈ patterns, ¬ p.Occurs text := by
  induction patterns generalizing text with
  | nil => simp
  | cons pattern patterns ih =>
    have hsolid' := List.forall_mem_cons.1 hsolid
    rw [List.foldl_cons, List.forall_mem_cons, ← hsolid'.1.removeAll_eq_self text]
    constructor
    · intro heq
      -- Each cut leaves a part of what it is given, so all of them leave everything.
      have hle := (foldl_removeAll_sublist patterns (pattern.removeAll text)).length_le
      rw [heq] at hle
      have whole := (removeAll_sublist pattern text).eq_of_length_le hle
      rw [whole] at heq
      exact ⟨whole, (ih hsolid'.2 text).1 heq⟩
    · rintro ⟨whole, hrest⟩
      rw [whole]
      exact (ih hsolid'.2 text).2 hrest

/-! ## The common patterns -/

/-- What may end in an empty stretch can be left out of the search. -/
theorem occurs_append_iff {first second : Pattern}
    (hempty : ∀ behind, second.Describes behind []) (text : List Char) :
    (first ++ second).Occurs text ↔ first.Occurs text := by
  constructor
  · rintro ⟨front, _, back, htext, stretch, more, hs, -, rfl⟩
    exact ⟨front, stretch, more ++ back, by simpa using htext, hs⟩
  · rintro ⟨front, stretch, back, htext, hs⟩
    exact ⟨front, stretch, back, htext, stretch, [], hs, hempty _, (List.append_nil _).symm⟩

theorem describes_append_assoc {first second third : Pattern} {behind stretch : List Char} :
    (first ++ (second ++ third)).Describes behind stretch ↔
      (first ++ second ++ third).Describes behind stretch := by
  constructor
  · rintro ⟨front, _, hfront, ⟨middle, back, hmiddle, hback, rfl⟩, rfl⟩
    exact ⟨front ++ middle, back, ⟨front, middle, hfront, hmiddle, rfl⟩, by simpa using hback,
      by simp⟩
  · rintro ⟨_, back, ⟨front, middle, hfront, hmiddle, rfl⟩, hback, rfl⟩
    exact ⟨front, middle ++ back, hfront, ⟨middle, back, hmiddle, by simpa using hback, rfl⟩,
      by simp⟩

@[simp] theorem describes_append {first second : Pattern} {behind stretch : List Char} :
    (first ++ second).Describes behind stretch ↔
      ∃ front back, first.Describes behind front ∧ second.Describes (front.reverse ++ behind) back
        ∧ stretch = front ++ back :=
  Iff.rfl

@[simp] theorem describes_exactly {text behind stretch : List Char} :
    (exactly text).Describes behind stretch ↔ stretch = text := by
  induction text generalizing behind stretch with
  | nil => exact Iff.rfl
  | cons c text ih => simp [exactly, ih, Describes]

@[simp] theorem describes_literal {text : String} {behind stretch : List Char} :
    (literal text).Describes behind stretch ↔ stretch = text.toList :=
  describes_exactly

@[simp] theorem describes_many {p : Char → Bool} {behind stretch : List Char} :
    (many p).Describes behind stretch ↔ ∀ c ∈ stretch, p c = true :=
  Iff.rfl

@[simp] theorem describes_blanks {behind stretch : List Char} :
    blanks.Describes behind stretch ↔ ∀ c ∈ stretch, Text.isBlank c = true :=
  Iff.rfl

@[simp] theorem describes_nameStart {behind stretch : List Char} :
    nameStart.Describes behind stretch ↔
      stretch = [] ∧ ∀ c ∈ behind.head?, continuesName c = false :=
  Iff.rfl

@[simp] theorem describes_oneOrMore {p : Char → Bool} {behind stretch : List Char} :
    (oneOrMore p).Describes behind stretch ↔ stretch ≠ [] ∧ ∀ c ∈ stretch, p c = true := by
  constructor
  · rintro ⟨_, more, ⟨c, hc, rfl⟩, hmore, rfl⟩
    exact ⟨by simp, by simpa [hc] using hmore⟩
  · rintro ⟨hne, hs⟩
    obtain ⟨c, more, rfl⟩ := List.exists_cons_of_ne_nil hne
    have hs' := List.forall_mem_cons.1 hs
    exact ⟨[c], more, ⟨c, hs'.1, rfl⟩, hs'.2, rfl⟩

@[simp] theorem describes_inQuotes {text : String} {behind stretch : List Char} :
    (inQuotes text).Describes behind stretch ↔
      ∃ quote, (quote = '\'' ∨ quote = '"') ∧ stretch = quote :: text.toList ++ [quote] := by
  simp [inQuotes, Describes]

theorem describes_maybe_nil (pattern : Pattern) (behind : List Char) :
    (maybe pattern).Describes behind [] :=
  .inr rfl

theorem describes_statementEnd_nil (behind : List Char) : statementEnd.Describes behind [] :=
  ⟨[], [], ⟨[], [], by simp [spaces], describes_maybe_nil _ _, rfl⟩,
    ⟨[], [], by simp [spaces], describes_maybe_nil _ _, rfl⟩, rfl⟩

/-! ## Solid patterns -/

theorem IsSolid.append_left {first : Pattern} (hfirst : first.IsSolid) (second : Pattern) :
    (first ++ second).IsSolid := by
  rintro behind ⟨front, back, hfront, -, hnil⟩
  obtain ⟨rfl, -⟩ := List.append_eq_nil_iff.1 hnil.symm
  exact hfirst behind hfront

theorem IsSolid.append_right (first : Pattern) {second : Pattern} (hsecond : second.IsSolid) :
    (first ++ second).IsSolid := by
  rintro behind ⟨front, back, -, hback, hnil⟩
  obtain ⟨-, rfl⟩ := List.append_eq_nil_iff.1 hnil.symm
  exact hsecond _ hback

theorem isSolid_literal {text : String} (hne : text.toList ≠ []) : (literal text).IsSolid :=
  fun _ h => hne (describes_literal.1 h).symm

theorem isSolid_oneOrMore (p : Char → Bool) : (oneOrMore p).IsSolid :=
  fun _ h => (describes_oneOrMore.1 h).1 rfl

theorem isSolid_inQuotes (text : String) : (inQuotes text).IsSolid := by
  intro behind h
  obtain ⟨quote, -, hnil⟩ := describes_inQuotes.1 h
  simp at hnil

end RouteTrim.Purge.Pattern
