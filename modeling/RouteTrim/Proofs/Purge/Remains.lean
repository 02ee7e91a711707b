import RouteTrim.Proofs.Purge.Shape

/-!
# What remains of a controller

The import of a controller's module goes whatever else a factory holds, and with it go the
accessors, constructions, lookups and fields that name the module. Here the rest of a factory is
read as a row of such code and of other text (`IsRow`). Code may stand anywhere in a line, as long
as each pass takes the code of its kind as a whole when its turn comes, and skips the other text and
the code of later kinds. So the other text is what remains; and if no names meet where code is taken
out, a class of the module or a field of the factory is named in what remains if and only if it is
named in the other text (`withoutController_row`). A class in a list and a field that another
service takes are other text: they are left without what they name (`withoutController_dangles`).
-/

set_option autoImplicit false

namespace RouteTrim.Purge

open Pattern
open RouteTrim.Path (WorkingFolder)
open RouteTrim.Text (isBlank)

/-! ## Rows -/

/-- A part of a factory: other text, or code of some kind of the service that is purged. -/
inductive Chunk where
  | other (text : List Char)
  | code (part : Part) (text : List Char)

/-- The turn of a kind of code in the order of the passes. -/
def Part.turn : Part → Nat
  | accessor => 0
  | statement => 1
  | lookup => 2
  | field => 3

namespace Chunk

/-- The text of a chunk. -/
def chars : Chunk → List Char
  | other text => text
  | code _ text => text

/-- The other text that a chunk is. -/
def other? : Chunk → Option (List Char)
  | other text => some text
  | code _ _ => none

/-- Whether a chunk is still there when a turn comes. -/
def isLeft (turn : Nat) : Chunk → Bool
  | other _ => true
  | code part _ => turn ≤ part.turn

end Chunk

/-- The chunks that are still there when a turn comes. -/
def leftAt (turn : Nat) (row : List Chunk) : List Chunk :=
  row.filter (·.isLeft turn)

/-- What remains of a row: its other text. -/
def remains (row : List Chunk) : List Char :=
  (row.filterMap Chunk.other?).flatten

/-- A pass has a chunk right. It skips other text. Code of its kind it takes as a whole: the code
goes up to the end of its line or of its part of the line, and an accessor does not stand behind a
name. Code of a later kind does not lend its spaces to something that the pass takes. -/
def Chunk.Fits (moduleAlias : List Char) (part : Part) (behind rest : List Char) : Chunk → Prop
  | .other text => (part.pattern moduleAlias).Skips behind text rest
  | .code kind text =>
    if kind = part then
      ((∀ c ∈ behind.head?, continuesName c = false) ∨ StartsBlank text ∨ part ≠ .accessor)
        ∧ EndsLine text rest
    else
      (∀ c ∈ text.getLast?, isSpace c = false)
        ∨ (part.pattern moduleAlias).ends ⟨text.reverse ++ behind, rest⟩ = []

def RowFits (moduleAlias : List Char) (part : Part) (behind : List Char) : List Chunk → Prop
  | [] => True
  | chunk :: row =>
    chunk.Fits moduleAlias part behind (row.flatMap Chunk.chars)
      ∧ RowFits moduleAlias part (chunk.chars.reverse ++ behind) row

/-- A row of chunks: code of the kinds that it is said to be, and other text, such that each pass
has everything right that is still there when its turn comes. -/
structure IsRow (moduleAlias : List Char) (row : List Chunk) : Prop where
  isCode : ∀ part text, .code part text ∈ row → IsCode moduleAlias part text
  fits : ∀ part : Part, RowFits moduleAlias part [] (leftAt part.turn row)

/-- A pattern starts nowhere in the other text of a row. -/
def Quiet (pattern : Pattern) (behind : List Char) : List Chunk → Prop
  | [] => True
  | .other text :: row =>
    pattern.Skips behind text (row.flatMap Chunk.chars) ∧ Quiet pattern (text.reverse ++ behind) row
  | .code _ text :: row => Quiet pattern (text.reverse ++ behind) row

theorem rowFits_of_lines {moduleAlias : List Char} {part : Part} {behind : List Char}
    {row : List Chunk}
    (lines : row.Pairwise fun chunk _ => chunk.chars.getLast? = some '\n')
    (quiet : Quiet (part.pattern moduleAlias) behind row)
    (start : row ≠ [] → ∀ c ∈ behind.head?, continuesName c = false) :
    RowFits moduleAlias part behind row := by
  induction row generalizing behind with
  | nil => trivial
  | cons chunk row ih =>
    obtain ⟨own, lines⟩ := List.pairwise_cons.1 lines
    have ends : chunk.chars.getLast? = some '\n' ∨ row = [] := by
      cases row with
      | nil => exact .inr rfl
      | cons next row => exact .inl (own next (by simp))
    have later (quiet : Quiet (part.pattern moduleAlias) (chunk.chars.reverse ++ behind) row) :
        RowFits moduleAlias part (chunk.chars.reverse ++ behind) row :=
      ih lines quiet fun some_ c hc => by
        rw [List.head?_append, List.head?_reverse, ends.resolve_right some_] at hc
        exact Option.some.inj hc ▸ by decide
    cases chunk with
    | other text => exact ⟨quiet.1, later quiet.2⟩
    | code kind text =>
      refine ⟨?_, later quiet⟩
      show if kind = part then _ else _
      split
      · exact ⟨.inl (start (by simp)), ends.imp_right fun nil => by rw [nil]; rfl⟩
      · rcases ends with last | rfl
        · exact .inl fun c hc => Option.some.inj (last.symm.trans hc) ▸ by decide
        · refine .inr (ends_eq_nil fun stretch more ahead hs => ?_)
          obtain rfl : stretch = [] := (List.append_eq_nil_iff.1 ahead.symm).1
          exact part.isSolid moduleAlias _ hs

theorem isRow_of_lines {moduleAlias : List Char} {row : List Chunk}
    (isCode : ∀ part text, .code part text ∈ row → IsCode moduleAlias part text)
    (lines : row.Pairwise fun chunk _ => chunk.chars.getLast? = some '\n')
    (quiet : ∀ part : Part, Quiet (part.pattern moduleAlias) [] (leftAt part.turn row)) :
    IsRow moduleAlias row :=
  ⟨isCode, fun part => rowFits_of_lines (lines.filter _) (quiet part) (by simp)⟩

instance (pattern : Pattern)
    (behind piece rest : List Char) : Decidable (pattern.Skips behind piece rest) :=
  decidable_of_iff (∀ i ∈ List.range piece.length,
      pattern.ends ⟨(piece.take i).reverse ++ behind, piece.drop i ++ rest⟩ = []) <| by
    constructor
    · intro none_ front back same hback stretch more ahead hs
      have split : piece.take front.length = front ∧ piece.drop front.length = back := by
        simp [same]
      have shorter : front.length < piece.length := by
        simpa [same] using List.length_pos_iff.2 hback
      have here := none_ front.length (List.mem_range.2 shorter)
      rw [split.1, split.2] at here
      have mem : (⟨stretch.reverse ++ (front.reverse ++ behind), more⟩ : Place)
          ∈ pattern.ends ⟨front.reverse ++ behind, back ++ rest⟩ :=
            mem_ends.2 ⟨stretch, more, ahead, rfl, hs⟩
      rw [here] at mem
      exact List.not_mem_nil mem
    · intro skips i hi
      refine ends_eq_nil fun stretch more ahead => ?_
      exact skips (piece.take i) (piece.drop i) (List.take_append_drop ..).symm
        (by simpa using List.mem_range.1 hi) stretch more ahead

instance (moduleAlias : List Char) (part : Part) (behind rest : List Char) :
    (chunk : Chunk) → Decidable (chunk.Fits moduleAlias part behind rest)
  | .other _ => inferInstanceAs (Decidable (Skips _ _ _ _))
  | .code kind text => inferInstanceAs (Decidable (if kind = part then
      ((∀ c ∈ behind.head?, continuesName c = false) ∨ (∃ c ∈ text.head?, isBlank c = true) ∨ part ≠ .accessor)
        ∧ EndsLine text rest
      else (∀ c ∈ text.getLast?, isSpace c = false)
        ∨ (part.pattern moduleAlias).ends ⟨text.reverse ++ behind, rest⟩ = []))

instance decidableRowFits (moduleAlias : List Char) (part : Part) (behind : List Char) :
    (row : List Chunk) → Decidable (RowFits moduleAlias part behind row)
  | [] => .isTrue trivial
  | chunk :: row =>
    have := decidableRowFits moduleAlias part (chunk.chars.reverse ++ behind) row
    inferInstanceAs (Decidable (_ ∧ _))

/-! ## Code is skipped by the passes before its own -/

section Own

variable {moduleAlias stretch body rest : List Char}

theorem stops_of_mark {mark : Char} (hmark : ¬ IsPlain mark) (front back more : List Char)
    (same : body ++ [mark] = front ++ back) (hback : back ≠ []) : ¬ IsLead (back ++ more) := by
  have last : mark ∈ (front ++ back).getLast? := by rw [← same, List.getLast?_concat]; rfl
  exact fun lead => hmark (lead.1 mark (List.mem_append_left more (mem_of_getLast?_append hback last)))

theorem free_of_once {key : Char} {follows : List Char → Prop} {lead tail : List Char}
    (hlead : key ∉ lead)
    (htail : key ∉ tail) (none_ : ¬ follows (tail ++ rest)) :
    Free key follows (lead ++ key :: tail) rest := by
  intro back hback
  obtain ⟨front, same⟩ := mem_after.1 hback
  obtain ⟨rfl, rfl⟩ | ⟨m, hm⟩ : (front = lead ∧ back = tail) ∨ ∃ m, tail = m ++ key :: back := by
    rcases List.append_eq_append_iff.1 same with ⟨m, rfl, hm⟩ | ⟨m, rfl, hm⟩
    · cases m with
      | nil => exact .inl ⟨by simp, (List.cons.inj hm).2.symm⟩
      | cons c m => exact .inr ⟨m, (List.cons.inj hm).2⟩
    · cases m with
      | nil => exact .inl ⟨by simp, (List.cons.inj hm).2⟩
      | cons c m => exact absurd (by simp [(List.cons.inj hm).1]) hlead
  · exact none_
  · exact absurd (by simp [hm]) htail

theorem IsField.marks (h : IsField moduleAlias stretch) (hname : IsName moduleAlias) :
    '=' ∉ stretch ∧ '\x7b' ∉ stretch := by
  obtain ⟨run, field, gap₁, gap₂, className, gap₃, rfl, hrun, hfield, hgap₁,
    hgap₂, hclass, hgap₃⟩ := h
  have spaces {c : Char} (hc : ¬ (c = ' ' ∨ c = '\t')) : c ∉ run := fun mem => hc (hrun c mem)
  simp only [List.mem_append, List.mem_cons, not_or]
  exact ⟨⟨spaces (by decide), hfield.not_mem (by decide), hgap₁.not_mem (by decide), by decide,
    hgap₂.not_mem (by decide), hname.not_mem (by decide), by decide, hclass.not_mem (by decide),
    hgap₃.not_mem (by decide), by decide⟩, spaces (by decide), hfield.not_mem (by decide),
    hgap₁.not_mem (by decide), by decide, hgap₂.not_mem (by decide),
    hname.not_mem (by decide), by decide, hclass.not_mem (by decide),
    hgap₃.not_mem (by decide), by decide⟩

/-- Nothing is made behind the brace of a lookup. -/
theorem IsLookup.free_makes (h : IsLookup moduleAlias stretch) (hname : IsName moduleAlias)
    (rest : List Char) :
    Free '\x7b' (Makes moduleAlias) stretch rest := by
  obtain ⟨run, gap₁, gap₂, gap₃, gap₄, className, gap₅, gap₆, gap₇, _, rfl, hrun,
    hgap₁, hgap₂, hgap₃, hgap₄, hclass, hgap₅, hgap₆, hgap₇, gap₈, field, gap₉, gap₁₀, rfl, hgap₈,
    hfield, hgap₉, hgap₁₀⟩ := h
  let lead := run ++ ("if".toList ++ (gap₁ ++ ("((".toList ++ (gap₂ ++ ("token".toList ++ (gap₃
    ++ ("===".toList ++ (gap₄ ++ (moduleAlias ++ '.' :: (className ++ (gap₅ ++ ("))".toList ++ gap₆))))))))))))
  let inner := gap₇ ++ ("return".toList ++ (gap₈ ++ ("this.".toList ++ (field
    ++ (gap₉ ++ (";".toList ++ gap₁₀))))))
  have unopened : '\x7b' ∉ lead := by
    simp only [lead, List.mem_append, List.mem_cons, not_or]
    exact ⟨not_mem_of_plain (plain_spaces hrun) (by decide), by decide,
      hgap₁.not_mem (by decide), by decide, hgap₂.not_mem (by decide), by decide,
      hgap₃.not_mem (by decide), by decide, hgap₄.not_mem (by decide), hname.not_mem (by decide),
      by decide, hclass.not_mem (by decide), hgap₅.not_mem (by decide), by decide,
      hgap₆.not_mem (by decide)⟩
  have marks : '\x7b' ∉ inner ∧ '\x7d' ∉ inner := by
    simp only [inner, List.mem_append, not_or]
    exact ⟨⟨hgap₇.not_mem (by decide), by decide, IsGap.not_mem hgap₈.2 (by decide), by decide,
      hfield.not_mem (by decide), hgap₉.not_mem (by decide), by decide, hgap₁₀.not_mem (by decide)⟩,
      hgap₇.not_mem (by decide), by decide, IsGap.not_mem hgap₈.2 (by decide), by decide,
      hfield.not_mem (by decide), hgap₉.not_mem (by decide), by decide, hgap₁₀.not_mem (by decide)⟩
  -- Only the name of the field can end in a `w`, and a semicolon follows it.
  have spaced : Free 'w' (Spaced moduleAlias) inner ('\x7d' :: rest) := by
    refine free_append.2 ⟨free_of_not_mem (hgap₇.not_mem (by decide)) _ _, free_append.2
      ⟨free_of_not_mem (by decide) _ _, free_append.2 ⟨free_of_not_mem (IsGap.not_mem hgap₈.2 (by decide)) _ _,
        free_append.2 ⟨free_of_not_mem (by decide) _ _, free_append.2 ⟨free_name (fun _ h => h.1) hfield ?_,
          free_append.2 ⟨free_of_not_mem (hgap₉.not_mem (by decide)) _ _, free_append.2
            ⟨free_of_not_mem (by decide) _ _,
              free_of_not_mem (hgap₁₀.not_mem (by decide)) _ _⟩⟩⟩⟩⟩⟩⟩
    rintro ⟨-, word, -⟩
    rw [firstWord, List.append_assoc, List.dropWhile_append_of_pos hgap₉] at word
    exact hname.1 word.symm
  have none_ : ¬ Makes moduleAlias ((inner ++ ['\x7d']) ++ rest) := by
    rw [List.append_assoc]
    exact not_makes marks.2 spaced
  have split : run ++ ("if".toList ++ (gap₁ ++ ("((".toList ++ (gap₂ ++ ("token".toList ++ (gap₃
      ++ ("===".toList ++ (gap₄ ++ (moduleAlias ++ '.' :: (className ++ (gap₅ ++ ("))".toList ++ (gap₆
        ++ ("\x7b".toList ++ (gap₇ ++ ("return".toList ++ (gap₈ ++ ("this.".toList ++ (field ++ (gap₉
          ++ (";".toList ++ (gap₁₀ ++ "\x7d".toList))))))))))))))))))))))
      = lead ++ '\x7b' :: (inner ++ ['\x7d']) := by
    simp only [lead, inner, List.append_assoc, List.cons_append]
    rfl
  rw [split]
  exact free_of_once unopened (by simpa using marks.1) none_

/-- Nothing is made behind the equals signs of a lookup. -/
theorem IsLookup.free_constructs (h : IsLookup moduleAlias stretch) (hname : IsName moduleAlias)
    (rest : List Char) : Free '=' (Constructs moduleAlias) stretch rest := by
  obtain ⟨run, gap₁, gap₂, gap₃, gap₄, className, gap₅, gap₆, gap₇, _, rfl, hrun,
    hgap₁, hgap₂, hgap₃, hgap₄, hclass, hgap₅, hgap₆, hgap₇, gap₈, field, gap₉, gap₁₀, rfl, hgap₈,
    hfield, hgap₉, hgap₁₀⟩ := h
  have none_ {text : List Char} (h : '=' ∉ text) (rest : List Char) :
      Free '=' (Constructs moduleAlias) text rest :=
    free_of_not_mem h _ _
  refine free_append.2 ⟨none_ (fun mem => absurd (hrun _ mem) (by decide)) _,
    free_append.2 ⟨none_ (by decide) _, free_append.2 ⟨none_ (hgap₁.not_mem (by decide)) _,
      free_append.2 ⟨none_ (by decide) _, free_append.2 ⟨none_ (hgap₂.not_mem (by decide)) _,
        free_append.2 ⟨none_ (by decide) _,
        free_append.2 ⟨none_ (hgap₃.not_mem (by decide)) _, free_append.2 ⟨?_, none_ ?_ _⟩⟩⟩⟩⟩⟩⟩⟩
  · refine free_of_after ["==".toList, "=".toList, []] (by decide) (List.forall_mem_cons.2 ⟨fun h => ?_,
      List.forall_mem_cons.2 ⟨fun h => ?_, List.forall_mem_singleton.2 fun h => ?_⟩⟩)
    · exact List.cons_ne_nil _ _ h.1.symm
    · exact List.cons_ne_nil _ _ h.1.symm
    · have blank := h.2.1
      rw [List.nil_append, List.append_assoc, List.append_assoc, List.cons_append,
        behindWord_append hgap₄ hname (not_name_dot _)] at blank
      exact not_startsBlank (by decide) blank
  · simp only [List.mem_append, List.mem_cons, not_or]
    exact ⟨hgap₄.not_mem (by decide), hname.not_mem (by decide), by decide,
      hclass.not_mem (by decide), hgap₅.not_mem (by decide), by decide, hgap₆.not_mem (by decide),
      by decide, hgap₇.not_mem (by decide), by decide, IsGap.not_mem hgap₈.2 (by decide), by decide,
      hfield.not_mem (by decide), hgap₉.not_mem (by decide), by decide,
      hgap₁₀.not_mem (by decide), by decide⟩

/-- An accessor starts nowhere in a text up to a semicolon in which none is begun. -/
theorem skips_accessor_of_unbegun
    (unbegun : ¬ (accessorHead ++ literal "\x7b").Occurs (body ++ [';']))
    (behind rest : List Char) : (accessor moduleAlias).Skips behind (body ++ [';']) rest := by
  intro front back same hback s more ahead hs
  obtain ⟨head, tail, rfl, hhead⟩ := begun_of_accessor hs
  obtain ⟨init, c, rfl⟩ := (back.eq_nil_or_concat).resolve_left hback
  rw [List.concat_eq_append] at same ahead
  obtain ⟨-, last⟩ := List.append_inj' (same.trans (List.append_assoc ..).symm) rfl
  obtain rfl : ';' = c := List.singleton_inj.1 last
  have within : ';' ∉ head ++ ['\x7b'] := by
    rw [List.mem_append, not_or]
    exact ⟨not_mem_of_plain (plain_of_accessorHead hhead) (by decide), by decide⟩
  have ahead : (init ++ [';']) ++ rest = (head ++ ['\x7b']) ++ (tail ++ more) := by simpa using ahead
  obtain ⟨m, rfl, -⟩ := prefix_of_unclosed within ahead
  refine unbegun ⟨front, head ++ "\x7b".toList, m ++ [';'], ?_, head, _, ?_,
    describes_literal.2 rfl, rfl⟩
  · show body ++ [';'] = _
    rw [same]
    simp
  · show accessorHead.Describes (front.reverse ++ []) head
    rw [List.append_nil]
    exact hhead.of_append

/-- Code of a kind is skipped by the passes whose turn comes before. -/
theorem skips_of_isForm {part other : Part} (earlier : part.turn < other.turn)
    (hname : IsName moduleAlias)
    (h : other.IsForm moduleAlias stretch) (behind rest : List Char) :
    (part.pattern moduleAlias).Skips behind stretch rest := by
  obtain ⟨body, mark, rfl, hmark⟩ := h.closes
  have stops := @stops_of_mark body mark (by rcases hmark with rfl | rfl <;> decide)
  match part, other with
  | .accessor, .statement =>
    obtain ⟨isConstruction, unbegun⟩ := h
    obtain ⟨body', same, -⟩ := isConstruction.closes hname
    rw [same] at unbegun ⊢
    exact skips_accessor_of_unbegun unbegun behind rest
  | .accessor, .lookup =>
    exact skips_of_key (fun _ _ more hs => brace_of_accessor hname hs more) stops
      (IsLookup.free_makes h hname rest) behind
  | .accessor, .field =>
    exact skips_of_key (fun _ _ more hs => brace_of_accessor hname hs more) stops
      (free_of_not_mem (IsField.marks h hname).2 _ _) behind
  | .statement, .lookup =>
    exact skips_of_key (fun _ _ more hs => equals_of_construction hname hs more) stops
      (IsLookup.free_constructs h hname rest) behind
  | .statement, .field =>
    exact skips_of_key (fun _ _ more hs => equals_of_construction hname hs more) stops
      (free_of_not_mem (IsField.marks h hname).1 _ _) behind
  | .lookup, .field =>
    exact skips_of_key (fun _ _ more hs => equals_of_lookupStatement hname hs more) stops
      (free_of_not_mem (IsField.marks h hname).1 _ _) behind

/-- Each pass looks for spaces and then for something that starts with no blank. -/
theorem Part.exists_behind_spaces (part : Part) (moduleAlias : List Char) : ∃ second : Pattern,
    (∀ behind stretch, (part.pattern moduleAlias).Describes behind stretch
      ↔ (spaces ++ second).Describes behind stretch)
    ∧ ∀ behind stretch, second.Describes behind stretch →
      ∃ c ∈ stretch.head?, isBlank c = false := by
  have word (text : String) {second : Pattern} (h : ∃ c ∈ text.toList.head?, isBlank c = false)
      (behind stretch : List Char) (hs : (literal text ++ second).Describes behind stretch) :
      ∃ c ∈ stretch.head?, isBlank c = false := by
    obtain ⟨_, back, hword, -, rfl⟩ := hs
    obtain rfl := describes_literal.1 hword
    obtain ⟨c, hc, blank⟩ := h
    exact ⟨c, List.mem_head?_append_of_mem_head? hc, blank⟩
  cases part with
  | accessor =>
    refine ⟨?_, ?same, ?first⟩
    case same =>
      intro behind stretch
      rw [Part.pattern, Purge.accessor]
      simp only [← describes_append_assoc]
      exact Iff.rfl
    case first =>
      rintro behind _ ⟨_, back, ⟨rfl, -⟩, hback, rfl⟩
      exact word "get" ⟨'g', rfl, by decide⟩ _ _ hback
  | statement =>
    refine ⟨?_, ?same, ?first⟩
    case same =>
      intro behind stretch
      rw [Part.pattern, construction]
      simp only [← describes_append_assoc]
      exact Iff.rfl
    case first =>
      exact word "this." ⟨'t', rfl, by decide⟩
  | lookup =>
    refine ⟨?_, ?same, ?first⟩
    case same =>
      intro behind stretch
      rw [Part.pattern, lookupStatement]
      simp only [← describes_append_assoc]
      exact Iff.rfl
    case first =>
      exact word "if" ⟨'i', rfl, by decide⟩
  | field =>
    refine ⟨?_, ?same, ?first⟩
    case same =>
      intro behind stretch
      rw [Part.pattern, fieldDeclaration]
      simp only [← describes_append_assoc]
      exact Iff.rfl
    case first =>
      rintro behind _ ⟨field, back, hfield, -, rfl⟩
      obtain ⟨hne, hfield⟩ := describes_name.1 hfield
      obtain ⟨c, field, rfl⟩ := List.exists_cons_of_ne_nil hne
      exact ⟨c, rfl, isBlank_of_isNameChar (hfield c (by simp))⟩

/-- What is cut for a service is cut without some of the spaces that it starts with, too. -/
theorem Part.starts {part : Part} {behind : List Char}
    (h : (part.pattern moduleAlias).Describes behind stretch) :
    ∃ run tail, stretch = run ++ tail ∧ IsSpaces run ∧ (∃ c ∈ tail.head?, isBlank c = false)
      ∧ ∀ front back, run = front ++ back →
        (part.pattern moduleAlias).Describes (front.reverse ++ behind) (back ++ tail) := by
  obtain ⟨second, same, first⟩ := part.exists_behind_spaces moduleAlias
  obtain ⟨run, tail, hrun, htail, rfl⟩ := (same behind stretch).1 h
  have isSpaces := describes_spaces.1 hrun
  refine ⟨run, tail, rfl, isSpaces, first _ _ htail, ?_⟩
  rintro front back rfl
  rw [List.reverse_append, List.append_assoc] at htail
  exact (same _ _).2 ⟨back, tail,
    describes_spaces.2 fun c hc => isSpaces c (List.mem_append_right _ hc), htail, rfl⟩

/-- Nothing that is cut for a service starts in the rest of a line, if nothing starts right behind
the spaces of a line that goes on. -/
theorem skips_line {part : Part} {run feed behind : List Char} (hrun : IsSpaces run)
    (hfeed : IsLineEnd feed ∨ feed = [] ∧
      (run = [] ∨ (part.pattern moduleAlias).ends ⟨run.reverse ++ behind, rest⟩ = [])) :
    (part.pattern moduleAlias).Skips behind (run ++ feed) rest := by
  intro front back same hback s more ahead hs
  obtain ⟨run', tail, rfl, hrun', ⟨c, hc, nonblank⟩, fewer⟩ := Part.starts hs
  have blank : ∀ d ∈ front ++ back, isBlank d = true := by
    rw [← same]
    refine List.forall_mem_append.2 ⟨fun d hd => by rcases hrun d hd with rfl | rfl <;> decide, ?_⟩
    rcases hfeed with (rfl | rfl) | ⟨rfl, -⟩ <;> decide
  -- The stretch goes on behind the line, and its spaces begin in the line.
  obtain ⟨m, rfl, hrest⟩ : ∃ m, run' = back ++ m ∧ rest = m ++ (tail ++ more) := by
    rw [List.append_assoc] at ahead
    rcases List.append_eq_append_iff.1 ahead with ⟨m, hm, hrest⟩ | ⟨m, hm, hrest⟩
    · exact ⟨m, hm, hrest⟩
    · cases m with
      | nil => exact ⟨[], by simpa using hm.symm, by simpa using hrest.symm⟩
      | cons d m =>
        obtain ⟨tail, rfl⟩ := List.head?_eq_some_iff.1 hc
        obtain rfl : c = d := (List.cons.inj hrest).1
        exact absurd (blank c (by simp [hm])) (by simp [nonblank])
  rcases hfeed with hfeed | ⟨rfl, stops⟩
  · have last : '\n' ∈ (front ++ back).getLast? := by
      rw [← same]
      rcases hfeed with rfl | rfl <;> simp
    have space := hrun' '\n' (List.mem_append_left m (mem_of_getLast?_append hback last))
    exact absurd space (by decide)
  · rw [List.append_nil] at same
    subst same
    have none_ := stops.resolve_left (by simp [hback])
    have here : (⟨(m ++ tail).reverse ++ ((front ++ back).reverse ++ behind), more⟩ : Place)
        ∈ (part.pattern moduleAlias).ends ⟨(front ++ back).reverse ++ behind, rest⟩ := by
      refine mem_ends.2 ⟨m ++ tail, more, by simp [hrest], rfl, ?_⟩
      have late := fewer back m rfl
      rwa [← List.append_assoc, ← List.reverse_append] at late
    rw [none_] at here
    exact List.not_mem_nil here

theorem skips_of_isCode {part kind : Part} {text behind : List Char}
    (earlier : part.turn < kind.turn) (hname : IsName moduleAlias)
    (h : IsCode moduleAlias kind text)
    (apart : (∀ c ∈ text.getLast?, isSpace c = false)
      ∨ (part.pattern moduleAlias).ends ⟨text.reverse ++ behind, rest⟩ = []) :
    (part.pattern moduleAlias).Skips behind text rest := by
  obtain ⟨stretch, run, feed, rfl, hform, hrun, hfeed⟩ := h
  refine (skips_of_isForm earlier hname hform behind _).append (skips_line hrun (hfeed.imp_right ?_))
  rintro rfl
  refine ⟨rfl, apart.imp (fun last => ?_) fun none_ => ?_⟩
  · rcases run.eq_nil_or_concat with rfl | ⟨run, c, rfl⟩
    · rfl
    · have space := last c (by simp)
      rcases hrun c (by simp) with rfl | rfl <;> exact absurd space (by decide)
  · simpa using none_

end Own

/-! ## One pass, and all of them -/

section Passes

variable {moduleAlias : List Char} (hname : IsName moduleAlias)

include hname

/-- A pass over chunks that it has right leaves those that are no code of its kind. -/
theorem trims_chunks {part : Part} {chunks : List Chunk} {behind : List Char}
    (codes : ∀ kind text, .code kind text ∈ chunks → IsCode moduleAlias kind text ∧ part.turn ≤ kind.turn)
    (fits : RowFits moduleAlias part behind chunks) :
    (part.pattern moduleAlias).Trims behind (chunks.flatMap Chunk.chars) []
      ((leftAt (part.turn + 1) chunks).flatMap Chunk.chars) := by
  induction chunks generalizing behind with
  | nil => exact trims_nil _ _ _
  | cons chunk chunks ih =>
    obtain ⟨here, fits⟩ := fits
    have later := ih (fun kind text h => codes kind text (List.mem_cons_of_mem _ h)) fits
    rw [← List.append_nil (chunks.flatMap Chunk.chars)] at here
    rw [List.flatMap_cons]
    cases chunk with
    | other text =>
      have kept : leftAt (part.turn + 1) (.other text :: chunks)
        = .other text :: leftAt (part.turn + 1) chunks := rfl
      rw [kept, List.flatMap_cons]
      exact .append (Skips.trims here) later
    | code kind text =>
      obtain ⟨isCode, turn⟩ := codes kind text (by simp)
      by_cases own : kind = part
      · subst own
        obtain ⟨start, ends⟩ := (if_pos rfl).mp here
        have gone : leftAt (kind.turn + 1) (.code kind text :: chunks)
            = leftAt (kind.turn + 1) chunks :=
          List.filter_cons_of_neg (by simp [Chunk.isLeft])
        rw [gone]
        exact Trims.append (cuts_of_isCode isCode hname start ends).trims later
      · have apart := (if_neg own).mp here
        have earlier : part.turn < kind.turn :=
          lt_of_le_of_ne turn fun same => own (by revert same; cases part <;> cases kind <;> decide)
        have kept : leftAt (part.turn + 1) (.code kind text :: chunks)
            = .code kind text :: leftAt (part.turn + 1) chunks :=
          List.filter_cons_of_pos (by simp [Chunk.isLeft]; omega)
        rw [kept, List.flatMap_cons]
        exact .append (skips_of_isCode earlier hname isCode apart).trims later

/-- A pass takes the code of its kind out of what is left of a row when its turn comes. -/
theorem IsRow.removeAll_leftAt {row : List Chunk} (isRow : IsRow moduleAlias row) (part : Part) :
    (part.pattern moduleAlias).removeAll ((leftAt part.turn row).flatMap Chunk.chars)
      = (leftAt (part.turn + 1) row).flatMap Chunk.chars := by
  have codes : ∀ other text, .code other text ∈ leftAt part.turn row →
      IsCode moduleAlias other text ∧ part.turn ≤ other.turn := fun other text h =>
    have ⟨mem, left⟩ := List.mem_filter.1 h
    ⟨isRow.isCode other text mem, of_decide_eq_true left⟩
  have next : leftAt (part.turn + 1) (leftAt part.turn row) = leftAt (part.turn + 1) row := by
    rw [leftAt, leftAt, leftAt, List.filter_filter]
    refine List.filter_congr fun chunk _ => ?_
    cases chunk with
    | other text => rfl
    | code other text =>
      simp only [Chunk.isLeft, ← Bool.decide_and]
      exact decide_eq_decide.2 (by omega)
  have trims := trims_chunks hname codes (isRow.fits part)
  rw [next] at trims
  exact trims.removeAll

omit hname in
/-- When all kinds of code had their turn, the other text is left. -/
theorem leftAt_end (row : List Chunk) : (leftAt 4 row).flatMap Chunk.chars = remains row := by
  induction row with
  | nil => rfl
  | cons chunk row ih =>
    cases chunk with
    | other text => exact congrArg (text ++ ·) ih
    | code part text => cases part <;> exact ih

theorem IsRow.removeService_eq {row : List Chunk} (isRow : IsRow moduleAlias row) :
    removeService moduleAlias (row.flatMap Chunk.chars) = remains row := by
  have first : leftAt 0 row = row := List.filter_eq_self.2 fun chunk _ => by cases chunk <;> rfl
  have pass₁ : (Part.pattern moduleAlias .accessor).removeAll ((leftAt 0 row).flatMap Chunk.chars)
      = (leftAt 1 row).flatMap Chunk.chars := isRow.removeAll_leftAt hname .accessor
  have pass₂ : (Part.pattern moduleAlias .statement).removeAll ((leftAt 1 row).flatMap Chunk.chars)
      = (leftAt 2 row).flatMap Chunk.chars := isRow.removeAll_leftAt hname .statement
  have pass₃ : (Part.pattern moduleAlias .lookup).removeAll ((leftAt 2 row).flatMap Chunk.chars)
      = (leftAt 3 row).flatMap Chunk.chars := isRow.removeAll_leftAt hname .lookup
  have pass₄ : (Part.pattern moduleAlias .field).removeAll ((leftAt 3 row).flatMap Chunk.chars)
      = (leftAt 4 row).flatMap Chunk.chars := isRow.removeAll_leftAt hname .field
  calc removeService moduleAlias (row.flatMap Chunk.chars)
    _ = (Part.pattern moduleAlias .field).removeAll ((Part.pattern moduleAlias .lookup).removeAll
          ((Part.pattern moduleAlias .statement).removeAll ((Part.pattern moduleAlias .accessor).removeAll
            ((leftAt 0 row).flatMap Chunk.chars)))) := by rw [first]; rfl
    _ = (leftAt 4 row).flatMap Chunk.chars := by rw [pass₁, pass₂, pass₃, pass₄]
    _ = remains row := leftAt_end row

end Passes

/-! ## Names in texts in a row -/

/-- A word stands in a text where a name may start, in front of something that a condition is put
on. -/
def StandsIn (word : List Char) (next : Option Char → Prop) (text : List Char) : Prop :=
  ∃ front back, text = front ++ (word ++ back) ∧ (∀ c ∈ front.getLast?, continuesName c = false)
    ∧ next back.head?

theorem mentions_iff_standsIn {word text : List Char} :
    Mentions word text ↔ StandsIn word (fun c? => ∀ c ∈ c?, isNameChar c = false) text :=
  Iff.rfl

theorem refers_iff_standsIn {moduleAlias text : List Char} :
    Refers moduleAlias text
      ↔ StandsIn (moduleAlias ++ ['.']) (fun c? => ∃ c ∈ c?, isNameChar c = true) text := by
  constructor
  · rintro ⟨front, c, back, rfl, start, hc⟩
    exact ⟨front, c :: back, by simp, start, c, rfl, hc⟩
  · rintro ⟨front, back, rfl, start, c, hc, name⟩
    obtain ⟨back, rfl⟩ := List.head?_eq_some_iff.1 hc
    exact ⟨front, c, back, by simp, start, name⟩

/-- No name goes on from one text to the next. -/
def Apart (text more : List Char) : Prop :=
  ∀ c ∈ text.getLast?, ∀ d ∈ more.head?, continuesName c = true → continuesName d = false

/-- No name goes on from one of some texts to what follows it. -/
def NamesApart : List (List Char) → Prop
  | [] => True
  | text :: texts => Apart text texts.flatten ∧ NamesApart texts

instance (text more : List Char) : Decidable (Apart text more) :=
  inferInstanceAs (Decidable (∀ c ∈ text.getLast?, ∀ d ∈ more.head?, _))

instance decidableNamesApart : (texts : List (List Char)) → Decidable (NamesApart texts)
  | [] => .isTrue trivial
  | _ :: texts =>
    have := decidableNamesApart texts
    inferInstanceAs (Decidable (_ ∧ _))

/-- No name goes on over the end of a line. -/
theorem namesApart_of_lines {row : List Chunk}
    (lines : row.Pairwise fun chunk _ => chunk.chars.getLast? = some '\n') :
    NamesApart (row.filterMap Chunk.other?) := by
  induction row with
  | nil => trivial
  | cons chunk row ih =>
    obtain ⟨own, later⟩ := List.pairwise_cons.1 lines
    cases chunk with
    | code part text => exact ih later
    | other text =>
      refine ⟨fun c hc d hd => ?_, ih later⟩
      cases row with
      | nil => cases hd
      | cons next row =>
        obtain rfl := Option.some.inj ((own next (by simp)).symm.trans hc)
        exact fun continues => absurd continues (by decide)

section Names

variable {word : List Char} {next : Option Char → Prop} (hword : ∀ c ∈ word, continuesName c = true)
  (hne : word ≠ []) (hnext : ∀ c, continuesName c = false → (next (some c) ↔ next none))

include hword hne hnext

/-- What stands behind a word is not told from the end of the text, if no name goes on there. -/
theorem next_append {front back more : List Char} (apart : Apart (front ++ (word ++ back)) more) :
    next (back ++ more).head? ↔ next back.head? := by
  cases back with
  | cons d back => exact Iff.rfl
  | nil =>
    cases more with
    | nil => exact Iff.rfl
    | cons d more =>
      obtain ⟨word, c, rfl⟩ := (word.eq_nil_or_concat).resolve_left hne
      exact hnext d (apart c (by simp [← List.append_assoc]) d rfl (hword c (by simp)))

/-- A word stands in one of two texts if and only if it stands in both together, if no name goes on
from the one to the other. -/
theorem standsIn_append {text more : List Char} (apart : Apart text more) :
    StandsIn word next (text ++ more) ↔ StandsIn word next text ∨ StandsIn word next more := by
  constructor
  · rintro ⟨front, back, same, start, after⟩
    rcases List.append_eq_append_iff.1 same with ⟨m, rfl, rfl⟩ | ⟨m, rfl, hm⟩
    · refine .inr ⟨m, back, rfl, fun c hc => start c ?_, after⟩
      rw [List.getLast?_append, Option.mem_def.1 hc]
      rfl
    · rcases List.append_eq_append_iff.1 hm with ⟨k, rfl, rfl⟩ | ⟨k, rfl, rfl⟩
      · exact .inl ⟨front, k, rfl, start, (next_append hword hne hnext apart).1 after⟩
      · -- The word would go on from the one text to the other.
        rcases m.eq_nil_or_concat with rfl | ⟨m, c, rfl⟩
        · exact .inr ⟨[], back, rfl, by simp, after⟩
        · cases k with
          | nil =>
            obtain ⟨same, begun⟩ : front ++ m.concat c = front ++ (m.concat c ++ [] ++ [])
              ∧ [] ++ back = back := by simp
            rw [begun] at apart
            rw [same] at apart ⊢
            exact .inl ⟨front, [], rfl, start, (next_append hword hne hnext apart).1 after⟩
          | cons d k =>
            have goesOn := apart c (by simp [← List.append_assoc]) d rfl (hword c (by simp))
            exact absurd (hword d (by simp)) (by simp [goesOn])
  · rintro (⟨front, back, rfl, start, after⟩ | ⟨front, back, rfl, start, after⟩)
    · exact ⟨front, back ++ more, by simp, start, (next_append hword hne hnext apart).2 after⟩
    · refine ⟨text ++ front, back, by simp, fun c hc => ?_, after⟩
      rw [List.getLast?_append] at hc
      cases last : front.getLast? with
      | some d => exact start c (by rw [last] at hc ⊢; exact hc)
      | none =>
        obtain rfl := List.getLast?_eq_none_iff.1 last
        obtain ⟨d, word, rfl⟩ := List.exists_cons_of_ne_nil hne
        have begun := hword d (by simp)
        rw [last] at hc
        by_contra goesOn
        have other := apart c hc d rfl (by simpa using goesOn)
        exact absurd begun (by simp [other])

omit hword hnext in
theorem not_standsIn_nil : ¬ StandsIn word next [] := by
  rintro ⟨front, back, same, -⟩
  simp [hne] at same

/-- A word stands in some texts in a row if and only if it stands in one of them. -/
theorem standsIn_flatten {texts : List (List Char)} (apart : NamesApart texts) :
    StandsIn word next texts.flatten ↔ ∃ text ∈ texts, StandsIn word next text := by
  induction texts with
  | nil => simpa using not_standsIn_nil hne
  | cons text texts ih =>
    rw [List.flatten_cons, List.exists_mem_cons_iff, ← ih apart.2]
    exact standsIn_append hword hne hnext apart.1

end Names

/-! ## What remains -/

section Remains

variable {moduleAlias : List Char} {row : List Chunk}

theorem mem_otherText {text : List Char} :
    text ∈ row.filterMap Chunk.other? ↔ .other text ∈ row := by
  rw [List.mem_filterMap]
  constructor
  · rintro ⟨chunk, hchunk, same⟩
    cases chunk with
    | other _ => exact Option.some.inj same ▸ hchunk
    | code _ _ => exact absurd same (by simp [Chunk.other?])
  · exact fun h => ⟨_, h, rfl⟩

theorem standsIn_remains (apart : NamesApart (row.filterMap Chunk.other?)) {word : List Char}
    {next : Option Char → Prop} (hword : ∀ c ∈ word, continuesName c = true) (hne : word ≠ [])
    (hnext : ∀ c, continuesName c = false → (next (some c) ↔ next none)) :
    StandsIn word next (remains row) ↔ ∃ text, .other text ∈ row ∧ StandsIn word next text := by
  simp only [remains, standsIn_flatten hword hne hnext apart, mem_otherText]

theorem continuesName_of_isNameChar {c : Char}
    (h : isNameChar c = true) : continuesName c = true := by
  simp [continuesName, h]

/-- **What remains when a controller is purged is the other text of its factory**, byte for byte and
in order. A factory whose import of the controller's module is found may have any number of
accessors, constructions, lookups and fields of it, in any order, in any spacing and anywhere in a
line where the passes take them as what they are.

So nothing is left dangling but what other text names: if no names meet where code is taken out,
then a class of the module is named in what remains, and so is a field of the factory, those of
accessors that went included, if and only if a part of the other text names it. Where code and other
text stand on lines of their own, both conditions are met (`isRow_of_lines`,
`namesApart_of_lines`). -/
theorem withoutController_row [WorkingFolder] {file module : String} {content : List Char}
    (isRow : IsRow moduleAlias row)
    (found : removeImport file module content = some (row.flatMap Chunk.chars, moduleAlias)) :
    withoutController file (String.ofList content) module = String.ofList (remains row)
      ∧ (NamesApart (row.filterMap Chunk.other?) →
        (Refers moduleAlias (remains row) ↔ ∃ text, .other text ∈ row ∧ Refers moduleAlias text)
        ∧ ∀ field, IsName field → (Mentions ("this.".toList ++ field) (remains row)
          ↔ ∃ text, .other text ∈ row ∧ Mentions ("this.".toList ++ field) text)) := by
  have hname := isName_of_removeImport found
  refine ⟨?_, fun apart => ⟨?_, fun field hfield => ?_⟩⟩
  · rw [withoutController_ofList, found]
    exact congrArg String.ofList (isRow.removeService_eq hname)
  · have word : ∀ c ∈ moduleAlias ++ ['.'], continuesName c = true :=
      List.forall_mem_append.2 ⟨fun c hc => continuesName_of_isNameChar (hname.2 c hc), by decide⟩
    simp only [refers_iff_standsIn]
    refine standsIn_remains apart word (by simp) fun c separates => ?_
    simp only [Option.mem_some, exists_eq_left', Option.not_mem_none, false_and,
      exists_false, iff_false]
    exact fun name => absurd (continuesName_of_isNameChar name) (by simp [separates])
  · have word : ∀ c ∈ "this.".toList ++ field, continuesName c = true :=
      List.forall_mem_append.2 ⟨by decide, fun c hc => continuesName_of_isNameChar (hfield.2 c hc)⟩
    simp only [mentions_iff_standsIn]
    refine standsIn_remains apart word (by simp) fun c separates => ?_
    have separate : isNameChar c = false := by
      by_contra name
      exact absurd (continuesName_of_isNameChar (by simpa using name)) (by simp [separates])
    simp [separate]

end Remains

/-! ## A factory with one service -/

def injectorAccessor : List Char :=
  "  get _A():a.A ".toList
    ++ ("\x7b\n    if (!this.__A) \x7b this.__A = new a.A(this._App); \x7d\n".toList
      ++ "    return this.__A;\n  \x7d".toList)

/-- All the code of a service, in any order, with a construction in the middle of a line. -/
def injectorRow : List Chunk :=
  [.other "class M \x7b\n".toList, .code .field "  __A:a.A;\r\n".toList,
    .code .accessor (injectorAccessor ++ ['\n']), .other "  create() \x7b".toList,
    .code .statement " this._B = new a.B(); ".toList,
    .other "return this; \x7d\n  getInternal(token, none) \x7b\n".toList,
    .code .lookup "    if ((token === a.A)) \x7b return this._A; \x7d\n".toList,
    .other "    return none;\n  \x7d\n\x7d\n".toList]

theorem isField_injector : IsField "a".toList "  __A:a.A;".toList :=
  ⟨"  ".toList, "__A".toList, [], [], "A".toList, [], rfl, by decide, by decide, isGap_nil,
    isGap_nil, by decide, isGap_nil⟩

theorem isConstruction_injector : IsConstruction "a".toList " this._B = new a.B();".toList := by
  refine ⟨" ".toList, "_B".toList, " ".toList, " ".toList, " ".toList, "B".toList, [], [], [], ?_,
    by decide, by decide, isGap_space, isGap_space, ⟨by decide, isGap_space⟩, by decide, isGap_nil,
    by decide, isGap_nil⟩
  -- The kernel takes long to decode a text, so texts are rewritten to their characters, here and
  -- below.
  repeat rewrite [String.toList_ofList]
  rfl

theorem isStatement_injector :
    Part.statement.IsForm "a".toList " this._B = new a.B();".toList :=
  ⟨isConstruction_injector, ((isSolid_literal (by decide)).append_right
    accessorHead).find?_eq_none _ |>.1 (by decide +kernel)⟩

theorem isLookup_injector :
    IsLookup "a".toList "    if ((token === a.A)) \x7b return this._A; \x7d".toList := by
  refine ⟨"    ".toList, " ".toList, [], " ".toList, " ".toList, "A".toList, [], " ".toList,
    " ".toList, "return this._A; \x7d".toList, ?_, by decide, isGap_space, isGap_nil, isGap_space,
    isGap_space, by decide, isGap_nil, isGap_space, isGap_space, " ".toList, "_A".toList, [],
    " ".toList, rfl, ⟨by decide, isGap_space⟩, by decide, isGap_nil, isGap_space⟩
  repeat rewrite [String.toList_ofList]
  rfl

theorem isAccessor_injector : IsAccessor "a".toList "_A".toList injectorAccessor := by
  refine ⟨_, _, rfl, ?_, ?_⟩
  · exact ⟨"  ".toList, " ".toList, [], [], [], ":a.A ".toList, rfl, by decide,
      ⟨by decide, isGap_space⟩, by decide, isGap_nil, isGap_nil, isGap_nil,
      .inr ⟨[], "a.A".toList, " ".toList, rfl, isGap_nil, by decide, isGap_space⟩⟩
  · refine ⟨"\n    if (!this.__A) \x7b this.__A = ".toList, "new a.".toList, "A".toList,
      "(this._App); \x7d\n    ".toList, "return this.__A;\n  \x7d".toList, ?_, by decide,
      ⟨" ".toList, rfl, by decide, isGap_space⟩, by decide +kernel, by decide, by decide,
      ⟨" ".toList, "__A".toList, [], "\n  ".toList, rfl, ⟨by decide, isGap_space⟩, by decide,
        isGap_nil, by decide⟩, by decide +kernel⟩
    repeat rewrite [String.toList_ofList]
    rfl

theorem isRow_injectorRow : IsRow "a".toList injectorRow := by
  refine ⟨fun part text h => ?_, fun part => ?_⟩
  · simp only [injectorRow, List.mem_cons, Chunk.code.injEq, reduceCtorEq, false_or, or_false,
      List.not_mem_nil] at h
    rcases h with ⟨rfl, rfl⟩ | ⟨rfl, rfl⟩ | ⟨rfl, rfl⟩ | ⟨rfl, rfl⟩
    · refine ⟨_, [], "\r\n".toList, ?_, isField_injector, by decide, .inl (.inr rfl)⟩
      repeat rewrite [String.toList_ofList]
      rfl
    · exact ⟨_, [], ['\n'], rfl, ⟨_, isAccessor_injector⟩, by decide, .inl (.inl rfl)⟩
    · refine ⟨_, " ".toList, [], ?_, isStatement_injector, by decide, .inr rfl⟩
      repeat rewrite [String.toList_ofList]
      rfl
    · refine ⟨_, [], "\n".toList, ?_, isLookup_injector, by decide, .inl (.inl rfl)⟩
      repeat rewrite [String.toList_ofList]
      rfl
  · unfold injectorRow injectorAccessor
    repeat rewrite [String.toList_ofList]
    cases part <;> decide +kernel

/-- All the code of a service goes, and nothing else does, also in the middle of a line. -/
theorem withoutController_row_injector :
    let content := "import * as a from './x';\n".toList ++ injectorRow.flatMap Chunk.chars
    IsRow "a".toList injectorRow ∧ NamesApart (injectorRow.filterMap Chunk.other?)
      ∧ removeImport "/f.js" "/x.js" content
        = some (injectorRow.flatMap Chunk.chars, "a".toList)
      ∧ withoutController "/f.js" (String.ofList content) "/x.js"
        = String.ofList (remains injectorRow)
      ∧ (Refers "a".toList (remains injectorRow)
        ↔ ∃ text, .other text ∈ injectorRow ∧ Refers "a".toList text)
      ∧ ∀ field, IsName field → (Mentions ("this.".toList ++ field) (remains injectorRow)
        ↔ ∃ text, .other text ∈ injectorRow ∧ Mentions ("this.".toList ++ field) text) := by
  intro content
  have found : removeImport "/f.js" "/x.js" content
      = some (injectorRow.flatMap Chunk.chars, "a".toList) := by
    unfold content injectorRow injectorAccessor
    repeat rewrite [String.toList_ofList]
    decide +kernel
  have apart : NamesApart (injectorRow.filterMap Chunk.other?) := by
    unfold injectorRow injectorAccessor
    repeat rewrite [String.toList_ofList]
    decide +kernel
  obtain ⟨remains_, named⟩ := withoutController_row isRow_injectorRow found
  exact ⟨isRow_injectorRow, apart, found, remains_, named apart⟩

/-- A class of the module in a list and a field of the service that another one takes are left. -/
theorem withoutController_dangles :
    let listed := "import * as a from './x';\nf([a.A]);\n"
    let taken := "import * as a from './x';\nclass M \x7b\n  get _A() \x7b this.__A = new a.A(); return this.__A; \x7d\n"
      ++ "  get _B() \x7b return new b.B(this._A); \x7d\n\x7d\n"
    (removeImport "/f.js" "/x.js" listed.toList).map (·.2) = some "a".toList
      ∧ Refers "a".toList (withoutController "/f.js" listed "/x.js").toList
      ∧ (removeImport "/f.js" "/x.js" taken.toList).map (·.2) = some "a".toList
      ∧ withoutController "/f.js" taken "/x.js"
        = "class M \x7b\n  get _B() \x7b return new b.B(this._A); \x7d\n\x7d\n"
      ∧ Mentions "this._A".toList (withoutController "/f.js" taken "/x.js").toList := by
  intro listed taken
  have chars : taken.toList = _ :=
    String.toList_append.trans (congrArg₂ _ String.toList_ofList String.toList_ofList)
  have left : Refers "a".toList (withoutController "/f.js" listed "/x.js").toList := by
    simp only [listed]
    rw [withoutController_ofList, String.toList_ofList]
    decide +kernel
  have found : (removeImport "/f.js" "/x.js" taken.toList).map (·.2) = some "a".toList := by
    rw [chars]
    decide +kernel
  have purged : withoutController "/f.js" taken "/x.js"
      = "class M \x7b\n  get _B() \x7b return new b.B(this._A); \x7d\n\x7d\n" := by
    rw [withoutController, chars]
    decide +kernel
  refine ⟨by decide +kernel, left, found, purged, ?_⟩
  rw [purged]
  exact ⟨"class M \x7b\n  get _B() \x7b return new b.B(".toList, "); \x7d\n\x7d\n".toList, by decide +kernel,
    by decide, by decide⟩

end RouteTrim.Purge
