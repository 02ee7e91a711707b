import RouteTrim.Proofs.Purge.Controller
import RouteTrim.Proofs.Purge.Reference

/-!
# The shapes of a service's code

The code that is purged with a service is laid out by a compiler, but the passes take it in any
spacing and with any other text in the places that they leave open. Here each shape is described as
such, and what has a shape is cut to the end of its line (`cuts_of_isCode`). The accessor is the one
whose end has to be searched for: it goes from its head to the first place that makes something of
the module and on to the first return of a field behind that (`IsAccessor`).
-/

set_option autoImplicit false

namespace RouteTrim.Purge

open Pattern
open RouteTrim.Text (isBlank)

/-! ## What stands in front of the alias -/

theorem getLast?_mark {mark : Char} {gap : List Char} (hmark : continuesName mark = false)
    (hgap : IsGap gap) (front : List Char) :
    ∃ d ∈ (front ++ mark :: gap).getLast?, continuesName d = false := by
  rcases gap.eq_nil_or_concat with rfl | ⟨gap, d, rfl⟩
  · exact ⟨mark, by simp, hmark⟩
  · have last : (front ++ mark :: gap.concat d).getLast? = some d := by
      rw [List.concat_eq_append, ← List.cons_append, ← List.append_assoc, List.getLast?_concat]
    exact ⟨d, last, continuesName_of_isBlank (hgap d (by simp))⟩

theorem getLast?_gap {gap : List Char} (hgap : gap ≠ [] ∧ IsGap gap) (front : List Char) :
    ∃ d ∈ (front ++ gap).getLast?, continuesName d = false := by
  obtain ⟨c, gap, rfl⟩ := List.exists_cons_of_ne_nil hgap.1
  exact getLast?_mark (continuesName_of_isBlank (hgap.2 c (by simp))) (fun d hd => hgap.2 d (by simp [hd])) front

section Parts

variable {moduleAlias behind stretch : List Char}

/-- A construction names the module behind an equals sign and `new`, and ends at the next
semicolon. -/
theorem IsConstruction.parts (h : IsConstruction moduleAlias stretch) :
    ∃ front gap gap' inner, stretch = (front ++ '=' :: (gap ++ ("new".toList ++ gap')))
        ++ (moduleAlias ++ '.' :: (inner ++ [';']))
      ∧ '\x7d' ∉ front ∧ IsGap gap ∧ (gap' ≠ [] ∧ IsGap gap') ∧ ';' ∉ inner := by
  obtain ⟨run, field, gap₁, gap₂, gap₃, className, gap₄, inner, gap₅, rfl, hrun,
    hfield, hgap₁, hgap₂, hgap₃, hclass, hgap₄, hinner, hgap₅⟩ := h
  refine ⟨run ++ ("this.".toList ++ (field ++ gap₁)), gap₂, gap₃, className ++ (gap₄ ++ ("(".toList
    ++ (inner ++ (")".toList ++ gap₅)))), by simp only [List.append_assoc, List.cons_append]; rfl, ?_,
    hgap₂, hgap₃, ?_⟩
  · simp only [List.mem_append, not_or]
    exact ⟨not_mem_of_plain (plain_spaces hrun) (by decide), by decide, hfield.not_mem (by decide),
      hgap₁.not_mem (by decide)⟩
  · simp only [List.mem_append, not_or]
    exact ⟨hclass.not_mem (by decide), hgap₄.not_mem (by decide), by decide, hinner, by decide,
      hgap₅.not_mem (by decide)⟩

theorem IsLookup.parts (h : IsLookup moduleAlias stretch) :
    ∃ front gap inner, stretch = (front ++ '=' :: gap)
      ++ (moduleAlias ++ '.' :: (inner ++ ['\x7d'])) ∧ '\x7d' ∉ front
      ∧ IsGap gap ∧ '(' ∉ inner := by
  obtain ⟨run, gap₁, gap₂, gap₃, gap₄, className, gap₅, gap₆, gap₇, _, rfl, hrun,
    hgap₁, hgap₂, hgap₃, hgap₄, hclass, hgap₅, hgap₆, hgap₇, gap₈, field, gap₉, gap₁₀, rfl, hgap₈,
    hfield, hgap₉, hgap₁₀⟩ := h
  refine ⟨run ++ ("if".toList ++ (gap₁ ++ ("((".toList ++ (gap₂ ++ ("token".toList ++ (gap₃
    ++ "==".toList)))))), gap₄, className ++ (gap₅ ++ ("))".toList ++ (gap₆
      ++ ("\x7b".toList ++ (gap₇ ++ ("return".toList ++ (gap₈ ++ ("this.".toList ++ (field
        ++ (gap₉ ++ (";".toList ++ gap₁₀))))))))))),
        by simp only [List.append_assoc, List.cons_append]; rfl, ?_, hgap₄, ?_⟩
  · simp only [List.mem_append, not_or]
    exact ⟨not_mem_of_plain (plain_spaces hrun) (by decide), by decide,
      hgap₁.not_mem (by decide), by decide, hgap₂.not_mem (by decide), by decide,
      hgap₃.not_mem (by decide), by decide⟩
  · simp only [List.mem_append, not_or]
    exact ⟨hclass.not_mem (by decide), hgap₅.not_mem (by decide), by decide,
      hgap₆.not_mem (by decide), by decide, hgap₇.not_mem (by decide), by decide,
      IsGap.not_mem hgap₈.2 (by decide), by decide, hfield.not_mem (by decide),
      hgap₉.not_mem (by decide), by decide, hgap₁₀.not_mem (by decide)⟩

theorem IsField.parts (h : IsField moduleAlias stretch) :
    ∃ front gap inner, stretch = (front ++ ':' :: gap) ++ (moduleAlias ++ '.' :: (inner ++ [';']))
      ∧ '\x7d' ∉ front ∧ IsGap gap ∧ '(' ∉ inner := by
  obtain ⟨run, field, gap₁, gap₂, className, gap₃, rfl, hrun, hfield, hgap₁,
    hgap₂, hclass, hgap₃⟩ := h
  refine ⟨run ++ (field ++ gap₁), gap₂, className ++ gap₃,
    by simp only [List.append_assoc, List.cons_append]; rfl, ?_, hgap₂, ?_⟩
  · simp only [List.mem_append, not_or]
    exact ⟨not_mem_of_plain (plain_spaces hrun) (by decide), hfield.not_mem (by decide),
      hgap₁.not_mem (by decide)⟩
  · simp only [List.mem_append, not_or]
    exact ⟨hclass.not_mem (by decide), hgap₃.not_mem (by decide)⟩

/-- Whatever is cut for a service names its module, as a name of its own and before a block
closes. -/
theorem Part.of_describes {part : Part} (h : (part.pattern moduleAlias).Describes behind stretch) :
    ∃ lead tail, stretch = lead ++ (moduleAlias ++ '.' :: tail) ∧ '\x7d' ∉ lead
      ∧ ∃ d ∈ lead.getLast?, continuesName d = false := by
  cases part with
  | accessor =>
    obtain ⟨run, gap, middle, inner, gap', tail, rfl, hrun, hgap, hmiddle, hinner, hgap'⟩ :=
      of_describes_accessor h
    refine ⟨(run ++ ("get".toList ++ (gap ++ (middle ++ ("\x7b".toList ++ (inner
      ++ "new".toList)))))) ++ gap', tail, by simp only [List.append_assoc],
      ?_, getLast?_gap hgap' _⟩
    simp only [List.mem_append, not_or]
    exact ⟨⟨not_mem_of_plain (plain_spaces hrun) (by decide), by decide,
      IsGap.not_mem hgap.2 (by decide), not_mem_of_plain hmiddle (by decide), by decide, hinner,
      by decide⟩, IsGap.not_mem hgap'.2 (by decide)⟩
  | statement =>
    obtain ⟨s, line, hs, -, rfl⟩ := h
    obtain ⟨front, gap, gap', inner, rfl, hfront, hgap, hgap', -⟩ :=
      (describes_constructionHead.1 hs).parts
    refine ⟨(front ++ '=' :: (gap ++ "new".toList)) ++ gap', inner ++ ';' :: line,
      by simp only [List.append_assoc, List.cons_append, List.nil_append], ?_, getLast?_gap hgap' _⟩
    simp only [List.mem_append, List.mem_cons, not_or]
    exact ⟨⟨hfront, by decide, hgap.not_mem (by decide), by decide⟩,
      IsGap.not_mem hgap'.2 (by decide)⟩
  | lookup =>
    obtain ⟨s, line, hs, -, rfl⟩ := h
    obtain ⟨front, gap, inner, rfl, hfront, hgap, -⟩ := (describes_lookupHead.1 hs).parts
    refine ⟨front ++ '=' :: gap, inner ++ '\x7d' :: line, by simp only [List.append_assoc, List.cons_append,
      List.nil_append], ?_, getLast?_mark (by decide) hgap _⟩
    simp only [List.mem_append, List.mem_cons, not_or]
    exact ⟨hfront, by decide, hgap.not_mem (by decide)⟩
  | field =>
    obtain ⟨s, line, hs, -, rfl⟩ := h
    obtain ⟨front, gap, inner, rfl, hfront, hgap, -⟩ := (describes_fieldHead.1 hs).parts
    refine ⟨front ++ ':' :: gap, inner ++ ';' :: line, by simp only [List.append_assoc, List.cons_append,
      List.nil_append], ?_, getLast?_mark (by decide) hgap _⟩
    simp only [List.mem_append, List.mem_cons, not_or]
    exact ⟨hfront, by decide, hgap.not_mem (by decide)⟩

theorem Part.isSolid (part : Part)
    (moduleAlias : List Char) : (part.pattern moduleAlias).IsSolid := by
  intro behind h
  obtain ⟨lead, tail, same, -⟩ := Part.of_describes h
  simp at same

end Parts

/-! ## Code of a service -/

/-- Code of a kind, in the shape that its pass looks for. A construction holds no accessor. -/
def Part.IsForm (moduleAlias : List Char) : Part → List Char → Prop
  | accessor, text => ∃ field, IsAccessor moduleAlias field text
  | statement, text => IsConstruction moduleAlias text
      ∧ ¬ (accessorHead ++ literal "\x7b").Occurs text
  | lookup, text => IsLookup moduleAlias text
  | field, text => IsField moduleAlias text

/-- A text ends its last line, or what stands behind it neither goes on with spaces nor ends the
line. -/
def EndsLine (text rest : List Char) : Prop :=
  text.getLast? = some '\n' ∨ afterLine rest = rest

instance (text rest : List Char) : Decidable (EndsLine text rest) :=
  inferInstanceAs (Decidable (_ ∨ _))

/-- Code of a kind, with the rest of its last line. -/
def IsCode (moduleAlias : List Char) (part : Part) (text : List Char) : Prop :=
  ∃ stretch run feed, text = stretch ++ (run ++ feed)
    ∧ part.IsForm moduleAlias stretch ∧ IsSpaces run ∧ (IsLineEnd feed ∨ feed = [])

section Code

variable {moduleAlias text stretch behind rest : List Char} {part : Part}

/-- Code of each kind ends in a semicolon or a brace. -/
theorem Part.IsForm.closes (h : part.IsForm moduleAlias stretch) :
    ∃ body mark, stretch = body ++ [mark] ∧ (mark = ';' ∨ mark = '\x7d') := by
  cases part with
  | accessor =>
    obtain ⟨field, head, _, rfl, -, inner, making, className, between, result, rfl, -, -, -,
      -, -, hresult, -⟩ := h
    obtain ⟨body, rfl, -⟩ := hresult.closes
    exact ⟨head ++ ("\x7b".toList ++ (inner ++ (making ++ (className ++ (between ++ body))))), '\x7d',
      by simp only [List.append_assoc], .inr rfl⟩
  | statement =>
    obtain ⟨front, gap, gap', inner, rfl, -⟩ := h.1.parts
    exact ⟨_, ';', by simp only [← List.append_assoc, ← List.cons_append]; rfl, .inl rfl⟩
  | lookup =>
    obtain ⟨front, gap, inner, rfl, -⟩ := IsLookup.parts h
    exact ⟨_, '\x7d', by simp only [← List.append_assoc, ← List.cons_append]; rfl, .inr rfl⟩
  | field =>
    obtain ⟨front, gap, inner, rfl, -⟩ := IsField.parts h
    exact ⟨_, ';', by simp only [← List.append_assoc, ← List.cons_append]; rfl, .inl rfl⟩

/-- Code of a kind is taken with the rest of its last line. -/
theorem Part.IsForm.takes {line : List Char} (h : part.IsForm moduleAlias stretch)
    (hname : IsName moduleAlias)
    (start : (∀ c ∈ behind.head?, continuesName c = false) ∨ StartsBlank stretch ∨ part ≠ .accessor)
    (hline : ∀ behind, restOfLine.Takes behind line rest) :
    (part.pattern moduleAlias).Takes behind (stretch ++ line) rest := by
  cases part with
  | accessor =>
    obtain ⟨field, h⟩ := h
    exact h.takes hname (start.imp_right fun other => other.resolve_right (· rfl)) hline
  | statement => exact h.1.takes behind rest hname hline
  | lookup => exact IsLookup.takes behind rest h hname hline
  | field => exact IsField.takes behind rest h hname hline

theorem IsCode.line (h : IsCode moduleAlias part text) (ends : EndsLine text rest) :
    ∃ stretch run feed, text = stretch ++ (run ++ feed)
      ∧ part.IsForm moduleAlias stretch ∧ IsSpaces run
      ∧ (IsLineEnd feed ∨ feed = [] ∧ afterLine rest = rest) := by
  obtain ⟨stretch, run, feed, rfl, hform, hrun, hfeed⟩ := h
  refine ⟨stretch, run, feed, rfl, hform, hrun,
    hfeed.imp_right fun nil => ⟨nil, ends.resolve_left fun last => ?_⟩⟩
  subst nil
  rw [List.append_nil] at last
  rcases run.eq_nil_or_concat with rfl | ⟨run, c, rfl⟩
  · obtain ⟨body, mark, rfl, hmark⟩ := hform.closes
    obtain rfl : mark = '\n' := by simpa using last
    exact absurd hmark (by decide)
  · rw [List.concat_eq_append, ← List.append_assoc, List.getLast?_concat] at last
    obtain rfl := Option.some.inj last
    exact absurd (hrun '\n' (by simp)) (by decide)

theorem dropWhile_spaces {run : List Char} (hrun : IsSpaces run) (text : List Char) :
    (run ++ text).dropWhile isSpace = text.dropWhile isSpace := by
  refine List.dropWhile_append_of_pos fun c hc => ?_
  rcases hrun c hc with rfl | rfl <;> rfl

/-- The rest of a line is taken up to where the next one begins. -/
theorem takes_line {run feed : List Char} (hrun : IsSpaces run)
    (hfeed : IsLineEnd feed ∨ feed = [] ∧ afterLine rest = rest) (behind : List Char) :
    restOfLine.Takes behind (run ++ feed) rest := by
  rcases hfeed with hfeed | ⟨rfl, goesOn⟩
  · exact takes_restOfLine hrun (.inl hfeed)
  · obtain ⟨line, same, takes⟩ := line_ends (run ++ rest)
    have after : afterLine (run ++ rest) = rest := by
      rw [afterLine, dropWhile_spaces hrun]
      exact goesOn
    rw [after] at same takes
    rw [List.append_nil, List.append_cancel_right same]
    exact takes behind

theorem cuts_of_isCode (h : IsCode moduleAlias part text) (hname : IsName moduleAlias)
    (start : (∀ c ∈ behind.head?, continuesName c = false) ∨ StartsBlank text ∨ part ≠ .accessor)
    (ends : EndsLine text rest) : (part.pattern moduleAlias).Cuts behind text rest := by
  obtain ⟨stretch, run, feed, rfl, hform, hrun, hfeed⟩ := h.line ends
  have hne : stretch ≠ [] := by
    obtain ⟨body, mark, rfl, -⟩ := hform.closes
    simp
  have start := start.imp_right fun other => other.imp_left fun blank => blank.of_append hne
  exact (hform.takes hname start (takes_line hrun hfeed)).cuts (by simp [hne])

end Code

end RouteTrim.Purge
