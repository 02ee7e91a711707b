import RouteTrim.Proofs.Purge.Border
import RouteTrim.Proofs.Purge.Usage

/-!
# Imports under an alias

The rewrites of the compiled factory start at the import of a module and go on with the alias that
it gives. An import is cut with the end of its line and its alias is the one that is written there
(`IsImportAs.cuts`, `IsImportAs.aliasAt`); what `removeImport` finds is such an import and nothing
else (`removeImport_eq_some`), and the first one is found (`removeImport_of_first`).
-/

set_option autoImplicit false

namespace RouteTrim.Purge

open Pattern
open RouteTrim.Path (WorkingFolder)
open RouteTrim.Text (isBlank)

/-! ## The form of an import -/

/-- An import of a module under an alias, up to the quote that closes it. -/
def IsImportAs (specifier : String) (moduleAlias stretch : List Char) : Prop :=
  ∃ gap₁ gap₂ gap₃ gap₄ gap₅ quote,
    stretch = "import".toList ++ gap₁ ++ ['*'] ++ gap₂ ++ "as".toList ++ gap₃ ++ moduleAlias
      ++ gap₄ ++ "from".toList ++ gap₅ ++ (quote :: specifier.toList ++ [quote])
    ∧ IsGap gap₁ ∧ IsGap gap₂ ∧ (gap₃ ≠ [] ∧ IsGap gap₃) ∧ IsName moduleAlias
    ∧ (gap₄ ≠ [] ∧ IsGap gap₄) ∧ IsGap gap₅ ∧ (quote = '\'' ∨ quote = '"')

theorem isAliasedImport_iff {specifier : String} {stretch : List Char} :
    IsAliasedImport specifier stretch
      ↔ ∃ moduleAlias, IsImportAs specifier moduleAlias stretch := by
  constructor
  · rintro ⟨gap₁, gap₂, gap₃, moduleAlias, gap₄, gap₅, quote, h⟩
    exact ⟨moduleAlias, gap₁, gap₂, gap₃, gap₄, gap₅, quote, h⟩
  · rintro ⟨moduleAlias, gap₁, gap₂, gap₃, gap₄, gap₅, quote, h⟩
    exact ⟨gap₁, gap₂, gap₃, moduleAlias, gap₄, gap₅, quote, h⟩

section Form

variable {specifier : String} {moduleAlias stretch behind rest : List Char}

/-- An import has a quoted specifier behind a text of names, blanks and a star, which ends in `from`
and blanks. -/
theorem IsImportAs.quoted (h : IsImportAs specifier moduleAlias stretch) :
    ∃ front quote, stretch = front ++ quote :: (specifier.toList ++ [quote])
      ∧ (∀ c ∈ front, isNameChar c = true ∨ isBlank c = true ∨ c = '*') ∧ front.head? = some 'i'
      ∧ (quote = '\'' ∨ quote = '"') := by
  obtain ⟨gap₁, gap₂, gap₃, gap₄, gap₅, quote, rfl, hgap₁, hgap₂, hgap₃, halias,
    hgap₄, hgap₅, hquote⟩ := h
  have gap {text : List Char} (h : IsGap text) :
      ∀ c ∈ text, isNameChar c = true ∨ isBlank c = true ∨ c = '*' :=
        fun c hc => .inr (.inl (h c hc))
  refine ⟨"import".toList ++ (gap₁ ++ (['*'] ++ (gap₂ ++ ("as".toList ++ (gap₃ ++ (moduleAlias
    ++ (gap₄ ++ ("from".toList ++ gap₅)))))))), quote, by simp, ?_, rfl, hquote⟩
  simp only [List.forall_mem_append]
  exact ⟨by decide, gap hgap₁, by decide, gap hgap₂, by decide, gap hgap₃.2,
    fun c hc => .inl (halias.2 c hc), gap hgap₄.2, by decide, gap hgap₅⟩

/-- What stands in front of the specifier of an import is no quote. -/
theorem unquoted_of_opening {c : Char} (h : isNameChar c = true ∨ isBlank c = true ∨ c = '*') :
    ¬ (c = '\'' ∨ c = '"') := by
  rintro (rfl | rfl) <;> exact absurd h (by decide)

theorem of_describes_aliasedImport (h : (aliasedImport specifier).Describes behind stretch) :
    ∃ moduleAlias head tail, stretch = head ++ tail ∧ (∀ c ∈ behind.head?, continuesName c = false)
      ∧ IsImportAs specifier moduleAlias head
          ∧ statementEnd.Describes (head.reverse ++ behind) tail := by
  obtain ⟨head, tail, hhead, htail, rfl⟩ := describes_aliasedImport.1 h
  obtain ⟨start, isImport⟩ := describes_aliasedHead.1 hhead
  obtain ⟨moduleAlias, isImport⟩ := isAliasedImport_iff.1 isImport
  exact ⟨moduleAlias, head, tail, rfl, start, isImport, htail⟩

theorem quoted_of_describes_aliasedImport (h : (aliasedImport specifier).Describes behind stretch) :
    ∃ front quote more, stretch = front ++ quote :: (specifier.toList ++ quote :: more)
      ∧ (∀ c ∈ front, ¬ (c = '\'' ∨ c = '"')) ∧ front.head? = some 'i'
      ∧ (quote = '\'' ∨ quote = '"') := by
  obtain ⟨moduleAlias, head, tail, rfl, -, isImport, -⟩ := of_describes_aliasedImport h
  obtain ⟨front, quote, rfl, hfront, start, hquote⟩ := isImport.quoted
  exact ⟨front, quote, tail, by simp, fun c hc => unquoted_of_opening (hfront c hc), start, hquote⟩

/-- An import starts nowhere in a text without its first letter. -/
theorem skips_aliasedImport_of_not_mem {piece : List Char} (h : 'i' ∉ piece)
    (behind rest : List Char) : (aliasedImport specifier).Skips behind piece rest := by
  rintro front back rfl hback stretch more same hs
  obtain ⟨front', quote, more', rfl, -, start, -⟩ := quoted_of_describes_aliasedImport hs
  obtain ⟨c, back, rfl⟩ := List.exists_cons_of_ne_nil hback
  obtain ⟨front', rfl⟩ := List.head?_eq_some_iff.1 start
  obtain rfl : c = 'i' := (List.cons.inj same).1
  exact h (by simp)

theorem IsImportAs.aliasAt (h : IsImportAs specifier moduleAlias stretch)
    (start : ∀ c ∈ behind.head?, continuesName c = false) (rest : List Char) :
    aliasAt ⟨behind, stretch ++ rest⟩ = moduleAlias := by
  obtain ⟨gap₁, gap₂, gap₃, gap₄, gap₅, quote, rfl, hgap₁, hgap₂, hgap₃, halias, hgap₄, -⟩ := h
  let opening := [] ++ "import".toList ++ gap₁ ++ "*".toList ++ gap₂ ++ "as".toList ++ gap₃
  let tail := gap₄ ++ ("from".toList ++ (gap₅ ++ (quote :: specifier.toList ++ [quote] ++ rest)))
  have cuts : importHead.Cuts behind opening (moduleAlias ++ tail) := by
    refine Takes.cuts (.append (.append (.append (.append (.append (.append (takes_nameStart start _)
      (takes_literal "import" _ _)) (takes_many hgap₁ ?_)) (takes_literal "*" _ _))
        (takes_many hgap₂ ?_)) (takes_literal "as" _ _))
          (takes_oneOrMore hgap₃.1 hgap₃.2 (halias.head_not_blank tail))) (by simp [opening])
    · exact fun c hc => Option.some.inj hc ▸ by decide
    · exact fun c hc => Option.some.inj hc ▸ by decide
  have blank : ∀ c ∈ tail.head?, isNameChar c = false := by
    obtain ⟨c, gap, rfl⟩ := List.exists_cons_of_ne_nil hgap₄.1
    exact fun d hd => Option.some.inj hd ▸ isNameChar_of_isBlank (hgap₄.2 c (by simp))
  have line : ("import".toList ++ gap₁ ++ ['*'] ++ gap₂ ++ "as".toList ++ gap₃ ++ moduleAlias ++ gap₄
      ++ "from".toList ++ gap₅ ++ (quote :: specifier.toList ++ [quote])) ++ rest
      = opening ++ (moduleAlias ++ tail) := by
    simp only [opening, tail, List.append_assoc, List.nil_append, List.cons_append]
    rfl
  rw [Purge.aliasAt, line, cuts]
  show (moduleAlias ++ tail).takeWhile isNameChar = moduleAlias
  rw [List.takeWhile_append_of_pos halias.2]
  cases htail : tail with
  | nil => simp
  | cons c tail => rw [List.takeWhile_cons_of_neg (by simp [blank c (by simp [htail])]), List.append_nil]

theorem IsImportAs.takes {ending : List Char} (h : IsImportAs specifier moduleAlias stretch)
    (start : ∀ c ∈ behind.head?, continuesName c = false)
    (ends : statementEnd.Takes (stretch.reverse ++ behind) ending rest) :
    (aliasedImport specifier).Takes behind (stretch ++ ending) rest := by
  have takesHead : (aliasedHead specifier).Takes behind stretch (ending ++ rest) := by
    refine takes_of_unique (describes_aliasedHead.2 ⟨start, isAliasedImport_iff.2 ⟨_, h⟩⟩)
      fun s more same hs => ?_
    obtain ⟨other, hs⟩ := isAliasedImport_iff.1 (describes_aliasedHead.1 hs).2
    obtain ⟨front, quote, rfl, hfront, -, hquote⟩ := h.quoted
    obtain ⟨front', quote', rfl, hfront', -, hquote'⟩ := hs.quoted
    simp only [List.append_assoc, List.cons_append] at same
    obtain ⟨rfl, rfl, -⟩ := first_unique (p := fun c => c = '\'' ∨ c = '"')
      (fun c hc => unquoted_of_opening (hfront c hc)) (fun c hc => unquoted_of_opening (hfront' c hc))
      hquote hquote' same
    rfl
  exact .of_ends (ends_append_assoc _ _ _ · |>.symm) (takesHead.append ends)

theorem IsImportAs.ne_nil (h : IsImportAs specifier moduleAlias stretch) : stretch ≠ [] := by
  obtain ⟨front, quote, rfl, -⟩ := h.quoted
  simp

theorem IsImportAs.cuts {ending : List Char} (h : IsImportAs specifier moduleAlias stretch)
    (start : ∀ c ∈ behind.head?, continuesName c = false) (isEnding : IsEnding ending)
    (ends : '\n' ∈ ending ∨ rest = []) :
    (aliasedImport specifier).Cuts behind (stretch ++ ending) rest :=
  (h.takes start (takes_statementEnd isEnding ends)).cuts (by simp [h.ne_nil])

end Form

/-! ## The end of a statement -/

/-- Whether a character is a blank within a line. -/
def isSpace (c : Char) : Bool :=
  c == ' ' || c == '\t'

/-- A text without the semicolon that it may begin with. -/
def afterSemicolon : List Char → List Char
  | ';' :: text => text
  | text => text

def afterLineEnd : List Char → List Char
  | '\n' :: text => text
  | '\r' :: '\n' :: text => text
  | text => text

theorem spaces_end (text : List Char) :
    ∃ run, text = run ++ text.dropWhile isSpace
      ∧ ∀ behind, spaces.Takes behind run (text.dropWhile isSpace) := by
  refine ⟨text.takeWhile isSpace, List.takeWhile_append_dropWhile.symm, fun behind =>
    takes_many (fun c hc => ?_) fun c hc => ?_⟩
  · exact List.all_eq_true.1 List.all_takeWhile c hc
  · have stops := List.head?_dropWhile_not isSpace text
    rw [Option.mem_def.1 hc] at stops
    exact stops

theorem semicolon_ends (text : List Char) :
    ∃ mark, text = mark ++ afterSemicolon text
      ∧ ∀ behind, (maybe (literal ";")).Takes behind mark (afterSemicolon text) := by
  rw [afterSemicolon.eq_def]
  split
  · exact ⟨[';'], rfl, fun behind => (takes_literal ";" _ _).either_left nothing⟩
  · next text none_ =>
    refine ⟨[], rfl, fun behind => .either_right (fun s more same hs => ?_) (takes_nothing _ _)⟩
    obtain rfl := describes_literal.1 hs
    exact none_ more same

theorem lineEnd_ends (text : List Char) :
    ∃ feed, text = feed ++ afterLineEnd text
      ∧ ∀ behind, lineEnd.Takes behind feed (afterLineEnd text) := by
  rw [afterLineEnd.eq_def]
  split
  · exact ⟨['\n'], rfl, fun behind => takes_lineEnd (.inl rfl) _⟩
  · exact ⟨['\r', '\n'], rfl, fun behind => takes_lineEnd (.inr rfl) _⟩
  · next text feed return_ =>
    refine ⟨[], rfl, fun behind => .either_right (fun s more same hs => ?_) (takes_nothing _ _)⟩
    obtain ⟨front, back, hfront, hback, rfl⟩ := hs
    obtain rfl := describes_literal.1 hback
    rcases hfront with hfront | hfront
    · obtain rfl := describes_literal.1 hfront
      exact return_ more same
    · obtain rfl : front = [] := hfront
      exact feed more same

/-- What follows the rest of a line, as far as there is any. -/
def afterLine (text : List Char) : List Char :=
  afterLineEnd (text.dropWhile isSpace)

theorem line_ends (text : List Char) :
    ∃ line, text = line ++ afterLine text
      ∧ ∀ behind, restOfLine.Takes behind line (afterLine text) := by
  obtain ⟨run, hrun, takesRun⟩ := spaces_end text
  obtain ⟨feed, hfeed, takesFeed⟩ := lineEnd_ends (text.dropWhile isSpace)
  have tail : feed ++ afterLine text = text.dropWhile isSpace := hfeed.symm
  refine ⟨run ++ feed, by rw [List.append_assoc, tail, ← hrun],
    fun behind => .append ?_ (takesFeed _)⟩
  rw [tail]
  exact takesRun behind

/-- What follows a statement behind its semicolon and the rest of its line, as far as there are
any. -/
def afterStatement (text : List Char) : List Char :=
  afterLine (afterSemicolon (text.dropWhile isSpace))

theorem statement_ends (behind text : List Char) :
    ∃ ending, text = ending ++ afterStatement text
      ∧ statementEnd.Takes behind ending (afterStatement text) := by
  obtain ⟨run, hrun, takesRun⟩ := spaces_end text
  obtain ⟨mark, hmark, takesMark⟩ := semicolon_ends (text.dropWhile isSpace)
  obtain ⟨line, hline, takesLine⟩ := line_ends (afterSemicolon (text.dropWhile isSpace))
  have tail : line ++ afterStatement text = afterSemicolon (text.dropWhile isSpace) := hline.symm
  have whole : mark ++ (line ++ afterStatement text) = text.dropWhile isSpace := by
    rw [tail, ← hmark]
  refine ⟨run ++ mark ++ line, ?_, .append (.append ?_ ?_) (takesLine _)⟩
  · rw [List.append_assoc, List.append_assoc, whole, ← hrun]
  · rw [whole]
    exact takesRun behind
  · rw [tail]
    exact takesMark _

/-! ## Finding an import -/

section Found

variable {file module : String} {content rest moduleAlias : List Char}

theorem removeImport_eq [WorkingFolder] :
    removeImport file module content
      = ((aliasedImport (specifierOf file module)).find? content).map fun found =>
        (found.1.behind.reverse ++ found.2.ahead, aliasAt found.1) :=
  rfl

theorem removeImport_eq_some [WorkingFolder]
    (h : removeImport file module content = some (rest, moduleAlias)) :
    ∃ before statement ending after, content = before ++ (statement ++ ending) ++ after
      ∧ rest = before ++ after ∧ IsImportAs (specifierOf file module) moduleAlias statement
      ∧ ∀ c ∈ before.getLast?, continuesName c = false := by
  obtain ⟨⟨first, last⟩, found, same⟩ := Option.map_eq_some_iff.1 h
  obtain ⟨rfl, rfl⟩ := Prod.mk.inj same
  obtain ⟨front, stretch, hcontent, rfl, hs⟩ := findFrom_eq_some found
  obtain ⟨moduleAlias, head, tail, rfl, start, isImport, -⟩ := of_describes_aliasedImport hs
  have read : aliasAt ⟨front.reverse ++ [], head ++ tail ++ last.ahead⟩ = moduleAlias := by
    rw [List.append_assoc]
    exact isImport.aliasAt start _
  refine ⟨front, head, tail, last.ahead, hcontent, by simp, read ▸ isImport, fun c hc => start c ?_⟩
  rw [List.append_nil, List.head?_reverse]
  exact hc

theorem removeImport_of_first [WorkingFolder] {before statement tail : List Char}
    (isImport : IsImportAs (specifierOf file module) moduleAlias statement)
    (first : (aliasedImport (specifierOf file module)).Skips [] before (statement ++ tail))
    (start : ∀ c ∈ before.getLast?, continuesName c = false) :
    removeImport file module (before ++ (statement ++ tail))
      = some (before ++ afterStatement tail, moduleAlias) := by
  have start : ∀ c ∈ before.reverse.head?, continuesName c = false := by
    rw [List.head?_reverse]
    exact start
  obtain ⟨ending, same, ends⟩ := statement_ends (statement.reverse ++ before.reverse) tail
  have cuts : (aliasedImport (specifierOf file module)).Cuts before.reverse (statement ++ ending)
      (afterStatement tail) := (isImport.takes start ends).cuts (by simp [isImport.ne_nil])
  have text : statement ++ tail = (statement ++ ending) ++ afterStatement tail := by
    rw [List.append_assoc, ← same]
  have found := cuts.findFrom
  rw [← text] at found
  rw [removeImport_eq, find?, first.findFrom, List.append_nil, found]
  show some (before.reverse.reverse ++ afterStatement tail,
    aliasAt ⟨before.reverse, statement ++ tail⟩) = _
  rw [isImport.aliasAt start, List.reverse_reverse]

theorem isName_of_removeImport [WorkingFolder]
    (h : removeImport file module content = some (rest, moduleAlias)) :
    IsName moduleAlias := by
  obtain ⟨-, statement, -, -, -, -, isImport, -⟩ := removeImport_eq_some h
  obtain ⟨gap₁, gap₂, gap₃, gap₄, gap₅, quote, -, -, -, -, halias, -⟩ := isImport
  exact halias

end Found

end RouteTrim.Purge
