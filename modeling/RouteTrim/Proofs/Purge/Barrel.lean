import RouteTrim.Proofs.Path.Specifier
import RouteTrim.Proofs.Purge.Again
import RouteTrim.Proofs.Purge.Pieces

/-!
# A barrel statement by statement

The framework's barrel is a row of named statements, each with its lines to itself, between lines of
another kind. Purging modules from such a barrel leaves the row without their statements, whatever
the order of the modules (`withoutModules_statements`): a match never reaches from one item into
another, and a specifier that merely resembles the one of a module keeps its statement.

The patterns know no string literals. A specifier that ends in the beginning of another statement,
or the path of a module that holds a quote and a line feed behind it, can therefore make a match out
of two items (`withoutModules_across`).
-/

set_option autoImplicit false

namespace RouteTrim.Purge

open Pattern
open RouteTrim.Path (WorkingFolder)
open RouteTrim.Text (isBlank dropLeading? dropLeading?_eq_some)

/-! ## Well-formed barrels -/

/-- The words that named statements begin with. -/
def keywords : List String :=
  ["import", "export"]

/-- A named statement from the start of a line to the end of one, or of the file. -/
structure Statement where
  keyword : String
  gap : List Char
  names : List Char
  gap' : List Char
  gap'' : List Char
  quote : Char
  specifier : String
  ending : List Char
  isKeyword : keyword ∈ keywords
  blank_gap : ∀ c ∈ gap, isBlank c = true
  unbraced : ∀ c ∈ names, c ≠ '\x7b' ∧ c ≠ '\x7d'
  blank_gap' : ∀ c ∈ gap', isBlank c = true
  blank_gap'' : ∀ c ∈ gap'', isBlank c = true
  isQuote : quote = '\'' ∨ quote = '"'
  unquoted : ∀ c ∈ specifier.toList, c ≠ '\'' ∧ c ≠ '"'
  isEnding : IsEnding ending

/-- A line of another kind: what follows a word that could begin a statement is on the same line,
and it is no brace. -/
structure OtherLine where
  text : List Char
  oneLine : '\n' ∉ text.dropLast
  followed : ∀ keyword ∈ keywords, ∀ front back, text = front ++ keyword.toList ++ back →
    (∀ c ∈ front.getLast?, continuesName c = false) →
      ∃ c ∈ (back.dropWhile isBlank).head?, c ≠ '\x7b'

/-- An item of a barrel. -/
inductive Item where
  | statement (s : Statement)
  | line (l : OtherLine)

/-- The text of a statement. -/
def Statement.chars (s : Statement) : List Char :=
  s.keyword.toList ++ (s.gap ++ '\x7b' :: (s.names ++ '\x7d' :: (s.gap' ++ ("from".toList
    ++ (s.gap'' ++ s.quote :: (s.specifier.toList ++ s.quote :: s.ending))))))

namespace Item

/-- The text of an item. -/
def chars : Item → List Char
  | statement s => s.chars
  | line l => l.text

/-- The specifier of the module that an item imports or exports names from. -/
def specifier? : Item → Option String
  | statement s => some s.specifier
  | line _ => none

/-- The text of a row of items. -/
def text (items : List Item) : String :=
  String.ofList (items.flatMap chars)

end Item

/-- A text ends in the beginning of a named statement. -/
def OpensStatement (text : List Char) : Prop :=
  ∃ front, ∃ keyword ∈ keywords, ∃ gap names, text = front ++ keyword.toList
    ++ gap ++ '\x7b' :: names ∧ (∀ c ∈ front.getLast?, continuesName c = false)
    ∧ (∀ c ∈ gap, isBlank c = true) ∧ ∀ c ∈ names, c ≠ '\x7b' ∧ c ≠ '\x7d'

/-- A row of items is a barrel if each of them is on lines of its own and no specifier ends in the
beginning of a statement. -/
structure IsBarrel (items : List Item) : Prop where
  apart : items.Pairwise fun item _ => '\n' ∈ item.chars.getLast?
  settled : ∀ s, .statement s ∈ items → ¬ OpensStatement s.specifier.toList

/-- A quote in a text has no line feed behind it. -/
def QuotesOneLine (text : List Char) : Prop :=
  ∀ front quote back, text = front ++ quote :: back → quote = '\'' ∨ quote = '"' → '\n' ∉ back

theorem IsBarrel.filter {items : List Item} (h : IsBarrel items) (keep : Item → Bool) :
    IsBarrel (items.filter keep) :=
  ⟨h.apart.filter _, fun s hs => h.settled s (List.mem_of_mem_filter hs)⟩

theorem IsBarrel.borders {items front back : List Item} {item : Item} (h : IsBarrel items)
    (same : items = front ++ item :: back) :
    (∀ c ∈ (front.flatMap Item.chars).reverse.head?, c = '\n')
      ∧ ('\n' ∈ item.chars.getLast? ∨ back.flatMap Item.chars = []) := by
  obtain ⟨-, later, ends⟩ := List.pairwise_append.1 (same ▸ h.apart)
  constructor
  · intro c hc
    rw [List.head?_reverse] at hc
    rcases List.eq_nil_or_concat front with rfl | ⟨front, last, rfl⟩
    · simp at hc
    · have hlast : last.chars.getLast? = some '\n' := ends last (by simp) item (by simp)
      rw [List.concat_eq_append, List.flatMap_append, List.flatMap_singleton, List.getLast?_append,
        hlast] at hc
      exact (Option.some.inj hc).symm
  · cases back with
    | nil => exact .inr rfl
    | cons next back => exact .inl ((List.pairwise_cons.1 later).1 next (by simp))

/-! ## A statement that starts here -/

def StartsStatement (keyword specifier : String) (text : List Char) : Prop :=
  ∃ gap names gap' gap'' quote more,
    text = keyword.toList ++ (gap ++ '\x7b' :: (names ++ '\x7d' :: (gap' ++ ("from".toList
      ++ (gap'' ++ quote :: (specifier.toList ++ quote :: more))))))
    ∧ (∀ c ∈ gap, isBlank c = true) ∧ (∀ c ∈ names, c ≠ '\x7b' ∧ c ≠ '\x7d')
    ∧ (∀ c ∈ gap', isBlank c = true) ∧ (∀ c ∈ gap'', isBlank c = true)
    ∧ (quote = '\'' ∨ quote = '"')

theorem startsStatement_of_describes {keyword specifier : String} {behind stretch : List Char}
    (h : (namedStatement keyword specifier).Describes behind stretch) (more : List Char) :
    StartsStatement keyword specifier (stretch ++ more)
      ∧ ∀ c ∈ behind.head?, continuesName c = false := by
  obtain ⟨head, tail, hhead, -, rfl⟩ := h
  obtain ⟨hstart, gap, names, gap', gap'', quote, rfl, hgap, hnames, hgap', hgap'', hquote⟩ :=
    describes_namedHead.1 hhead
  exact ⟨⟨gap, names, gap', gap'', quote, tail ++ more, by simp, hgap, hnames, hgap', hgap'',
    hquote⟩, hstart⟩

/-- A named statement begins with the first letter of one of the keywords. -/
theorem StartsStatement.head {keyword specifier : String} {text : List Char} {c : Char}
    (hkeyword : keyword ∈ keywords) (h : StartsStatement keyword specifier (c :: text)) :
    c = 'i' ∨ c = 'e' := by
  obtain ⟨gap, names, gap', gap'', quote, more, same, -⟩ := h
  simp only [keywords, List.mem_cons, List.not_mem_nil, or_false] at hkeyword
  rcases hkeyword with rfl | rfl
  · exact .inl (List.cons.inj same).1
  · exact .inr (List.cons.inj same).1

theorem skips_of_not_starts {keyword specifier : String} {behind piece rest : List Char}
    (h : ∀ front back, piece = front ++ back → back ≠ [] →
      (∀ c ∈ (front.reverse ++ behind).head?, continuesName c = false) →
        ¬ StartsStatement keyword specifier (back ++ rest)) :
    (namedStatement keyword specifier).Skips behind piece rest := by
  intro front back same hback stretch more hahead hs
  obtain ⟨starts, hstart⟩ := startsStatement_of_describes hs more
  exact h front back same hback hstart (hahead ▸ starts)

theorem skips_of_heads {keyword specifier : String} {piece : List Char}
    (hkeyword : keyword ∈ keywords) (h : ∀ c ∈ piece, c ≠ 'i' ∧ c ≠ 'e') (behind rest : List Char) :
    (namedStatement keyword specifier).Skips behind piece rest := by
  refine skips_of_not_starts fun front back same hback _ starts => ?_
  obtain ⟨c, back, rfl⟩ := List.exists_cons_of_ne_nil hback
  have hc := h c (by simp [same])
  exact (starts.head hkeyword).elim hc.1 hc.2

/-! ## The parts of a statement -/

theorem not_blank {c : Char} (h : isBlank c = true) : c ≠ 'i' ∧ c ≠ 'e' := by
  constructor <;> rintro rfl <;> exact absurd h (by decide)

theorem isBlank_of_quote {quote : Char} (h : quote = '\'' ∨ quote = '"') :
    isBlank quote = false := by
  rcases h with rfl | rfl <;> decide

theorem eq_keyword {keyword keyword' : String} {text text' : List Char}
    (h : keyword ∈ keywords) (h' : keyword' ∈ keywords)
    (same : keyword.toList ++ text = keyword'.toList ++ text') :
    keyword = keyword' ∧ text = text' := by
  simp only [keywords, List.mem_cons, List.not_mem_nil, or_false] at h h'
  rcases h with rfl | rfl <;> rcases h' with rfl | rfl
  · exact ⟨rfl, List.append_cancel_left same⟩
  · exact absurd (List.cons.inj same).1 (by decide)
  · exact absurd (List.cons.inj same).1 (by decide)
  · exact ⟨rfl, List.append_cancel_left same⟩

theorem from_append (text : List Char) : "from".toList ++ text = 'f' :: ("rom".toList ++ text) :=
  rfl

/-- Two statements that start at the same place agree up to the specifier. -/
theorem Statement.parts_eq (s : Statement) {keyword : String}
    {gap names gap' gap'' text rest : List Char}
    {quote : Char} (hkeyword : keyword ∈ keywords) (hgap : ∀ c ∈ gap, isBlank c = true)
    (hnames : ∀ c ∈ names, c ≠ '\x7b' ∧ c ≠ '\x7d') (hgap' : ∀ c ∈ gap', isBlank c = true)
    (hgap'' : ∀ c ∈ gap'', isBlank c = true) (hquote : quote = '\'' ∨ quote = '"')
    (same : s.chars ++ rest = keyword.toList ++ (gap ++ '\x7b' :: (names ++ '\x7d' :: (gap'
      ++ ("from".toList ++ (gap'' ++ quote :: text)))))) :
    (s.keyword = keyword ∧ s.gap = gap ∧ s.names = names ∧ s.gap' = gap' ∧ s.gap'' = gap''
      ∧ s.quote = quote) ∧ s.specifier.toList ++ s.quote :: (s.ending ++ rest) = text := by
  have blank {run : List Char} (h : ∀ c ∈ run, isBlank c = true) : ∀ c ∈ run, ¬ isBlank c = false :=
    fun c hc => by simp [h c hc]
  simp only [Statement.chars, List.append_assoc, List.cons_append] at same
  obtain ⟨keyword_eq, same⟩ := eq_keyword s.isKeyword hkeyword same
  obtain ⟨gap_eq, -, same⟩ :=
    first_unique (blank s.blank_gap) (blank hgap) (by decide) (by decide) same
  obtain ⟨names_eq, -, same⟩ := first_unique (p := (· = '\x7d')) (fun c hc => (s.unbraced c hc).2)
    (fun c hc => (hnames c hc).2) rfl rfl same
  rw [from_append, from_append] at same
  obtain ⟨gap'_eq, -, same⟩ :=
    first_unique (blank s.blank_gap') (blank hgap') (by decide) (by decide)
    same
  obtain ⟨gap''_eq, quote_eq, same⟩ := first_unique (blank s.blank_gap'') (blank hgap'')
    (isBlank_of_quote s.isQuote) (isBlank_of_quote hquote) (List.append_cancel_left same)
  exact ⟨⟨keyword_eq, gap_eq, names_eq, gap'_eq, gap''_eq, quote_eq⟩, same⟩

/-! ## A statement of another module -/

section OtherModule

variable {keyword specifier : String} {behind rest : List Char}

theorem plain_of_blank_or_letter {c : Char} (h : isBlank c = true ∨ c.isAlpha = true) :
    (c ≠ '\x7b' ∧ c ≠ '\x7d') ∧ c ≠ '\'' ∧ c ≠ '"' := by
  refine ⟨⟨?_, ?_⟩, ?_, ?_⟩ <;> rintro rfl <;> exact absurd h (by decide)

theorem isAlpha_of_mem_keyword {c : Char} (hkeyword : keyword ∈ keywords)
    (hc : c ∈ keyword.toList) :
    c.isAlpha = true := by
  simp only [keywords, List.mem_cons, List.not_mem_nil, or_false] at hkeyword
  rcases hkeyword with rfl | rfl <;> revert c <;> decide

/-- A keyword and the blanks behind it hold neither braces nor quotes. -/
theorem plain_opening {gap : List Char} (hkeyword : keyword ∈ keywords)
    (hgap : ∀ c ∈ gap, isBlank c = true) {c : Char} (hc : c ∈ keyword.toList ++ gap) :
    (c ≠ '\x7b' ∧ c ≠ '\x7d') ∧ c ≠ '\'' ∧ c ≠ '"' := by
  rcases List.mem_append.1 hc with hc | hc
  · exact plain_of_blank_or_letter (.inr (isAlpha_of_mem_keyword hkeyword hc))
  · exact plain_of_blank_or_letter (.inl (hgap c hc))

theorem Statement.skips_names (s : Statement) (hkeyword : keyword ∈ keywords) :
    (namedStatement keyword specifier).Skips behind s.names ('\x7d' :: rest) := by
  refine skips_of_not_starts fun front back same _ _ starts => ?_
  obtain ⟨gap, names, gap', gap'', quote, more, same', hgap, -⟩ := starts
  rw [← List.append_assoc] at same'
  have closes := first_unique (p := fun c => c = '\x7b' ∨ c = '\x7d')
    (fun c hc => not_or.2 (s.unbraced c (by simp [same, hc])))
    (fun c hc => not_or.2 (plain_opening hkeyword hgap hc).1) (.inr rfl) (.inl rfl) same'
  exact absurd closes.2.1 (by decide)

/-- No statement starts in a specifier that does not end in the beginning of one: its own specifier
would start behind the closing quote. -/
theorem Statement.skips_specifier (s : Statement) (hkeyword : keyword ∈ keywords)
    (dot : specifier.toList.head? = some '.') (settled : ¬ OpensStatement s.specifier.toList)
    (ends : s.ending = [] → rest = []) :
    (namedStatement keyword specifier).Skips behind s.specifier.toList
      (s.quote :: (s.ending ++ rest)) := by
  refine skips_of_not_starts fun front back same _ hstart starts => ?_
  obtain ⟨gap, names, gap', gap'', quote, more, same', hgap, hnames, hgap',
    hgap'', hquote⟩ := starts
  have unquoted : ∀ c ∈ back, ¬ (c = '\'' ∨ c = '"') := fun c hc =>
    not_or.2 (s.unquoted c (by simp [same, hc]))
  rw [← List.append_assoc] at same'
  -- The opening brace is in the specifier, since the closing quote is not part of a keyword's gap.
  rcases first_or_none (· = '\x7b') back with none_ | ⟨opening, _, inner, rfl, hopening, rfl⟩
  · have brace := first_unique (p := fun c => c = '\x7b' ∨ c = '\'' ∨ c = '"')
      (fun c hc => not_or.2 ⟨none_ c hc, unquoted c hc⟩)
      (fun c hc => not_or.2 ⟨(plain_opening hkeyword hgap hc).1.1,
        not_or.2 (plain_opening hkeyword hgap hc).2⟩) (.inr s.isQuote) (.inl rfl) same'
    rcases s.isQuote with h | h <;> exact absurd (h.symm.trans brace.2.1) (by decide)
  rw [List.append_assoc, List.cons_append] at same'
  obtain ⟨rfl, -, inside⟩ := first_unique (p := (· = '\x7b')) hopening
    (fun c hc => (plain_opening hkeyword hgap hc).1.1) rfl rfl same'
  -- So is the closing brace, since the specifier does not end in the beginning of a statement.
  rcases first_or_none (fun c => c = '\x7b' ∨ c = '\x7d') inner with
    none_ | ⟨names', c, tail, rfl, hnames', hc⟩
  · refine settled ⟨front, keyword, hkeyword, gap, inner, by simp [same], fun c hc => ?_, hgap,
      fun c hc => not_or.1 (none_ c hc)⟩
    exact hstart c (by rw [List.head?_append, List.head?_reverse, hc]; rfl)
  rw [List.append_assoc, List.cons_append] at inside
  obtain ⟨rfl, rfl, closed⟩ := first_unique (p := fun c => c = '\x7b' ∨ c = '\x7d') hnames'
    (fun c hc => not_or.2 (hnames c hc)) hc (.inr rfl) inside
  -- Then the statement's first quote is the closing one.
  rw [← List.append_assoc, ← List.append_assoc] at closed
  have unquoted' : ∀ c ∈ tail, ¬ (c = '\'' ∨ c = '"') := fun c hc => unquoted c (by simp [hc])
  have plain : ∀ c ∈ gap' ++ "from".toList ++ gap'', ¬ (c = '\'' ∨ c = '"') := by
    intro c hc
    simp only [List.mem_append] at hc
    refine not_or.2 (plain_of_blank_or_letter ?_).2
    rcases hc with (hc | hc) | hc
    · exact .inl (hgap' c hc)
    · exact .inr ((by decide : ∀ c ∈ "from".toList, c.isAlpha = true) c hc)
    · exact .inl (hgap'' c hc)
  obtain ⟨-, -, behindQuote⟩ := first_unique (p := fun c => c = '\'' ∨ c = '"')
    unquoted' plain s.isQuote hquote closed
  obtain ⟨chars, hchars⟩ := List.head?_eq_some_iff.1 dot
  rw [hchars] at behindQuote
  cases hending : s.ending with
  | nil => rw [hending, ends hending] at behindQuote; exact absurd behindQuote (by simp)
  | cons c ending =>
    rw [hending] at behindQuote
    obtain rfl : c = '.' := (List.cons.inj behindQuote).1
    have dotted : '.' ∈ s.ending := by simp [hending]
    exact absurd (s.isEnding.mem dotted) (by decide)

theorem Statement.keyword_eq (s : Statement) :
    ∃ c tail, s.keyword.toList = [c] ++ tail ∧ ∀ d ∈ tail, d ≠ 'i' ∧ d ≠ 'e' := by
  have hkeyword := s.isKeyword
  simp only [keywords, List.mem_cons, List.not_mem_nil, or_false] at hkeyword
  rcases hkeyword with h | h <;> rw [h] <;> exact ⟨_, _, rfl, by decide⟩

theorem Statement.quote_not_mem_specifier (s : Statement) :
    ∀ c ∈ s.specifier.toList, ¬ c = s.quote :=
  fun c hc h => s.isQuote.elim (fun q => (s.unquoted c hc).1 (h.trans q))
    fun q => (s.unquoted c hc).2 (h.trans q)

theorem Statement.quote_not_mem_ending (s : Statement) : s.quote ∉ s.ending := fun h => by
  have plain := s.isEnding.mem h
  rcases s.isQuote with q | q <;> rw [q] at plain <;> exact absurd plain (by decide)

theorem Statement.chars_eq (s : Statement) : s.chars = s.keyword.toList ++ ((s.gap ++ ['\x7b'])
    ++ (s.names ++ (('\x7d' :: (s.gap' ++ "from".toList ++ s.gap'' ++ [s.quote]))
      ++ (s.specifier.toList ++ (s.quote :: s.ending))))) := by
  simp [Statement.chars]

theorem Statement.feed_mem_ending (s : Statement)
    (h : '\n' ∈ s.chars.getLast?) : '\n' ∈ s.ending := by
  simp only [Statement.chars_eq, ← List.append_assoc] at h
  rw [List.getLast?_append, List.getLast?_cons, Option.some_or] at h
  cases hlast : s.ending.getLast? with
  | none =>
    rw [hlast] at h
    exact absurd (Option.some.inj h) (by rcases s.isQuote with q | q <;> rw [q] <;> decide)
  | some c =>
    rw [hlast] at h
    exact Option.some.inj h ▸ List.mem_of_getLast? hlast

/-- In front of a statement of another module or with another keyword no statement starts: the two
would have to part in the specifier, and then the module's would reach over the end of the line. -/
theorem Statement.not_starts (s : Statement) (hkeyword : keyword ∈ keywords)
    (other : ¬ (s.keyword = keyword ∧ s.specifier = specifier))
    (plain : QuotesOneLine specifier.toList)
    (ends : '\n' ∈ s.ending ∨ rest = []) :
    ¬ StartsStatement keyword specifier (s.chars ++ rest) := by
  rintro ⟨gap, names, gap', gap'', quote, more, same, hgap, hnames, hgap', hgap'', hquote⟩
  obtain ⟨⟨keyword_eq, -, -, -, -, rfl⟩, specifiers⟩ :=
    s.parts_eq hkeyword hgap hnames hgap' hgap'' hquote same
  rcases first_or_none (· = s.quote) specifier.toList with
    none_ | ⟨front, _, back, hspec, hfront, rfl⟩
  · obtain ⟨spec_eq, -⟩ := first_unique s.quote_not_mem_specifier none_ rfl rfl specifiers
    exact other ⟨keyword_eq, String.toList_inj.1 spec_eq⟩
  · rw [hspec, List.append_assoc, List.cons_append] at specifiers
    obtain ⟨-, -, behindQuote⟩ := first_unique s.quote_not_mem_specifier hfront rfl rfl specifiers
    have oneLine := plain front s.quote back hspec s.isQuote
    rcases List.append_eq_append_iff.1 behindQuote with ⟨m, rfl, hrest⟩ | ⟨m, hending, hmore⟩
    · rcases ends with feed | rfl
      · exact oneLine (List.mem_append_left m feed)
      · exact absurd hrest (by simp)
    · cases m with
      | nil =>
        rw [List.append_nil] at hending
        rcases ends with feed | rfl
        · exact oneLine (hending ▸ feed)
        · exact absurd hmore (by simp)
      | cons c m =>
        obtain rfl := (List.cons.inj hmore).1
        exact s.quote_not_mem_ending (by simp [hending])

theorem Statement.skips (s : Statement) (hkeyword : keyword ∈ keywords)
    (dot : specifier.toList.head? = some '.') (plain : QuotesOneLine specifier.toList)
    (other : ¬ (s.keyword = keyword ∧ s.specifier = specifier))
    (settled : ¬ OpensStatement s.specifier.toList)
    (ends : '\n' ∈ s.chars.getLast? ∨ rest = []) :
    (namedStatement keyword specifier).Skips behind s.chars rest := by
  have ends' : '\n' ∈ s.ending ∨ rest = [] := ends.imp_left s.feed_mem_ending
  have here := s.not_starts hkeyword other plain ends'
  obtain ⟨c, tail, hc, htail⟩ := s.keyword_eq
  rw [s.chars_eq] at here ⊢
  rw [hc] at here ⊢
  -- The keyword, the gap and the brace, the names, up to the quote, the specifier, the ending.
  refine .append (.append (fun front back same hback stretch more ahead hs => ?_)
    (skips_of_heads hkeyword htail _ _)) (.append (skips_of_heads hkeyword ?_ _ _)
      (.append (s.skips_names hkeyword) (.append (skips_of_heads hkeyword ?_ _ _)
        (.append (s.skips_specifier hkeyword dot settled ?_) (skips_of_heads hkeyword ?_ _ _)))))
  · obtain ⟨rfl, rfl⟩ : front = [] ∧ back = [c] := by
      cases front with
      | nil => exact ⟨rfl, same.symm⟩
      | cons d front => exact absurd (List.append_eq_nil_iff.1 (List.cons.inj same).2.symm).2 hback
    have starts := (startsStatement_of_describes hs more).1
    rw [← ahead] at starts
    exact here (by simpa using starts)
  · intro d hd
    rcases List.mem_append.1 hd with hd | hd
    · exact not_blank (s.blank_gap d hd)
    · rw [List.mem_singleton.1 hd]; decide
  · intro d hd
    simp only [List.mem_cons, List.mem_append, List.not_mem_nil, or_false] at hd
    rcases hd with rfl | ((hd | hd) | hd) | rfl
    · decide
    · exact not_blank (s.blank_gap' d hd)
    · exact (by decide : ∀ d ∈ "from".toList, d ≠ 'i' ∧ d ≠ 'e') d hd
    · exact not_blank (s.blank_gap'' d hd)
    · rcases s.isQuote with q | q <;> rw [q] <;> decide
  · intro nil
    rcases ends' with feed | nil'
    · exact absurd feed (by simp [nil])
    · exact nil'
  · intro d hd
    rcases List.mem_cons.1 hd with rfl | hd
    · rcases s.isQuote with q | q <;> rw [q] <;> decide
    · rcases s.isEnding.mem hd with rfl | rfl | rfl | rfl | rfl <;> decide

theorem OtherLine.skips (l : OtherLine) (hkeyword : keyword ∈ keywords)
    (ends : '\n' ∈ l.text.getLast? ∨ rest = []) :
    (namedStatement keyword specifier).Skips behind l.text rest := by
  refine skips_of_not_starts fun front back same hback hstart starts => ?_
  obtain ⟨gap, names, gap', gap'', quote, more, ahead, hgap, -⟩ := starts
  rcases List.append_eq_append_iff.1 ahead with ⟨m, hword, hrest⟩ | ⟨m, rfl, hgaps⟩
  · -- The keyword would go on behind the line.
    rcases ends with feed | rfl
    · rw [same, List.getLast?_append_of_ne_nil _ hback] at feed
      have alpha := isAlpha_of_mem_keyword hkeyword (c := '\n')
        (hword ▸ List.mem_append_left m (List.mem_of_getLast? feed))
      exact absurd alpha (by decide)
    · exact absurd hrest (by simp)
  · have hfront : ∀ c ∈ front.getLast?, continuesName c = false := fun c hc =>
      hstart c (by rw [List.head?_append, List.head?_reverse, hc]; rfl)
    obtain ⟨c, hc, brace⟩ := l.followed keyword hkeyword front m (by rw [same, List.append_assoc]) hfront
    obtain ⟨m', hm⟩ := List.head?_eq_some_iff.1 hc
    have cut : m = m.takeWhile isBlank ++ c :: m' := by
      rw [← hm, List.takeWhile_append_dropWhile]
    have solid : isBlank c = false := by
      have := List.head?_dropWhile_not isBlank m
      rw [hm] at this
      simpa using this
    rw [cut, List.append_assoc] at hgaps
    have same' := first_unique (p := fun c => isBlank c = false) (fun d hd => by simp [hgap d hd])
      (fun d hd => by simp [List.mem_takeWhile_imp hd]) (by decide) solid hgaps
    exact brace same'.2.1.symm

end OtherModule

/-! ## A statement of the module itself -/

/-- A statement up to the quote that closes it. -/
def Statement.head (s : Statement) : List Char :=
  s.keyword.toList ++ s.gap ++ ['\x7b'] ++ s.names ++ ['\x7d'] ++ s.gap' ++ "from".toList ++ s.gap''
    ++ (s.quote :: s.specifier.toList ++ [s.quote])

theorem Statement.chars_eq_head (s : Statement) : s.chars = s.head ++ s.ending := by
  simp [Statement.chars, Statement.head]

theorem Statement.cuts (s : Statement) {behind rest : List Char}
    (start : ∀ c ∈ behind.head?, continuesName c = false)
    (ends : '\n' ∈ s.chars.getLast? ∨ rest = []) :
    (namedStatement s.keyword s.specifier).Cuts behind s.chars rest := by
  have head : (namedHead s.keyword s.specifier).Takes behind s.head (s.ending ++ rest) := by
    refine takes_of_unique (describes_namedHead.2 ⟨start, s.gap, s.names, s.gap',
      s.gap'', s.quote, rfl, s.blank_gap, s.unbraced, s.blank_gap', s.blank_gap'',
      s.isQuote⟩) fun stretch more same hs => ?_
    obtain ⟨-, gap, names, gap', gap'', quote, rfl, hgap, hnames, hgap', hgap'', hquote⟩ :=
      describes_namedHead.1 hs
    rw [← List.append_assoc, ← s.chars_eq_head] at same
    have text : s.chars ++ rest = s.keyword.toList ++ (gap ++ '\x7b' :: (names ++ '\x7d' :: (gap'
        ++ ("from".toList ++ (gap'' ++ quote :: (s.specifier.toList ++ quote :: more)))))) := by
      simpa using same
    obtain ⟨⟨-, rfl, rfl, rfl, rfl, rfl⟩, -⟩ :=
      s.parts_eq s.isKeyword hgap hnames hgap' hgap'' hquote text
    rfl
  rw [s.chars_eq_head, namedStatement_eq]
  refine (head.append (takes_statementEnd s.isEnding (ends.imp_left s.feed_mem_ending))).cuts ?_
  simp [Statement.head]

/-! ## A row of items -/

/-- Whether an item is a statement with a keyword for a specifier. -/
def Item.names (keyword specifier : String) : Item → Bool
  | statement s => decide (s.keyword = keyword ∧ s.specifier = specifier)
  | line _ => false

theorem IsBarrel.removeAll {items : List Item} (h : IsBarrel items) {keyword specifier : String}
    (hkeyword : keyword ∈ keywords) (dot : specifier.toList.head? = some '.')
    (plain : QuotesOneLine specifier.toList) :
    (namedStatement keyword specifier).removeAll (items.flatMap Item.chars)
      = (items.filter fun item => !item.names keyword specifier).flatMap Item.chars := by
  refine removeFrom_pieces Item.chars _ fun front item back same => ?_
  obtain ⟨start, ends⟩ := h.borders same
  rw [List.append_nil]
  cases item with
  | line l => exact l.skips hkeyword ends
  | statement s =>
    split
    · next other =>
      have other' : ¬ (s.keyword = keyword ∧ s.specifier = specifier) := fun both =>
        absurd other (by simp [Item.names, both])
      exact s.skips hkeyword dot plain other' (h.settled s (by simp [same])) ends
    · next own =>
      obtain ⟨rfl, rfl⟩ : s.keyword = keyword ∧ s.specifier = specifier := by
        simpa [Item.names] using own
      refine s.cuts (fun c hc => ?_) ends
      rw [start c hc]
      decide

theorem IsBarrel.withoutModule [WorkingFolder] {items : List Item} (h : IsBarrel items)
    {path module : String}
    (plain : QuotesOneLine (specifierOf path module).toList) :
    withoutModule path (items.flatMap Item.chars) module
      = (items.filter fun item => item.specifier? ≠ some (specifierOf path module)).flatMap
        Item.chars := by
  have dot : (specifierOf path module).toList.head? = some '.' := Path.head?_importSpecifier _ _
  have imports := h.removeAll (show "import" ∈ keywords by decide) dot plain
  have exports := (h.filter fun item => !item.names "import" (specifierOf path module)).removeAll
    (show "export" ∈ keywords by decide) dot plain
  show (namedStatement "export" _).removeAll ((namedStatement "import" _).removeAll _) = _
  rw [imports, exports, List.filter_filter]
  refine congrArg (List.flatMap Item.chars) (List.filter_congr fun item _ => ?_)
  cases item with
  | line l => simp [Item.names, Item.specifier?]
  | statement s =>
    have hkeyword := s.isKeyword
    simp only [keywords, List.mem_cons, List.not_mem_nil, or_false] at hkeyword
    rcases hkeyword with hk | hk <;> simp [Item.names, Item.specifier?, hk]

/-- **A purged barrel is the row of its other items.** Of a well-formed barrel the items are left,
in order and as they are, that are not a statement with exactly the specifier of one of the modules.
The modules may come in any order and more than once. -/
theorem withoutModules_statements [WorkingFolder] {items : List Item} (barrel : IsBarrel items)
    (path : String)
    {modules : List String}
    (plain : ∀ module ∈ modules, QuotesOneLine (specifierOf path module).toList) :
    withoutModules path (Item.text items) modules = Item.text (items.filter fun item =>
      ∀ module ∈ modules, item.specifier? ≠ some (specifierOf path module)) := by
  rw [withoutModules, Item.text, String.toList_ofList, Item.text]
  refine congrArg String.ofList ?_
  induction modules generalizing items with
  | nil => simp
  | cons module modules ih =>
    have later := ih (barrel.filter fun item => item.specifier? ≠ some (specifierOf path module))
      fun m hm => plain m (List.mem_cons_of_mem module hm)
    rw [List.foldl_cons, barrel.withoutModule (plain module List.mem_cons_self), later,
      List.filter_filter]
    refine congrArg (List.flatMap Item.chars) (List.filter_congr fun item _ => ?_)
    simp [Bool.and_comm]

/-- What holds wherever a word occurs in a text can be checked place by place. -/
theorem forall_occurrence {word text : List Char} {P : List Char → List Char → Prop}
    (h : ∀ n ≤ text.length, ∀ back ∈ dropLeading? word (text.drop n), P (text.take n) back)
    (front back : List Char) (same : text = front ++ word ++ back) : P front back := by
  subst same
  have here := h front.length (by simp) back (by simp [dropLeading?_eq_some])
  simpa using here

def sampleStatement (keyword specifier : String) (isKeyword : keyword ∈ keywords)
    (unquoted : ∀ c ∈ specifier.toList, c ≠ '\'' ∧ c ≠ '"') : Statement where
  keyword := keyword
  gap := [' ']
  names := " A ".toList
  gap' := [' ']
  gap'' := [' ']
  quote := '\''
  specifier := specifier
  ending := ";\n".toList
  isKeyword := isKeyword
  blank_gap := by decide
  unbraced := by decide
  blank_gap' := by decide
  blank_gap'' := by decide
  isQuote := by decide
  unquoted := unquoted
  isEnding := ⟨[], [';'], [], ['\n'], rfl, by simp [IsSpaces], .inr rfl, by simp [IsSpaces],
    .inl (.inl rfl)⟩

def classLine : OtherLine where
  text := "export class Page \x7b\n".toList
  oneLine := by decide
  followed := fun keyword hkeyword => forall_occurrence (by revert keyword; decide)

/-- The items of a barrel with specifiers that resemble each other. -/
def lookalikes : List Item :=
  [.statement (sampleStatement "export" "./a.b" (by decide) (by decide)),
    .statement (sampleStatement "export" "./aXb" (by decide) (by decide)), .line classLine,
    .statement (sampleStatement "import" "./a" (by decide) (by decide)),
    .statement (sampleStatement "import" "./a.b" (by decide) (by decide)),
    .statement (sampleStatement "import" "./a.bc" (by decide) (by decide))]

theorem withoutModules_lookalikes :
    let others := lookalikes.filter fun item => item.specifier? ≠ some "./a.b"
    others.length = 4 ∧ withoutModules "/app/index.js" (Item.text lookalikes)
      ["/app/a.b.js", "/app/a.b.js"] = Item.text others := by
  refine ⟨by decide, (withoutModules_statements ⟨by decide +kernel, ?_⟩ _ ?_).trans (by decide +kernel)⟩
  · rintro s hs ⟨front, keyword, -, gap, names, same, -⟩
    have unbraced : ∀ item ∈ lookalikes, ∀ spec ∈ item.specifier?, '\x7b' ∉ spec.toList := by
      decide +kernel
    exact unbraced _ hs s.specifier rfl (by simp [same])
  · intro module hmodule front quote back same
    have unquoted : ∀ module ∈ ["/app/a.b.js", "/app/a.b.js"],
        ∀ c ∈ (specifierOf "/app/index.js" module).toList, ¬ (c = '\'' ∨ c = '"') := by
      decide +kernel
    exact fun isQuote => absurd isQuote (unquoted module hmodule quote (by simp [same]))

/-- A line without either of the words. -/
def wordlessLine (text : String) (oneLine : '\n' ∉ text.toList.dropLast)
    (wordless : 'p' ∉ text.toList) :
    OtherLine where
  text := text.toList
  oneLine := oneLine
  followed := by
    intro keyword hkeyword front back same
    simp only [keywords, List.mem_cons, List.not_mem_nil, or_false] at hkeyword
    rcases hkeyword with rfl | rfl <;> exact absurd (same ▸ wordless) (by simp)

/-- **A match can reach over two items**: if a specifier ends in the beginning of a statement, and
if the path of a module goes on behind a quote and a line feed. -/
theorem withoutModules_across :
    let opening := [.statement (sampleStatement "export" "import \x7b" (by decide) (by decide)),
      .line (wordlessLine "\x7d from './x';\n" (by decide) (by decide))]
    let twoLines := [.statement (sampleStatement "import" "./a" (by decide) (by decide)),
      .line (wordlessLine "x'\n" (by decide) (by decide))]
    (∀ items ∈ [opening, twoLines], items.Pairwise fun item _ => '\n' ∈ item.chars.getLast?)
      ∧ (∀ item ∈ opening, item.specifier? ≠ some (specifierOf "/app/index.js" "/app/x.js"))
      ∧ withoutModules "/app/index.js" (Item.text opening) ["/app/x.js"]
        = "export \x7b A \x7d from '"
      ∧ (∀ item ∈ twoLines, item.specifier? ≠ some (specifierOf "/app/index.js" "/app/a';\nx.js"))
      ∧ withoutModules "/app/index.js" (Item.text twoLines) ["/app/a';\nx.js"] = "" := by
  decide +kernel

end RouteTrim.Purge
