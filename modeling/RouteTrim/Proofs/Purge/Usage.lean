import RouteTrim.Proofs.Purge.Again
import RouteTrim.Proofs.Purge.Pieces

/-!
# Where an alias is used

The compiled factory uses the alias of a module in four kinds of places. Each kind has a character
that stands in front of the alias: an equals sign in the statement that makes a service and in the
lookup that hands it out, a colon in the field that holds it, an opening brace in its accessor. A
piece of text is skipped if behind none of its characters of that kind the alias is used
(`skips_construction` and its siblings); only an import line may hold any of them in its specifier,
and it is skipped since its statement ends behind a quote.
-/

set_option autoImplicit false

namespace RouteTrim.Purge

open Pattern
open RouteTrim.Text (isBlank)

/-! ## Names and blanks -/

/-- A text that is a name. -/
def IsName (text : List Char) : Prop :=
  text ≠ [] ∧ ∀ c ∈ text, isNameChar c = true

instance (text : List Char) : Decidable (IsName text) :=
  inferInstanceAs (Decidable (_ ∧ _))

def IsGap (text : List Char) : Prop :=
  ∀ c ∈ text, isBlank c = true

instance (text : List Char) : Decidable (IsGap text) :=
  inferInstanceAs (Decidable (∀ c ∈ text, _))

theorem isGap_nil : IsGap [] :=
  fun _ hc => absurd hc (by simp)

def blankCodes : List Nat :=
  List.range' 9 5 ++ List.range' 28 5 ++ [0x85, 0xA0, 0x1680] ++ List.range' 0x2000 11
    ++ [0x2028, 0x2029, 0x202F, 0x205F, 0x3000]

theorem isNameChar_of_isBlank {c : Char} (h : isBlank c = true) : isNameChar c = false := by
  have code : c.toNat ∈ blankCodes := by
    simp only [isBlank, Bool.or_eq_true, Bool.and_eq_true, decide_eq_true_eq, beq_iff_eq] at h
    simp only [blankCodes, List.mem_append, List.mem_range'_1, List.mem_cons, List.not_mem_nil,
      or_false]
    omega
  have none_ : ∀ n ∈ blankCodes, isNameChar (Char.ofNat n) = false := by decide +kernel
  rw [← Char.ofNat_toNat c]
  exact none_ _ code

theorem isBlank_of_isNameChar {c : Char} (h : isNameChar c = true) : isBlank c = false := by
  cases hc : isBlank c with
  | false => rfl
  | true => exact absurd h (by simp [isNameChar_of_isBlank hc])

theorem IsName.not_mem {text : List Char} (h : IsName text) {c : Char} (hc : isNameChar c = false) :
    c ∉ text :=
  fun mem => by simp [h.2 c mem] at hc

theorem IsGap.not_mem {text : List Char} (h : IsGap text) {c : Char} (hc : isBlank c = false) :
    c ∉ text :=
  fun mem => by simp [h c mem] at hc

theorem IsName.head_not_blank {word : List Char} (h : IsName word) (text : List Char) :
    ∀ c ∈ (word ++ text).head?, isBlank c = false := by
  obtain ⟨c, word, rfl⟩ := List.exists_cons_of_ne_nil h.1
  exact fun d hd => Option.some.inj hd ▸ isBlank_of_isNameChar (h.2 c (by simp))

/-- The name that a text begins with behind its first blanks. -/
def firstWord (text : List Char) : List Char :=
  (text.dropWhile isBlank).takeWhile isNameChar

/-- What follows the first name. -/
def behindWord (text : List Char) : List Char :=
  (text.dropWhile isBlank).dropWhile isNameChar

theorem dropWhile_append_cons {gap text rest : List Char} {c : Char} (hgap : IsGap gap)
    (hc : isBlank c = false) :
    (gap ++ (c :: text ++ rest)).dropWhile isBlank = c :: text ++ rest := by
  rw [List.dropWhile_append_of_pos hgap, List.cons_append,
    List.dropWhile_cons_of_neg (by simp [hc])]

theorem firstWord_append {gap word rest : List Char} (hgap : IsGap gap) (hword : IsName word)
    (hrest : ∀ c ∈ rest.head?, isNameChar c = false) :
    firstWord (gap ++ (word ++ rest)) = word := by
  obtain ⟨c, word, rfl⟩ := List.exists_cons_of_ne_nil hword.1
  rw [firstWord, dropWhile_append_cons hgap (isBlank_of_isNameChar (hword.2 c (by simp))),
    List.takeWhile_append_of_pos hword.2]
  cases rest with
  | nil => simp
  | cons d rest => simp [hrest d (by simp)]

theorem behindWord_append {gap word rest : List Char} (hgap : IsGap gap) (hword : IsName word)
    (hrest : ∀ c ∈ rest.head?, isNameChar c = false) :
    behindWord (gap ++ (word ++ rest)) = rest := by
  obtain ⟨c, word, rfl⟩ := List.exists_cons_of_ne_nil hword.1
  rw [behindWord, dropWhile_append_cons hgap (isBlank_of_isNameChar (hword.2 c (by simp))),
    List.dropWhile_append_of_pos hword.2]
  cases rest with
  | nil => simp
  | cons d rest => simp [hrest d (by simp)]

/-! ## Uses of an alias -/

def StartsBlank (text : List Char) : Prop :=
  ∃ c ∈ text.head?, isBlank c = true

/-- A text begins with something of the module with an alias. -/
def Uses (moduleAlias text : List Char) : Prop :=
  firstWord text = moduleAlias ∧ (behindWord text).head? = some '.'

/-- A text begins with a blank and then something of the module. -/
def Spaced (moduleAlias text : List Char) : Prop :=
  StartsBlank text ∧ Uses moduleAlias text

/-- A text begins with the construction of something of the module. -/
def Constructs (moduleAlias text : List Char) : Prop :=
  firstWord text = "new".toList ∧ Spaced moduleAlias (behindWord text)

/-- A text begins with the rest of a comparison with something of the module. -/
def Compares (moduleAlias text : List Char) : Prop :=
  ∃ more, text = "==".toList ++ more ∧ Uses moduleAlias more

/-- Something of the module is made in a text before a brace closes. -/
def Makes (moduleAlias text : List Char) : Prop :=
  ∃ front back, text = front ++ ("new".toList ++ back) ∧ '\x7d' ∉ front ∧ Spaced moduleAlias back

/-- A text begins with the rest of the word that an accessor starts with. -/
def Gets (text : List Char) : Prop :=
  ∃ more, text = "et".toList ++ more ∧ StartsBlank more

theorem not_name_dot (rest : List Char) : ∀ c ∈ ('.' :: rest).head?, isNameChar c = false :=
  fun _ hc => Option.some.inj hc ▸ by decide

theorem uses_append {moduleAlias gap rest : List Char} (hgap : IsGap gap)
    (hname : IsName moduleAlias) :
    Uses moduleAlias (gap ++ (moduleAlias ++ '.' :: rest)) :=
  ⟨firstWord_append hgap hname (not_name_dot rest), by
    rw [behindWord_append hgap hname (not_name_dot rest)]; rfl⟩

theorem StartsBlank.append {text rest : List Char} (hgap : IsGap text) (hne : text ≠ []) :
    StartsBlank (text ++ rest) := by
  obtain ⟨c, text, rfl⟩ := List.exists_cons_of_ne_nil hne
  exact ⟨c, rfl, hgap c (by simp)⟩

theorem StartsBlank.of_append {text rest : List Char} (h : StartsBlank (text ++ rest))
    (hne : text ≠ []) :
    StartsBlank text := by
  obtain ⟨c, hc, blank⟩ := h
  exact ⟨c, by rwa [List.head?_append, Option.or_of_isSome (by simpa using hne)] at hc, blank⟩

theorem StartsBlank.not_name {text : List Char} (h : StartsBlank text) :
    ∀ c ∈ text.head?, isNameChar c = false := by
  intro c hc
  obtain ⟨d, hd, blank⟩ := h
  obtain rfl : d = c := Option.some.inj (hd.symm.trans hc)
  exact isNameChar_of_isBlank blank

theorem spaced_append {moduleAlias gap rest : List Char} (hgap : IsGap gap) (hne : gap ≠ [])
    (hname : IsName moduleAlias) : Spaced moduleAlias (gap ++ (moduleAlias ++ '.' :: rest)) :=
  ⟨StartsBlank.append hgap hne, uses_append hgap hname⟩

theorem constructs_append {moduleAlias gap gap' rest : List Char} (hgap : IsGap gap)
    (hgap' : IsGap gap') (hne : gap' ≠ []) (hname : IsName moduleAlias) :
    Constructs moduleAlias (gap ++ ("new".toList ++ (gap' ++ (moduleAlias ++ '.' :: rest)))) := by
  have spaced : Spaced moduleAlias (gap' ++ (moduleAlias ++ '.' :: rest)) :=
    spaced_append hgap' hne hname
  have word : IsName "new".toList := by decide
  exact ⟨firstWord_append hgap word spaced.1.not_name,
    by rwa [behindWord_append hgap word spaced.1.not_name]⟩

theorem Uses.eq {moduleAlias other gap rest : List Char} (hgap : IsGap gap) (hother : IsName other)
    (h : Uses moduleAlias (gap ++ (other ++ '.' :: rest))) : other = moduleAlias := by
  rw [← h.1, firstWord_append hgap hother (not_name_dot rest)]

theorem not_startsBlank {c : Char} {text : List Char} (hc : isBlank c = false) :
    ¬ StartsBlank (c :: text) := by
  rintro ⟨d, hd, blank⟩
  rw [← Option.some.inj hd, hc] at blank
  exact absurd blank (by decide)

theorem free_name {key : Char} {follows : List Char → Prop} {word rest : List Char}
    (hfollows : ∀ text, follows text → StartsBlank text) (hword : IsName word)
    (hrest : ¬ follows rest) :
    Free key follows word rest := by
  intro back hback
  obtain ⟨front, rfl⟩ := mem_after.1 hback
  cases back with
  | nil => exact hrest
  | cons c back =>
    exact fun h => not_startsBlank (isBlank_of_isNameChar (hword.2 c (by simp))) (hfollows _ h)

/-- Nothing of the module is made up to a brace that closes, if no blank stands there between a
letter that ends `new` and the alias. -/
theorem not_makes {moduleAlias inner rest : List Char} (hinner : '\x7d' ∉ inner)
    (free : Free 'w' (Spaced moduleAlias) inner ('\x7d' :: rest)) :
    ¬ Makes moduleAlias (inner ++ '\x7d' :: rest) := by
  rintro ⟨front, back, same, hfront, spaced⟩
  have hnew : '\x7d' ∉ front ++ "new".toList := by
    rw [List.mem_append, not_or]
    exact ⟨hfront, by decide⟩
  have word : front ++ "new".toList = (front ++ "ne".toList) ++ ['w'] := by
    rw [List.append_assoc]
    rfl
  rw [← List.append_assoc] at same
  rcases List.append_eq_append_iff.1 same with ⟨m, hm, hrest⟩ | ⟨m, rfl, rfl⟩
  · cases m with
    | nil =>
      rw [List.append_nil, word] at hm
      exact free [] (mem_after.2 ⟨_, hm.symm⟩) ((hrest : _ = back) ▸ spaced)
    | cons c m =>
      obtain rfl := (List.cons.inj hrest).1
      exact hnew (by rw [hm]; simp)
  · refine free m (mem_after.2 ⟨front ++ "ne".toList, ?_⟩) spaced
    rw [word, List.append_assoc]
    rfl

/-! ## What the patterns of a service describe -/

theorem describes_name {behind stretch : List Char} :
    name.Describes behind stretch ↔ IsName stretch :=
  describes_oneOrMore

theorem describes_someBlanks {behind stretch : List Char} :
    someBlanks.Describes behind stretch ↔ stretch ≠ [] ∧ IsGap stretch :=
  describes_oneOrMore

theorem describes_spaces {behind stretch : List Char} :
    spaces.Describes behind stretch ↔ IsSpaces stretch := by
  simp [spaces, IsSpaces]

theorem describes_qualified {moduleAlias behind stretch : List Char} :
    (qualified moduleAlias).Describes behind stretch ↔
      ∃ className, stretch = moduleAlias ++ '.' :: className ∧ IsName className := by
  constructor
  · rintro ⟨_, className, ⟨_, _, halias, hdot, rfl⟩, hname, rfl⟩
    obtain rfl := describes_exactly.1 halias
    obtain rfl := describes_literal.1 hdot
    exact ⟨className, by simp, describes_name.1 hname⟩
  · rintro ⟨className, rfl, hname⟩
    exact ⟨moduleAlias ++ ['.'], className, ⟨_, _, describes_exactly.2 rfl,
      describes_literal.2 rfl, rfl⟩, describes_name.2 hname, by simp⟩

/-- A return of a field and the closing brace behind it. -/
def IsReturn (stretch : List Char) : Prop :=
  ∃ gap field gap' gap'', stretch = "return".toList ++ (gap ++ ("this.".toList ++ (field ++ (gap'
      ++ (";".toList ++ (gap'' ++ "\x7d".toList))))))
    ∧ (gap ≠ [] ∧ IsGap gap) ∧ IsName field ∧ IsGap gap' ∧ IsGap gap''

theorem describes_returnField {behind stretch : List Char} :
    returnField.Describes behind stretch ↔ IsReturn stretch := by
  constructor
  · rintro ⟨_, _, ⟨_, gap'', ⟨_, _, ⟨_, gap', ⟨_, field, ⟨_, _, ⟨_, gap, hreturn, hgap, rfl⟩, hthis,
      rfl⟩, hfield, rfl⟩, hgap', rfl⟩, hsemicolon, rfl⟩, hgap'', rfl⟩, hbrace, rfl⟩
    obtain rfl := describes_literal.1 hreturn
    obtain rfl := describes_literal.1 hthis
    obtain rfl := describes_literal.1 hsemicolon
    obtain rfl := describes_literal.1 hbrace
    exact ⟨gap, field, gap', gap'', by simp only [List.append_assoc], describes_someBlanks.1 hgap,
      describes_name.1 hfield, hgap', hgap''⟩
  · rintro ⟨gap, field, gap', gap'', rfl, hgap, hfield, hgap', hgap''⟩
    exact ⟨_, _, ⟨_, _, ⟨_, _, ⟨_, _, ⟨_, _, ⟨_, _, ⟨_, _, describes_literal.2 rfl,
      describes_someBlanks.2 hgap, rfl⟩, describes_literal.2 rfl, rfl⟩,
      describes_name.2 hfield, rfl⟩, hgap', rfl⟩, describes_literal.2 rfl, rfl⟩, hgap'', rfl⟩,
      describes_literal.2 rfl, by simp only [List.append_assoc]⟩

/-- A statement that makes a service, up to its semicolon. -/
def constructionHead (moduleAlias : List Char) : Pattern :=
  spaces ++ literal "this." ++ name ++ blanks ++ literal "=" ++ blanks ++ literal "new"
    ++ someBlanks ++ qualified moduleAlias ++ blanks ++ literal "(" ++ many (fun c => c != ';')
    ++ literal ")" ++ blanks ++ literal ";"

/-- A stretch such as `this.f = new a.C(…);`. -/
def IsConstruction (moduleAlias stretch : List Char) : Prop :=
  ∃ run field gap₁ gap₂ gap₃ className gap₄ inner gap₅,
    stretch = run ++ ("this.".toList ++ (field ++ (gap₁ ++ ("=".toList ++ (gap₂ ++ ("new".toList
      ++ (gap₃ ++ (moduleAlias ++ '.' :: (className ++ (gap₄ ++ ("(".toList ++ (inner ++ (")".toList
        ++ (gap₅ ++ ";".toList))))))))))))))
    ∧ IsSpaces run ∧ IsName field ∧ IsGap gap₁ ∧ IsGap gap₂ ∧ (gap₃ ≠ [] ∧ IsGap gap₃)
    ∧ IsName className ∧ IsGap gap₄ ∧ ';' ∉ inner ∧ IsGap gap₅

theorem describes_constructionHead {moduleAlias behind stretch : List Char} :
    (constructionHead moduleAlias).Describes behind stretch
      ↔ IsConstruction moduleAlias stretch := by
  constructor
  · rintro ⟨_, _, ⟨_, gap₅, ⟨_, _, ⟨_, inner, ⟨_, _, ⟨_, gap₄, ⟨_, _, ⟨_, gap₃, ⟨_, _, ⟨_, gap₂,
      ⟨_, _, ⟨_, gap₁, ⟨_, field, ⟨run, _, hrun, hthis, rfl⟩, hfield, rfl⟩,
      hgap₁, rfl⟩, hequals, rfl⟩, hgap₂, rfl⟩, hnew, rfl⟩, hgap₃, rfl⟩, hqualified, rfl⟩,
      hgap₄, rfl⟩, hopen, rfl⟩, hinner, rfl⟩, hclose, rfl⟩, hgap₅, rfl⟩, hsemicolon, rfl⟩
    obtain rfl := describes_literal.1 hthis
    obtain rfl := describes_literal.1 hequals
    obtain rfl := describes_literal.1 hnew
    obtain ⟨className, rfl, hclass⟩ := describes_qualified.1 hqualified
    obtain rfl := describes_literal.1 hopen
    obtain rfl := describes_literal.1 hclose
    obtain rfl := describes_literal.1 hsemicolon
    exact ⟨run, field, gap₁, gap₂, gap₃, className, gap₄, inner, gap₅,
      by simp only [List.append_assoc, List.cons_append], describes_spaces.1 hrun,
      describes_name.1 hfield, hgap₁, hgap₂, describes_someBlanks.1 hgap₃, hclass, hgap₄,
      fun mem => absurd (hinner _ mem) (by simp), hgap₅⟩
  · rintro ⟨run, field, gap₁, gap₂, gap₃, className, gap₄, inner, gap₅, rfl,
      hrun, hfield, hgap₁, hgap₂, hgap₃, hclass, hgap₄, hinner, hgap₅⟩
    exact ⟨_, _, ⟨_, _, ⟨_, _, ⟨_, _, ⟨_, _, ⟨_, _, ⟨_, _, ⟨_, _, ⟨_, _, ⟨_, _, ⟨_, _, ⟨_, _, ⟨_, _,
      ⟨_, _, describes_spaces.2 hrun, describes_literal.2 rfl, rfl⟩, describes_name.2 hfield, rfl⟩,
      hgap₁, rfl⟩, describes_literal.2 rfl, rfl⟩, hgap₂, rfl⟩, describes_literal.2 rfl, rfl⟩,
      describes_someBlanks.2 hgap₃, rfl⟩, describes_qualified.2 ⟨className, rfl, hclass⟩, rfl⟩,
      hgap₄, rfl⟩, describes_literal.2 rfl, rfl⟩, fun c hc => by simpa using ne_of_mem_of_not_mem hc hinner,
      rfl⟩, describes_literal.2 rfl, rfl⟩, hgap₅, rfl⟩, describes_literal.2 rfl,
      by simp only [List.append_assoc, List.cons_append]⟩

/-- A lookup, up to the brace that closes it. -/
def lookupHead (moduleAlias : List Char) : Pattern :=
  spaces ++ literal "if" ++ blanks ++ literal "((" ++ blanks ++ literal "token" ++ blanks
    ++ literal "===" ++ blanks ++ qualified moduleAlias ++ blanks ++ literal "))" ++ blanks
    ++ literal "\x7b" ++ blanks ++ returnField

/-- A stretch such as `if ((token === a.C)) { return this.f; }`. -/
def IsLookup (moduleAlias stretch : List Char) : Prop :=
  ∃ run gap₁ gap₂ gap₃ gap₄ className gap₅ gap₆ gap₇ result,
    stretch = run ++ ("if".toList ++ (gap₁ ++ ("((".toList ++ (gap₂ ++ ("token".toList ++ (gap₃
      ++ ("===".toList ++ (gap₄ ++ (moduleAlias ++ '.' :: (className ++ (gap₅
        ++ ("))".toList ++ (gap₆ ++ ("\x7b".toList ++ (gap₇ ++ result)))))))))))))))
    ∧ IsSpaces run ∧ IsGap gap₁ ∧ IsGap gap₂ ∧ IsGap gap₃ ∧ IsGap gap₄ ∧ IsName className
    ∧ IsGap gap₅ ∧ IsGap gap₆ ∧ IsGap gap₇ ∧ IsReturn result

theorem describes_lookupHead {moduleAlias behind stretch : List Char} :
    (lookupHead moduleAlias).Describes behind stretch ↔ IsLookup moduleAlias stretch := by
  constructor
  · rintro ⟨_, result, ⟨_, gap₇, ⟨_, _, ⟨_, gap₆, ⟨_, _, ⟨_, gap₅, ⟨_, _, ⟨_, gap₄, ⟨_, _, ⟨_, gap₃,
      ⟨_, _, ⟨_, gap₂, ⟨_, _, ⟨_, gap₁, ⟨run, _, hrun, hif, rfl⟩, hgap₁, rfl⟩,
      hopen, rfl⟩, hgap₂, rfl⟩, htoken, rfl⟩, hgap₃, rfl⟩, hequals, rfl⟩, hgap₄, rfl⟩,
      hqualified, rfl⟩, hgap₅, rfl⟩, hclose, rfl⟩, hgap₆, rfl⟩, hbrace, rfl⟩,
      hgap₇, rfl⟩, hresult, rfl⟩
    obtain rfl := describes_literal.1 hif
    obtain rfl := describes_literal.1 hopen
    obtain rfl := describes_literal.1 htoken
    obtain rfl := describes_literal.1 hequals
    obtain ⟨className, rfl, hclass⟩ := describes_qualified.1 hqualified
    obtain rfl := describes_literal.1 hclose
    obtain rfl := describes_literal.1 hbrace
    exact ⟨run, gap₁, gap₂, gap₃, gap₄, className, gap₅, gap₆, gap₇, result,
      by simp only [List.append_assoc, List.cons_append], describes_spaces.1 hrun, hgap₁, hgap₂, hgap₃,
      hgap₄, hclass, hgap₅, hgap₆, hgap₇, describes_returnField.1 hresult⟩
  · rintro ⟨run, gap₁, gap₂, gap₃, gap₄, className, gap₅, gap₆, gap₇, result,
      rfl, hrun, hgap₁, hgap₂, hgap₃, hgap₄, hclass, hgap₅, hgap₆, hgap₇, hresult⟩
    exact ⟨_, _, ⟨_, _, ⟨_, _, ⟨_, _, ⟨_, _, ⟨_, _, ⟨_, _, ⟨_, _, ⟨_, _, ⟨_, _, ⟨_, _, ⟨_, _, ⟨_, _,
      ⟨_, _, ⟨_, _, describes_spaces.2 hrun, describes_literal.2 rfl, rfl⟩, hgap₁, rfl⟩,
      describes_literal.2 rfl, rfl⟩, hgap₂, rfl⟩, describes_literal.2 rfl, rfl⟩, hgap₃, rfl⟩,
      describes_literal.2 rfl, rfl⟩, hgap₄, rfl⟩, describes_qualified.2 ⟨className, rfl, hclass⟩, rfl⟩,
      hgap₅, rfl⟩, describes_literal.2 rfl, rfl⟩, hgap₆, rfl⟩, describes_literal.2 rfl, rfl⟩, hgap₇,
      rfl⟩, describes_returnField.2 hresult, by simp only [List.append_assoc, List.cons_append]⟩

def fieldHead (moduleAlias : List Char) : Pattern :=
  spaces ++ name ++ blanks ++ literal ":" ++ blanks ++ qualified moduleAlias
    ++ blanks ++ literal ";"

/-- A stretch such as `f:a.C;`. -/
def IsField (moduleAlias stretch : List Char) : Prop :=
  ∃ run field gap₁ gap₂ className gap₃,
    stretch = run ++ (field ++ (gap₁ ++ (":".toList ++ (gap₂ ++ (moduleAlias ++ '.' :: (className
      ++ (gap₃ ++ ";".toList)))))))
    ∧ IsSpaces run ∧ IsName field ∧ IsGap gap₁ ∧ IsGap gap₂ ∧ IsName className ∧ IsGap gap₃

theorem describes_fieldHead {moduleAlias behind stretch : List Char} :
    (fieldHead moduleAlias).Describes behind stretch ↔ IsField moduleAlias stretch := by
  constructor
  · rintro ⟨_, _, ⟨_, gap₃, ⟨_, _, ⟨_, gap₂, ⟨_, _, ⟨_, gap₁, ⟨run, field,
      hrun, hfield, rfl⟩, hgap₁, rfl⟩, hcolon, rfl⟩, hgap₂, rfl⟩, hqualified, rfl⟩,
      hgap₃, rfl⟩, hsemicolon, rfl⟩
    obtain rfl := describes_literal.1 hcolon
    obtain ⟨className, rfl, hclass⟩ := describes_qualified.1 hqualified
    obtain rfl := describes_literal.1 hsemicolon
    exact ⟨run, field, gap₁, gap₂, className, gap₃, by simp only [List.append_assoc, List.cons_append],
      describes_spaces.1 hrun, describes_name.1 hfield, hgap₁, hgap₂, hclass, hgap₃⟩
  · rintro ⟨run, field, gap₁, gap₂, className, gap₃, rfl, hrun, hfield, hgap₁, hgap₂, hclass, hgap₃⟩
    exact ⟨_, _, ⟨_, _, ⟨_, _, ⟨_, _, ⟨_, _, ⟨_, _, ⟨_, _, describes_spaces.2 hrun,
      describes_name.2 hfield, rfl⟩, hgap₁, rfl⟩, describes_literal.2 rfl, rfl⟩, hgap₂, rfl⟩,
      describes_qualified.2 ⟨className, rfl, hclass⟩, rfl⟩, hgap₃, rfl⟩, describes_literal.2 rfl,
      by simp only [List.append_assoc, List.cons_append]⟩

/-- A character that ends no statement and no block. -/
def IsPlain (c : Char) : Prop :=
  c ≠ ';' ∧ c ≠ '\x7b' ∧ c ≠ '\x7d'

instance (c : Char) : Decidable (IsPlain c) :=
  inferInstanceAs (Decidable (_ ∧ _))

theorem IsName.plain {text : List Char} (h : IsName text) : ∀ c ∈ text, IsPlain c := by
  refine fun c hc => ⟨?_, ?_, ?_⟩ <;> rintro rfl <;> exact absurd hc (h.not_mem (by decide))

theorem IsGap.plain {text : List Char} (h : IsGap text) : ∀ c ∈ text, IsPlain c := by
  refine fun c hc => ⟨?_, ?_, ?_⟩ <;> rintro rfl <;> exact absurd hc (h.not_mem (by decide))

theorem plain_spaces {run : List Char} (h : IsSpaces run) : ∀ c ∈ run, IsPlain c := by
  intro c hc
  rcases h c hc with rfl | rfl <;> decide

theorem plain_of_continuesName {c : Char} (h : continuesName c = true) : IsPlain c := by
  refine ⟨?_, ?_, ?_⟩ <;> rintro rfl <;> exact absurd h (by decide)

def accessorHead : Pattern :=
  spaces ++ nameStart ++ literal "get" ++ someBlanks ++ name ++ blanks ++ literal "(" ++ blanks
    ++ literal ")" ++ blanks
    ++ maybe (literal ":" ++ blanks ++ oneOrMore continuesName ++ blanks)

theorem of_describes_accessorHead {behind stretch : List Char}
    (h : accessorHead.Describes behind stretch) :
    ∃ run gap middle, stretch = run ++ ("get".toList ++ (gap ++ middle)) ∧ IsSpaces run
      ∧ (gap ≠ [] ∧ IsGap gap) ∧ ∀ c ∈ middle, IsPlain c := by
  obtain ⟨_, type, ⟨_, gap₃, ⟨_, _, ⟨_, gap₂, ⟨_, _, ⟨_, gap₁, ⟨_, field, ⟨_,
    gap, ⟨_, _, ⟨run, _, hrun, ⟨rfl, -⟩, rfl⟩, hget, rfl⟩, hgap, rfl⟩, hfield, rfl⟩, hgap₁, rfl⟩,
    hopen, rfl⟩, hgap₂, rfl⟩, hclose, rfl⟩, hgap₃, rfl⟩, htype, rfl⟩ := h
  obtain rfl := describes_literal.1 hget
  obtain rfl := describes_literal.1 hopen
  obtain rfl := describes_literal.1 hclose
  have plainType : ∀ c ∈ type, IsPlain c := by
    rcases htype with ⟨_, gap₅, ⟨_, name, ⟨_, gap₄, hcolon, hgap₄, rfl⟩,
      hname, rfl⟩, hgap₅, rfl⟩ | htype
    · obtain rfl := describes_literal.1 hcolon
      exact List.forall_mem_append.2 ⟨List.forall_mem_append.2 ⟨List.forall_mem_append.2 ⟨by decide,
        IsGap.plain hgap₄⟩, fun c hc => plain_of_continuesName ((describes_oneOrMore.1 hname).2 c hc)⟩,
        IsGap.plain hgap₅⟩
    · obtain rfl : type = [] := htype
      simp
  refine ⟨run, gap, field ++ (gap₁ ++ ("(".toList ++ (gap₂ ++ (")".toList ++ (gap₃ ++ type))))),
    by simp only [List.append_assoc, List.nil_append], describes_spaces.1 hrun,
    describes_someBlanks.1 hgap, ?_⟩
  exact List.forall_mem_append.2 ⟨(describes_name.1 hfield).plain, List.forall_mem_append.2
    ⟨IsGap.plain hgap₁, List.forall_mem_append.2 ⟨by decide, List.forall_mem_append.2
      ⟨IsGap.plain hgap₂, List.forall_mem_append.2 ⟨by decide, List.forall_mem_append.2
        ⟨IsGap.plain hgap₃, plainType⟩⟩⟩⟩⟩⟩

/-- A stretch that is an accessor begins such as `get f() { if (…) { … new a.C`, and no block closes
in between. -/
theorem of_describes_accessor {moduleAlias behind stretch : List Char}
    (h : (accessor moduleAlias).Describes behind stretch) :
    ∃ run gap middle inner gap' tail,
      stretch = run ++ ("get".toList ++ (gap ++ (middle ++ ("\x7b".toList ++ (inner ++ ("new".toList
        ++ (gap' ++ (moduleAlias ++ '.' :: tail))))))))
      ∧ IsSpaces run ∧ (gap ≠ [] ∧ IsGap gap) ∧ (∀ c ∈ middle, IsPlain c) ∧ '\x7d' ∉ inner
      ∧ (gap' ≠ [] ∧ IsGap gap') := by
  obtain ⟨_, line, ⟨_, result, ⟨_, between, ⟨_, _, ⟨_, gap', ⟨_, _, ⟨_, inner,
    ⟨head, _, hhead, hbrace, rfl⟩, hinner, rfl⟩, hnew, rfl⟩, hgap', rfl⟩, hqualified, rfl⟩,
    -, rfl⟩, -, rfl⟩, -, rfl⟩ := h
  obtain ⟨run, gap, middle, rfl, hrun, hgap, hmiddle⟩ := of_describes_accessorHead hhead
  obtain rfl := describes_literal.1 hbrace
  obtain rfl := describes_literal.1 hnew
  obtain ⟨className, rfl, -⟩ := describes_qualified.1 hqualified
  exact ⟨run, gap, middle, inner, gap', className ++ (between ++ (result ++ line)),
    by simp only [List.append_assoc, List.cons_append], hrun, hgap, hmiddle,
    fun mem => absurd (hinner _ mem) (by simp), describes_someBlanks.1 hgap'⟩

/-! ## Where the patterns of a service close -/

theorem exists_head {run text : List Char} {c : Char} (hrun : IsSpaces run) (hc : c ≠ '\n') :
    ∃ d ∈ (run ++ c :: text).head?, d ≠ '\n' := by
  cases run with
  | nil => exact ⟨c, rfl, hc⟩
  | cons d run => exact ⟨d, rfl, by rcases hrun d (by simp) with rfl | rfl <;> decide⟩

theorem mem_of_getLast?_append {text tail : List Char} {c : Char} (hne : tail ≠ [])
    (hc : c ∈ (text ++ tail).getLast?) : c ∈ tail := by
  rw [List.getLast?_append] at hc
  cases hlast : tail.getLast? with
  | none => exact absurd (List.getLast?_eq_none_iff.1 hlast) hne
  | some d =>
    rw [hlast] at hc
    exact Option.some.inj hc ▸ List.mem_of_getLast? hlast

theorem IsGap.unquoted {text : List Char} (h : IsGap text) : ∀ c ∈ text, c ≠ '\'' := by
  rintro c hc rfl
  exact h.not_mem (by decide) hc

theorem IsName.unquoted {text : List Char} (h : IsName text) : ∀ c ∈ text, c ≠ '\'' := by
  rintro c hc rfl
  exact h.not_mem (by decide) hc

theorem not_mem_of_plain {text : List Char} {c : Char} (h : ∀ c ∈ text, IsPlain c)
    (hc : ¬ IsPlain c) :
    c ∉ text :=
  fun mem => hc (h c mem)

/-- A construction ends at its first semicolon, and what stands in front of that is no quote. -/
theorem IsConstruction.closes {moduleAlias stretch : List Char}
    (h : IsConstruction moduleAlias stretch)
    (hname : IsName moduleAlias) :
    ∃ front, stretch = front ++ [';'] ∧ ';' ∉ front ∧ (∃ c ∈ front.head?, c ≠ '\n')
      ∧ ∀ c ∈ front.getLast?, c ≠ '\'' := by
  obtain ⟨run, field, gap₁, gap₂, gap₃, className, gap₄, inner, gap₅, rfl,
    hrun, hfield, hgap₁, hgap₂, hgap₃, hclass, hgap₄, hinner, hgap₅⟩ := h
  have semicolon {text : List Char} (h : ∀ c ∈ text, IsPlain c) : ';' ∉ text :=
    not_mem_of_plain h (by decide)
  refine ⟨(run ++ ("this.".toList ++ (field ++ (gap₁ ++ ("=".toList ++ (gap₂ ++ ("new".toList ++ (gap₃
    ++ (moduleAlias ++ '.' :: (className ++ (gap₄ ++ ("(".toList ++ inner))))))))))))
      ++ (")".toList ++ gap₅), by simp only [List.append_assoc, List.cons_append]; rfl, ?_, ?_, ?_⟩
  · simp only [List.mem_append, List.mem_cons, not_or]
    exact ⟨⟨semicolon (plain_spaces hrun), by decide, semicolon hfield.plain, semicolon hgap₁.plain,
      by decide, semicolon hgap₂.plain, by decide, semicolon hgap₃.2.plain, semicolon hname.plain,
      by decide, semicolon hclass.plain, semicolon hgap₄.plain, by decide, hinner⟩, by decide,
      semicolon hgap₅.plain⟩
  · rw [List.append_assoc]
    exact exists_head hrun (by decide)
  · intro c hc
    rcases List.mem_append.1 (mem_of_getLast?_append (by simp) hc) with hc | hc
    · rw [List.mem_singleton.1 hc]; decide
    · exact hgap₅.unquoted c hc

/-- A field ends at its first semicolon, and what stands in front of that is no quote. -/
theorem IsField.closes {moduleAlias stretch : List Char} (h : IsField moduleAlias stretch)
    (hname : IsName moduleAlias) :
    ∃ front, stretch = front ++ [';'] ∧ ';' ∉ front ∧ (∃ c ∈ front.head?, c ≠ '\n')
      ∧ ∀ c ∈ front.getLast?, c ≠ '\'' := by
  obtain ⟨run, field, gap₁, gap₂, className, gap₃, rfl, hrun, hfield, hgap₁,
    hgap₂, hclass, hgap₃⟩ := h
  have semicolon {text : List Char} (h : ∀ c ∈ text, IsPlain c) : ';' ∉ text :=
    not_mem_of_plain h (by decide)
  refine ⟨(run ++ (field ++ (gap₁ ++ (":".toList ++ (gap₂ ++ (moduleAlias ++ ['.']))))))
    ++ (className ++ gap₃), by simp only [List.append_assoc, List.cons_append]; rfl, ?_, ?_, ?_⟩
  · simp only [List.mem_append, not_or]
    exact ⟨⟨semicolon (plain_spaces hrun), semicolon hfield.plain, semicolon hgap₁.plain, by decide,
      semicolon hgap₂.plain, semicolon hname.plain, by decide⟩, semicolon hclass.plain,
      semicolon hgap₃.plain⟩
  · obtain ⟨c, field, rfl⟩ := List.exists_cons_of_ne_nil hfield.1
    have hc : c ≠ '\n' := fun h => absurd (hfield.2 c (by simp)) (by rw [h]; decide)
    simp only [List.append_assoc, List.cons_append]
    exact exists_head hrun hc
  · intro c hc
    have nonempty : className ++ gap₃ ≠ [] := fun h => hclass.1 (List.append_eq_nil_iff.1 h).1
    rcases List.mem_append.1 (mem_of_getLast?_append nonempty hc) with hc | hc
    · exact hclass.unquoted c hc
    · exact hgap₃.unquoted c hc

theorem IsReturn.closes {stretch : List Char} (h : IsReturn stretch) :
    ∃ front, stretch = front ++ ['\x7d'] ∧ '\x7d' ∉ front := by
  obtain ⟨gap, field, gap', gap'', rfl, hgap, hfield, hgap', hgap''⟩ := h
  have brace {text : List Char} (h : ∀ c ∈ text, IsPlain c) : '\x7d' ∉ text :=
    not_mem_of_plain h (by decide)
  refine ⟨"return".toList ++ (gap ++ ("this.".toList ++ (field ++ (gap' ++ (";".toList ++ gap''))))),
    by simp only [List.append_assoc]; rfl, ?_⟩
  simp only [List.mem_append, not_or]
  exact ⟨by decide, brace hgap.2.plain, by decide, brace hfield.plain, brace hgap'.plain, by decide,
    brace hgap''.plain⟩

theorem IsLookup.closes {moduleAlias stretch : List Char} (h : IsLookup moduleAlias stretch)
    (hname : IsName moduleAlias) : ∃ front, stretch = front ++ ['\x7d'] ∧ '\x7d' ∉ front := by
  obtain ⟨run, gap₁, gap₂, gap₃, gap₄, className, gap₅, gap₆, gap₇, result, rfl,
    hrun, hgap₁, hgap₂, hgap₃, hgap₄, hclass, hgap₅, hgap₆, hgap₇, hresult⟩ := h
  obtain ⟨result, rfl, hbrace⟩ := hresult.closes
  have brace {text : List Char} (h : ∀ c ∈ text, IsPlain c) : '\x7d' ∉ text :=
    not_mem_of_plain h (by decide)
  refine ⟨run ++ ("if".toList ++ (gap₁ ++ ("((".toList ++ (gap₂ ++ ("token".toList ++ (gap₃
    ++ ("===".toList ++ (gap₄ ++ (moduleAlias ++ '.' :: (className ++ (gap₅ ++ ("))".toList ++ (gap₆
      ++ ("\x7b".toList ++ (gap₇ ++ result))))))))))))))),
      by simp only [List.append_assoc, List.cons_append],
    ?_⟩
  simp only [List.mem_append, List.mem_cons, not_or]
  exact ⟨brace (plain_spaces hrun), by decide, brace hgap₁.plain, by decide,
    brace hgap₂.plain, by decide, brace hgap₃.plain, by decide, brace hgap₄.plain,
    brace hname.plain, by decide, brace hclass.plain, brace hgap₅.plain, by decide,
    brace hgap₆.plain, by decide, brace hgap₇.plain, hbrace⟩

/-! ## Leads -/

theorem isLead_spaces {run : List Char} (h : IsSpaces run) : IsLead run := by
  refine ⟨plain_spaces h, fun start => ?_⟩
  obtain ⟨rest, rfl⟩ := List.head?_eq_some_iff.1 start
  exact absurd (h '\n' (by simp)) (by decide)

theorem isLead_append {run text : List Char} (hrun : IsSpaces run) (plain : ∀ d ∈ text, IsPlain d)
    (start : text.head? ≠ some '\n') : IsLead (run ++ text) := by
  refine ⟨List.forall_mem_append.2 ⟨plain_spaces hrun, plain⟩, ?_⟩
  cases run with
  | nil => exact start
  | cons d run => exact (isLead_spaces hrun).2

/-- The first letter of a word is no line feed. -/
theorem start_ne_feed {c : Char} {text : List Char} (hc : c ≠ '\n') :
    (c :: text).head? ≠ some '\n' :=
  fun h => hc (Option.some.inj h)

/-! ## The characters that what is cut turns on -/

section Keys

variable {moduleAlias behind stretch : List Char}

theorem equals_of_construction (hname : IsName moduleAlias)
    (h : (construction moduleAlias).Describes behind stretch) (more : List Char) :
    ∃ front back, stretch ++ more = front ++ '=' :: back ∧ IsLead front
      ∧ Constructs moduleAlias back := by
  obtain ⟨head, tail, hhead, -, rfl⟩ := h
  obtain ⟨run, field, gap₁, gap₂, gap₃, className, gap₄, inner, gap₅, rfl,
    hrun, hfield, hgap₁, hgap₂, hgap₃, -⟩ := describes_constructionHead.1 hhead
  have plain : ∀ c ∈ "this.".toList ++ (field ++ gap₁), IsPlain c := List.forall_mem_append.2
    ⟨by decide, List.forall_mem_append.2 ⟨hfield.plain, hgap₁.plain⟩⟩
  exact ⟨_, _, by simp only [List.append_assoc, List.cons_append]; rfl,
    isLead_append hrun plain (start_ne_feed (by decide)),
    constructs_append hgap₂ hgap₃.2 hgap₃.1 hname⟩

theorem equals_of_lookupStatement (hname : IsName moduleAlias)
    (h : (lookupStatement moduleAlias).Describes behind stretch) (more : List Char) :
    ∃ front back, stretch ++ more = front ++ '=' :: back ∧ IsLead front
      ∧ Compares moduleAlias back := by
  obtain ⟨head, tail, hhead, -, rfl⟩ := h
  obtain ⟨run, gap₁, gap₂, gap₃, gap₄, className, gap₅, gap₆, gap₇, result, rfl,
    hrun, hgap₁, hgap₂, hgap₃, hgap₄, -⟩ := describes_lookupHead.1 hhead
  have plain : ∀ c ∈ "if".toList ++ (gap₁ ++ ("((".toList ++ (gap₂ ++ ("token".toList ++ gap₃)))),
      IsPlain c :=
    List.forall_mem_append.2 ⟨by decide, List.forall_mem_append.2 ⟨hgap₁.plain,
      List.forall_mem_append.2 ⟨by decide, List.forall_mem_append.2 ⟨hgap₂.plain,
        List.forall_mem_append.2 ⟨by decide, hgap₃.plain⟩⟩⟩⟩⟩
  exact ⟨_, _, by simp only [List.append_assoc, List.cons_append]; rfl,
    isLead_append hrun plain (start_ne_feed (by decide)), _, rfl, uses_append hgap₄ hname⟩

theorem colon_of_fieldDeclaration (hname : IsName moduleAlias)
    (h : (fieldDeclaration moduleAlias).Describes behind stretch) (more : List Char) :
    ∃ front back, stretch ++ more = front ++ ':' :: back ∧ IsLead front
      ∧ Uses moduleAlias back := by
  obtain ⟨head, tail, hhead, -, rfl⟩ := h
  obtain ⟨run, field, gap₁, gap₂, className, gap₃, rfl, hrun, hfield, hgap₁, hgap₂, -⟩ :=
    describes_fieldHead.1 hhead
  obtain ⟨c, field, rfl⟩ := List.exists_cons_of_ne_nil hfield.1
  have hc : c ≠ '\n' := fun h => absurd (hfield.2 c (by simp)) (by rw [h]; decide)
  have plain : ∀ d ∈ c :: field ++ gap₁, IsPlain d :=
    List.forall_mem_append.2 ⟨hfield.plain, hgap₁.plain⟩
  exact ⟨_, _, by simp only [List.append_assoc, List.cons_append]; rfl,
    isLead_append hrun plain (start_ne_feed hc), uses_append hgap₂ hname⟩

theorem brace_of_accessor (hname : IsName moduleAlias)
    (h : (accessor moduleAlias).Describes behind stretch) (more : List Char) :
    ∃ front back, stretch ++ more = front ++ '\x7b' :: back ∧ IsLead front
      ∧ Makes moduleAlias back := by
  obtain ⟨run, gap, middle, inner, gap', tail, rfl, hrun, hgap, hmiddle, hinner, hgap'⟩ :=
    of_describes_accessor h
  have plain : ∀ c ∈ "get".toList ++ (gap ++ middle), IsPlain c := List.forall_mem_append.2
    ⟨by decide, List.forall_mem_append.2 ⟨hgap.2.plain, hmiddle⟩⟩
  exact ⟨_, _, by simp only [List.append_assoc, List.cons_append]; rfl,
    isLead_append hrun plain (start_ne_feed (by decide)), inner, _, rfl, hinner,
    spaced_append hgap'.2 hgap'.1 hname⟩

end Keys

/-! ## Skipped pieces -/

section Skipped

variable {moduleAlias piece rest : List Char}

theorem skips_construction (hname : IsName moduleAlias) (closed : IsClosed piece)
    (free : Free '=' (Constructs moduleAlias) piece rest) (behind : List Char) :
    (construction moduleAlias).Skips behind piece rest :=
  skips_of_key (fun _ _ more h => equals_of_construction hname h more) closed.stops free behind

theorem skips_lookupStatement (hname : IsName moduleAlias) (closed : IsClosed piece)
    (free : Free '=' (Compares moduleAlias) piece rest) (behind : List Char) :
    (lookupStatement moduleAlias).Skips behind piece rest :=
  skips_of_key (fun _ _ more h => equals_of_lookupStatement hname h more) closed.stops free behind

theorem skips_fieldDeclaration (hname : IsName moduleAlias) (closed : IsClosed piece)
    (free : Free ':' (Uses moduleAlias) piece rest) (behind : List Char) :
    (fieldDeclaration moduleAlias).Skips behind piece rest :=
  skips_of_key (fun _ _ more h => colon_of_fieldDeclaration hname h more) closed.stops free behind

theorem skips_accessor (hname : IsName moduleAlias) (closed : IsClosed piece)
    (free : Free '\x7b' (Makes moduleAlias) piece rest) (behind : List Char) :
    (accessor moduleAlias).Skips behind piece rest :=
  skips_of_key (fun _ _ more h => brace_of_accessor hname h more) closed.stops free behind

/-- An accessor also starts nowhere if its first word does not. -/
theorem skips_accessor_of_gets (closed : IsClosed piece) (free : Free 'g' Gets piece rest)
    (behind : List Char) : (accessor moduleAlias).Skips behind piece rest := by
  refine skips_of_key (fun behind stretch more h => ?_) closed.stops free behind
  obtain ⟨run, gap, middle, inner, gap', tail, rfl, hrun, hgap, -⟩ := of_describes_accessor h
  exact ⟨run, _, by simp only [List.append_assoc, List.cons_append]; rfl,
    isLead_spaces hrun, _, rfl, StartsBlank.append hgap.2 hgap.1⟩

theorem skips_lookup_of_unbraced (hname : IsName moduleAlias) (closed : IsClosed piece)
    (unbraced : '\x7b' ∉ piece) (behind : List Char) :
    (lookupStatement moduleAlias).Skips behind piece rest := by
  refine skips_of_key (fun behind stretch more h => ?_) closed.stops
    (free_of_not_mem unbraced (fun _ => True) rest) behind
  obtain ⟨head, tail, hhead, -, rfl⟩ := h
  obtain ⟨run, gap₁, gap₂, gap₃, gap₄, className, gap₅, gap₆, gap₇, result, rfl,
    hrun, hgap₁, hgap₂, hgap₃, hgap₄, hclass, hgap₅, hgap₆, -⟩ := describes_lookupHead.1 hhead
  have plainClass : ∀ c ∈ '.' :: className, IsPlain c :=
    List.forall_mem_cons.2 ⟨by decide, hclass.plain⟩
  have plain : ∀ c ∈ "if".toList ++ (gap₁ ++ ("((".toList ++ (gap₂ ++ ("token".toList ++ (gap₃
      ++ ("===".toList ++ (gap₄ ++ (moduleAlias ++ ('.' :: className ++ (gap₅ ++ ("))".toList
        ++ gap₆))))))))))), IsPlain c :=
    List.forall_mem_append.2 ⟨by decide, List.forall_mem_append.2 ⟨hgap₁.plain,
      List.forall_mem_append.2 ⟨by decide, List.forall_mem_append.2 ⟨hgap₂.plain,
        List.forall_mem_append.2 ⟨by decide, List.forall_mem_append.2 ⟨hgap₃.plain,
          List.forall_mem_append.2 ⟨by decide, List.forall_mem_append.2 ⟨hgap₄.plain,
            List.forall_mem_append.2 ⟨hname.plain, List.forall_mem_append.2 ⟨plainClass,
              List.forall_mem_append.2 ⟨hgap₅.plain, List.forall_mem_append.2
                ⟨by decide, hgap₆.plain⟩⟩⟩⟩⟩⟩⟩⟩⟩⟩⟩⟩
  exact ⟨_, _, by simp only [List.append_assoc, List.cons_append]; rfl,
    isLead_append hrun plain (start_ne_feed (by decide)), trivial⟩

/-- A statement that needs a semicolon, and something else than a quote in front of it, does not
start in an import line. -/
theorem skips_importLine {pattern : Pattern} {body : List Char}
    (shape : ∀ behind stretch, pattern.Describes behind stretch →
      ∃ front back, stretch = front ++ ';' :: back ∧ ';' ∉ front
        ∧ (∃ c ∈ front.head?, c ≠ '\n') ∧ ∀ c ∈ front.getLast?, c ≠ '\'')
    (plain : ';' ∉ body) (behind : List Char) :
    pattern.Skips behind ((body ++ ['\'']) ++ [';', '\n']) rest := by
  refine .append (fun front back same hback stretch more ahead hs => ?_)
    fun front back same hback stretch more ahead hs => ?_
  · obtain ⟨front', back', rfl, hfront', -, hlast⟩ := shape _ stretch hs
    have plain' : ∀ c ∈ back, ¬ c = ';' := by
      rintro c hc rfl
      have mem : ';' ∈ body ++ ['\''] := same ▸ List.mem_append_right front hc
      exact absurd mem (by simp [plain])
    rw [List.append_assoc] at ahead
    obtain ⟨rfl, -⟩ := first_unique (p := (· = ';')) plain' (fun c hc h => hfront' (h ▸ hc)) rfl rfl ahead
    have last := congrArg List.getLast? same
    cases hc : back.getLast? with
    | none => exact hback (List.getLast?_eq_none_iff.1 hc)
    | some c =>
      rw [List.getLast?_append, List.getLast?_append, hc] at last
      exact hlast '\'' (hc.trans last.symm) rfl
  · obtain ⟨front', back', rfl, hfront', ⟨c, hc, start⟩, -⟩ := shape _ stretch hs
    obtain ⟨front', rfl⟩ := List.head?_eq_some_iff.1 hc
    match front, same with
    | [], same =>
      obtain rfl : [';', '\n'] = back := same
      obtain rfl : ';' = c := (List.cons.inj ahead).1
      exact hfront' (by simp)
    | [_], same =>
      obtain rfl : ['\n'] = back := (List.cons.inj same).2
      exact start (List.cons.inj ahead).1.symm
    | _ :: _ :: _, same =>
      exact hback (List.append_eq_nil_iff.1 (List.cons.inj (List.cons.inj same).2).2.symm).2

theorem skips_construction_importLine (hname : IsName moduleAlias) {body : List Char}
    (plain : ';' ∉ body) (behind : List Char) :
    (construction moduleAlias).Skips behind ((body ++ ['\'']) ++ [';', '\n']) rest := by
  refine skips_importLine (fun behind stretch h => ?_) plain behind
  obtain ⟨head, tail, hhead, -, rfl⟩ := h
  obtain ⟨front, rfl, closes⟩ := (describes_constructionHead.1 hhead).closes hname
  exact ⟨front, tail, by simp, closes⟩

theorem skips_fieldDeclaration_importLine (hname : IsName moduleAlias) {body : List Char}
    (plain : ';' ∉ body) (behind : List Char) :
    (fieldDeclaration moduleAlias).Skips behind ((body ++ ['\'']) ++ [';', '\n']) rest := by
  refine skips_importLine (fun behind stretch h => ?_) plain behind
  obtain ⟨head, tail, hhead, -, rfl⟩ := h
  obtain ⟨front, rfl, closes⟩ := (describes_fieldHead.1 hhead).closes hname
  exact ⟨front, tail, by simp, closes⟩

end Skipped

end RouteTrim.Purge
