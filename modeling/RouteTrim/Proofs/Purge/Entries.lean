import RouteTrim.Proofs.Purge.Reference

/-!
# Entries of lists

The compiled factory lists classes of its modules in brackets, and the entries that name a class of
a purged module go. A text is read as code with lists in it (`Code`), whose entries are either such
names or code again, lists in lists included. The three passes over the text share the work: the
first one takes the names that a comma follows, the second one those that end their list behind
another entry, and the third one those that are alone. What is left after all of them is the same
code without the names (`removeEntries_code`), where each list has one comma between two entries
that were kept.
-/

set_option autoImplicit false

namespace RouteTrim.Purge

open Pattern
open RouteTrim.Text (isBlank)

/-! ## Code with lists -/

mutual

/-- A text with lists in it. -/
inductive Code where
  | text (chars : List Char)
  | list (front opening : List Char) (entries : Entries) (closing : List Char) (rest : Code)

/-- The entries of a list: names of a module, and other code. The blanks that an entry comes with
stand around the comma behind it, if another entry follows. -/
inductive Entries where
  | nil
  | member (name gap gap' : List Char) (rest : Entries)
  | other (item : Code) (gap gap' : List Char) (rest : Entries)

end

def Entries.isNil : Entries → Bool
  | nil => true
  | _ => false

/-- The comma in front of further entries. -/
def Entries.separator (gap gap' : List Char) (rest : Entries) : List Char :=
  if rest.isNil then [] else gap ++ ',' :: gap'

/-- The text of an entry that names a class of the module with an alias. -/
def memberChars (moduleAlias name : List Char) : List Char :=
  moduleAlias ++ '.' :: name

mutual

/-- The text of code whose lists name classes of the module with an alias. -/
def Code.chars (moduleAlias : List Char) : Code → List Char
  | .text chars => chars
  | .list front opening entries closing rest =>
    front ++ ('[' :: opening ++ (entries.chars moduleAlias ++ (closing ++ [']']
      ++ rest.chars moduleAlias)))

/-- The text of the entries of a list. -/
def Entries.chars (moduleAlias : List Char) : Entries → List Char
  | .nil => []
  | .member name gap gap' rest =>
    memberChars moduleAlias name ++ (rest.separator gap gap' ++ rest.chars moduleAlias)
  | .other item gap gap' rest =>
    item.chars moduleAlias ++ (rest.separator gap gap' ++ rest.chars moduleAlias)

end

mutual

/-- Code without the entries that name classes of the module. -/
def Code.without : Code → Code
  | .text chars => .text chars
  | .list front opening entries closing rest =>
      .list front opening entries.without closing rest.without

/-- The entries of a list that are other code. -/
def Entries.without : Entries → Entries
  | .nil => .nil
  | .member _ _ _ rest => rest.without
  | .other item gap gap' rest => .other item.without gap gap' rest.without

end

/-- A character that neither separates the entries of a list nor stands around what does. -/
def IsEdge (c : Char) : Prop :=
  isBlank c = false ∧ c ≠ ','

instance (c : Char) : Decidable (IsEdge c) :=
  inferInstanceAs (Decidable (_ ∧ _))

/-- A text that may be an entry: it is not empty, and it neither begins nor ends with a blank or a
comma. -/
def IsItem (text : List Char) : Prop :=
  text ≠ [] ∧ (∀ c ∈ text.head?, IsEdge c) ∧ ∀ c ∈ text.getLast?, IsEdge c

instance (text : List Char) : Decidable (IsItem text) :=
  inferInstanceAs (Decidable (_ ∧ _ ∧ _))

mutual

/-- The module is referred to in no other place of a code than the entries that name its classes. -/
def Code.IsClear (moduleAlias : List Char) : Code → Prop
  | .text chars => ¬ Refers moduleAlias chars
  | .list front opening entries closing rest => ¬ Refers moduleAlias front ∧ IsGap opening
    ∧ entries.IsClear moduleAlias ∧ IsGap closing ∧ rest.IsClear moduleAlias

/-- The entries of a list are names of classes and items in which the module is clear. -/
def Entries.IsClear (moduleAlias : List Char) : Entries → Prop
  | .nil => True
  | .member name gap gap' rest => IsName name ∧ IsGap gap ∧ IsGap gap' ∧ rest.IsClear moduleAlias
  | .other item gap gap' rest => (item.IsClear moduleAlias ∧ IsItem (item.chars moduleAlias))
    ∧ IsGap gap ∧ IsGap gap' ∧ rest.IsClear moduleAlias

end

/-! ## What the passes look for -/

def followedEntry (moduleAlias : List Char) : Pattern :=
  freeQualified moduleAlias ++ blanks ++ literal "," ++ blanks

/-- An entry and the comma in front of it. -/
def precededEntry (moduleAlias : List Char) : Pattern :=
  blanks ++ literal "," ++ blanks ++ freeQualified moduleAlias

theorem removeEntries_eq (moduleAlias content : List Char) :
    removeEntries moduleAlias content = (freeQualified moduleAlias).removeAll
      ((precededEntry moduleAlias).removeAll ((followedEntry moduleAlias).removeAll content)) :=
  rfl

section Leaves

variable {moduleAlias behind rest : List Char}

theorem of_describes_followedEntry {stretch : List Char}
    (h : (followedEntry moduleAlias).Describes behind stretch) :
    ∃ name gap gap', stretch = memberChars moduleAlias name ++ (gap ++ ',' :: gap')
      ∧ (∀ c ∈ behind.head?, continuesName c = false) ∧ IsName name ∧ IsGap gap := by
  obtain ⟨_, gap', ⟨_, _, ⟨_, gap, hfree, hgap, rfl⟩, hcomma, rfl⟩, -, rfl⟩ := h
  obtain ⟨start, name, rfl, hname⟩ := describes_freeQualified.1 hfree
  obtain rfl := describes_literal.1 hcomma
  exact ⟨name, gap, gap', by simp [memberChars], start, hname, hgap⟩

theorem of_describes_precededEntry {stretch : List Char}
    (h : (precededEntry moduleAlias).Describes behind stretch) :
    ∃ gap gap' name, stretch = (gap ++ ',' :: gap') ++ memberChars moduleAlias name
      ∧ (∀ c ∈ ((gap ++ ',' :: gap').reverse ++ behind).head?, continuesName c = false)
      ∧ IsName name ∧ IsGap gap ∧ IsGap gap' := by
  obtain ⟨_, _, ⟨_, gap', ⟨gap, _, hgap, hcomma, rfl⟩, hgap', rfl⟩, hfree, rfl⟩ := h
  obtain ⟨start, name, rfl, hname⟩ := describes_freeQualified.1 hfree
  obtain rfl := describes_literal.1 hcomma
  exact ⟨gap, gap', name, by simp [memberChars], by simpa using start, hname, hgap, hgap'⟩

theorem isName_member (hname : IsName moduleAlias) (name : List Char) :
    ∃ c ∈ (memberChars moduleAlias name).head?, isNameChar c = true := by
  obtain ⟨c, word, rfl⟩ := List.exists_cons_of_ne_nil hname.1
  exact ⟨c, rfl, hname.2 c (by simp)⟩

theorem continues_member (hname : IsName moduleAlias) {name : List Char} (hclass : IsName name) :
    ∀ c ∈ memberChars moduleAlias name, continuesName c = true := by
  intro c hc
  simp only [memberChars, List.mem_append, List.mem_cons] at hc
  rcases hc with hc | rfl | hc
  · simp [continuesName, hname.2 c hc]
  · decide
  · simp [continuesName, hclass.2 c hc]

theorem border_gap {gap : List Char} {mark : Char} (hgap : IsGap gap)
    (hmark : continuesName mark = false)
    (more : List Char) : ∀ c ∈ (gap ++ mark :: more).head?, continuesName c = false := by
  cases gap with
  | nil => exact fun c hc => Option.some.inj hc ▸ hmark
  | cons d gap => exact fun c hc => Option.some.inj hc ▸ continuesName_of_isBlank (hgap d (by simp))

theorem isNameChar_of_border {c : Char} (h : continuesName c = false) : isNameChar c = false := by
  rw [continuesName, Bool.or_eq_false_iff] at h
  exact h.1

/-! ### A name that is cut or skipped -/

theorem takes_member (start : ∀ c ∈ behind.head?, continuesName c = false) {name : List Char}
    (hclass : IsName name) (border : ∀ c ∈ rest.head?, isNameChar c = false) :
    (freeQualified moduleAlias).Takes behind (memberChars moduleAlias name) rest := by
  have takes : (freeQualified moduleAlias).Takes behind ([] ++ ((moduleAlias ++ ".".toList) ++ name)) rest :=
    .append (takes_nameStart start _) (.append (.append (takes_exactly moduleAlias _ _)
      (takes_literal "." _ _)) (takes_oneOrMore hclass.1 hclass.2 border))
  have same : memberChars moduleAlias name = [] ++ ((moduleAlias ++ ".".toList) ++ name) := by
    simp [memberChars]
  exact same ▸ takes

theorem memberChars_ne_nil (moduleAlias name : List Char) : memberChars moduleAlias name ≠ [] := by
  simp [memberChars]

theorem cuts_followedEntry (start : ∀ c ∈ behind.head?, continuesName c = false)
    {name gap gap' : List Char}
    (hclass : IsName name) (hgap : IsGap gap) (hgap' : IsGap gap')
    (next : ∀ c ∈ rest.head?, isBlank c = false) :
    (followedEntry moduleAlias).Cuts behind (memberChars moduleAlias name ++ (gap ++ ',' :: gap')) rest := by
  have border : ∀ c ∈ (gap ++ (",".toList ++ (gap' ++ rest))).head?, isNameChar c
      = false := fun c hc =>
    isNameChar_of_border (border_gap hgap (by decide) (gap' ++ rest) c hc)
  have takes : (followedEntry moduleAlias).Takes behind
      (memberChars moduleAlias name ++ gap ++ ",".toList ++ gap') rest := by
    refine .append (.append (.append (takes_member start hclass ?_) (takes_many hgap ?_))
      (takes_literal "," _ _)) (takes_many hgap' next)
    · simpa using border
    · exact fun c hc => Option.some.inj hc ▸ by decide
  have same : memberChars moduleAlias name ++ (gap ++ ',' :: gap')
      = memberChars moduleAlias name ++ gap ++ ",".toList ++ gap' := by simp
  exact same ▸ takes.cuts (by simp [memberChars])

theorem cuts_precededEntry {gap gap' name : List Char} (hname : IsName moduleAlias)
    (hclass : IsName name)
    (hgap : IsGap gap) (hgap' : IsGap gap') (border : ∀ c ∈ rest.head?, isNameChar c = false) :
    (precededEntry moduleAlias).Cuts behind ((gap ++ ',' :: gap') ++ memberChars moduleAlias name) rest := by
  have takes : (precededEntry moduleAlias).Takes behind
      (gap ++ ",".toList ++ gap' ++ memberChars moduleAlias name) rest := by
    refine .append (.append (.append (takes_many hgap ?_) (takes_literal "," _ _)) (takes_many hgap' ?_))
      (takes_member ?_ hclass border)
    · exact fun c hc => Option.some.inj hc ▸ by decide
    · simpa [memberChars] using hname.head_not_blank ('.' :: (name ++ rest))
    · simpa using start_behind_gap (by decide : continuesName ',' = false) hgap' (gap.reverse ++ behind)
  have same : (gap ++ ',' :: gap') ++ memberChars moduleAlias name
      = gap ++ ",".toList ++ gap' ++ memberChars moduleAlias name := by simp
  exact same ▸ takes.cuts (by simp [memberChars])

theorem skips_followedEntry_last (hname : IsName moduleAlias) {name gap : List Char}
    (hclass : IsName name)
    (hgap : IsGap gap) (more : List Char) :
    (followedEntry moduleAlias).Skips behind (memberChars moduleAlias name) (gap ++ ']' :: more) := by
  rintro front back same hback stretch more' ahead hs
  obtain ⟨name', gap₁, gap₂, rfl, start, hclass', hgap₁⟩ := of_describes_followedEntry hs
  rcases front.eq_nil_or_concat with rfl | ⟨front, c, rfl⟩
  · obtain rfl : memberChars moduleAlias name = back := same
    simp only [memberChars, List.append_assoc, List.cons_append, List.append_cancel_left_eq,
      List.cons.injEq, true_and] at ahead
    -- Both texts go on behind the alias with a name, blanks, and then a comma here and a bracket
    -- there.
    have marks := congrArg behindWord ahead
    rw [← List.nil_append (name ++ _), behindWord_append isGap_nil hclass (fun c hc =>
      isNameChar_of_border (border_gap hgap (by decide) more c hc)), ← List.nil_append (name' ++ _),
      behindWord_append isGap_nil hclass' (fun c hc =>
        isNameChar_of_border (border_gap hgap₁ (by decide) (gap₂ ++ more') c hc))] at marks
    obtain ⟨-, marks, -⟩ := first_unique (p := fun c => ¬ isBlank c = true)
      (fun c hc => not_not_intro (hgap c hc)) (fun c hc => not_not_intro (hgap₁ c hc))
      (by decide) (by decide) marks
    exact absurd marks (by decide)
  · have inside := continues_member hname hclass c (same ▸ by simp)
    exact absurd (start c (by simp)) (by simp [inside])

/-! ### Texts that are skipped -/

theorem skips_freeQualified_of_marks (hname : IsName moduleAlias) {piece : List Char}
    (marks : ∀ c ∈ piece, isNameChar c = false) (behind : List Char) :
    (freeQualified moduleAlias).Skips behind piece rest := by
  refine skips_of_head (fun behind stretch hs => ?_) marks behind
  obtain ⟨-, name, rfl, -⟩ := describes_freeQualified.1 hs
  exact isName_member hname name

theorem skips_followedEntry_of_marks (hname : IsName moduleAlias) {piece : List Char}
    (marks : ∀ c ∈ piece, isNameChar c = false) (behind : List Char) :
    (followedEntry moduleAlias).Skips behind piece rest := by
  refine skips_of_head (fun behind stretch hs => ?_) marks behind
  obtain ⟨name, gap, gap', rfl, -⟩ := of_describes_followedEntry hs
  obtain ⟨c, hc, first⟩ := isName_member hname name
  exact ⟨c, by rw [List.head?_append, Option.mem_def.1 hc]; rfl, first⟩

theorem skips_followedEntry (hname : IsName moduleAlias) {piece : List Char}
    (unused : ¬ Refers moduleAlias piece) (border : ∀ c ∈ rest.head?, continuesName c = false)
    (behind : List Char) : (followedEntry moduleAlias).Skips behind piece rest := by
  refine skips_freeQualified hname (fun behind stretch hs => ?_) unused border behind
  obtain ⟨name, gap, gap', rfl, start, hclass, -⟩ := of_describes_followedEntry hs
  exact ⟨_, _, rfl, describes_freeQualified.2 ⟨start, name, rfl, hclass⟩⟩

/-- What leads to a name behind a comma consists of blanks and commas. -/
theorem lead_of_gaps {gap gap' : List Char} (hgap : IsGap gap) (hgap' : IsGap gap') :
    ∀ c ∈ gap ++ ',' :: gap', ¬ IsEdge c := by
  intro c hc edge
  rcases List.mem_append.1 hc with hc | hc
  · exact absurd (hgap c hc) (by simp [edge.1])
  · rcases List.mem_cons.1 hc with rfl | hc
    · exact edge.2 rfl
    · exact absurd (hgap' c hc) (by simp [edge.1])

theorem isEdge_of_isNameChar {c : Char} (h : isNameChar c = true) : IsEdge c :=
  ⟨isBlank_of_isNameChar h, by rintro rfl; exact absurd h (by decide)⟩

theorem isEdge_of_continuesName {c : Char} (h : continuesName c = true) : IsEdge c := by
  rw [continuesName, Bool.or_eq_true] at h
  rcases h with h | h
  · exact isEdge_of_isNameChar h
  · exact eq_of_beq h ▸ by decide

/-- Without a blank or a comma nothing starts that leads to a name behind a comma. -/
theorem skips_precededEntry_of_edges {piece : List Char} (edges : ∀ c ∈ piece, IsEdge c)
    (behind : List Char) : (precededEntry moduleAlias).Skips behind piece rest := by
  refine skips_of_head (p := fun c => ! decide (IsEdge c)) (fun behind stretch hs => ?_)
    (fun c hc => by simp [edges c hc]) behind
  obtain ⟨gap, gap', name, rfl, -, -, hgap, hgap'⟩ := of_describes_precededEntry hs
  obtain ⟨c, lead, same⟩ := List.exists_cons_of_ne_nil (l := gap ++ ',' :: gap') (by simp)
  exact ⟨c, by rw [same]; rfl, by simp [lead_of_gaps hgap hgap' c (by simp [same])]⟩

/-- A text that does not refer to the module leads to no name behind a comma, if it does not end in
blanks or commas or if what follows it is neither of those nor a name. -/
theorem skips_precededEntry (hname : IsName moduleAlias) {piece : List Char}
    (unused : ¬ Refers moduleAlias piece) (border : ∀ c ∈ rest.head?, continuesName c = false)
    (apart : (∀ c ∈ piece.getLast?, IsEdge c) ∨ ∀ c ∈ rest.head?, IsEdge c) (behind : List Char) :
    (precededEntry moduleAlias).Skips behind piece rest := by
  rintro front back rfl hback stretch more ahead hs
  obtain ⟨gap, gap', name, rfl, start, hclass, hgap, hgap'⟩ := of_describes_precededEntry hs
  have lead := lead_of_gaps hgap hgap'
  rw [List.append_assoc] at ahead
  rcases List.append_eq_append_iff.1 ahead with ⟨m, hm, hrest⟩ | ⟨m, rfl, hm⟩
  · -- The name would start behind the text.
    cases m with
    | nil =>
      obtain ⟨c, hc, first⟩ := isName_member hname name
      have hc : c ∈ rest.head? := by
        rw [hrest, List.nil_append, List.head?_append, Option.mem_def.1 hc]
        rfl
      exact absurd first (by simp [isNameChar_of_border (border c hc)])
    | cons d m =>
      rcases apart with apart | apart
      · cases hlast : back.getLast? with
        | none => exact hback (List.getLast?_eq_none_iff.1 hlast)
        | some c =>
          have mem : c ∈ gap ++ ',' :: gap' := by
            rw [hm]
            exact List.mem_append_left _ (List.mem_of_getLast? hlast)
          exact lead c mem (apart c (by rw [List.getLast?_append, hlast]; rfl))
      · exact lead d (by rw [hm]; simp) (apart d (by rw [hrest]; rfl))
  · obtain ⟨c, name, rfl⟩ := List.exists_cons_of_ne_nil hclass.1
    have continues : ∀ d ∈ moduleAlias ++ ['.', c], continuesName d = true := fun d hd =>
      continues_member hname hclass d (by
        simp only [memberChars, List.mem_append, List.mem_cons, List.not_mem_nil, or_false] at hd ⊢
        rcases hd with hd | rfl | rfl <;> simp [*])
    have same : m ++ rest = moduleAlias ++ ['.', c] ++ (name ++ more) := by
      simpa [memberChars] using hm.symm
    obtain ⟨back, rfl, -⟩ := prefix_of_border continues (fun d hd => by simp [border d hd]) same
    have start : ∀ d ∈ ((front ++ (gap ++ ',' :: gap')).reverse ++ behind).head?,
        continuesName d = false := by
      simpa using start
    exact unused ⟨front ++ (gap ++ ',' :: gap'), c, back, by simp, head?_reverse_of_getLast? start,
      hclass.2 c (by simp)⟩

def BeginsMember (moduleAlias text : List Char) : Prop :=
  ∃ c back, text = moduleAlias ++ '.' :: c :: back ∧ isNameChar c = true

/-- Blanks and commas lead to no name if there is no comma among them or if none follows. -/
theorem skips_precededEntry_of_gaps (hname : IsName moduleAlias) {piece : List Char}
    (gaps : ∀ c ∈ piece, ¬ IsEdge c) (next : ∀ c ∈ rest.head?, IsEdge c)
    (apart : ',' ∉ piece ∨ ¬ BeginsMember moduleAlias rest) (behind : List Char) :
    (precededEntry moduleAlias).Skips behind piece rest := by
  rintro front back rfl hback stretch more ahead hs
  obtain ⟨gap, gap', name, rfl, -, hclass, hgap, hgap'⟩ := of_describes_precededEntry hs
  obtain ⟨c, hc, first⟩ := isName_member hname name
  rw [List.append_assoc] at ahead
  rcases List.append_eq_append_iff.1 ahead with ⟨m, hm, hrest⟩ | ⟨m, rfl, hm⟩
  · cases m with
    | nil =>
      rw [List.append_nil] at hm
      rcases apart with apart | apart
      · exact apart (List.mem_append_right _ (hm ▸ by simp))
      · obtain ⟨d, name, rfl⟩ := List.exists_cons_of_ne_nil hclass.1
        exact apart ⟨d, name ++ more, by simpa [memberChars] using hrest, hclass.2 d (by simp)⟩
    | cons d m =>
      exact lead_of_gaps hgap hgap' d (by rw [hm]; simp) (next d (by rw [hrest]; rfl))
  · cases m with
    | nil =>
      rcases apart with apart | apart
      · exact apart (by simp)
      · obtain ⟨d, name, rfl⟩ := List.exists_cons_of_ne_nil hclass.1
        exact apart ⟨d, name ++ more, by simpa [memberChars] using hm.symm, hclass.2 d (by simp)⟩
    | cons d m =>
      obtain ⟨tail, same⟩ := List.head?_eq_some_iff.1 hc
      rw [same] at hm
      obtain rfl := (List.cons.inj hm).1
      exact gaps c (by simp) (isEdge_of_isNameChar first)

end Leaves

end RouteTrim.Purge
