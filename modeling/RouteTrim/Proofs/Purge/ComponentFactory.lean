import RouteTrim.Proofs.Purge.Entries
import RouteTrim.Proofs.Purge.Import

/-!
# A factory without a component factory

A compiled factory imports the module of a component factory and names its classes in lists. Purging
it takes the import and those names (`withoutComponentFactory_code`). Each of the three passes is
followed through the code and its lists at once: what it leaves of a text is again a text with
lists, so that the next pass goes on from there (`Code.trims_followed`, `Code.trims_preceded`,
`Code.trims_alone`).
-/

set_option autoImplicit false

namespace RouteTrim.Purge

open Pattern
open RouteTrim.Path (WorkingFolder)
open RouteTrim.Text (isBlank)

/-! ## What the passes leave -/

mutual

/-- The text of code after the first pass, which leaves a name only at the end of its list, or after
the second one, which leaves it only in a list with nothing else. -/
def Code.left (twice : Bool) (moduleAlias : List Char) : Code → List Char
  | .text chars => chars
  | .list front opening entries closing rest =>
    front ++ ('[' :: opening ++ (entries.left twice moduleAlias
      ++ (closing ++ [']'] ++ rest.left twice moduleAlias)))

/-- The text of the entries of a list after the first pass or the second one. -/
def Entries.left (twice : Bool) (moduleAlias : List Char) : Entries → List Char
  | .nil => []
  | .member name _ _ rest =>
    if rest.isNil then memberChars moduleAlias name else rest.left twice moduleAlias
  | .other item gap gap' rest =>
    item.left twice moduleAlias ++ (if twice && rest.without.isNil then []
      else rest.separator gap gap' ++ rest.left twice moduleAlias)

end

theorem border_separator {gap : List Char} (hgap : IsGap gap) (gap' text rest : List Char) :
    ∀ c ∈ ((gap ++ ',' :: gap') ++ text ++ rest).head?, continuesName c = false := by
  rw [List.append_assoc, List.append_assoc]
  exact border_gap hgap (by decide) _

theorem Entries.eq_nil {entries : Entries} (h : entries.isNil = true) : entries = .nil := by
  cases entries with
  | nil => rfl
  | member | other => exact absurd h (by simp [isNil])

theorem Entries.separator_eq {entries : Entries} (h : entries.isNil = false)
    (gap gap' : List Char) :
    entries.separator gap gap' = gap ++ ',' :: gap' := by
  rw [separator, h]
  rfl

theorem Entries.isNil_of_without {entries : Entries} (h : entries.without.isNil = false) :
    entries.isNil = false := by
  cases entries with
  | nil => exact h
  | member | other => rfl

theorem getLast?_bracket (text tail : List Char) :
    (text ++ [']'] ++ tail).getLast? = tail.getLast?.or (some ']') := by
  rw [List.getLast?_append, List.getLast?_concat]

section Ends

variable (twice : Bool) (moduleAlias : List Char)

theorem Code.head?_left (code : Code) :
    (code.left twice moduleAlias).head? = (code.chars moduleAlias).head? := by
  cases code with
  | text chars => rfl
  | list front opening entries closing rest => simp [left, chars]

theorem Code.getLast?_left :
    (code : Code) → (code.left twice moduleAlias).getLast? = (code.chars moduleAlias).getLast?
  | .text chars => rfl
  | .list front opening entries closing rest => by
    simp only [left, chars, ← List.append_assoc, getLast?_bracket, rest.getLast?_left]

/-- What the passes leave of an entry is still fit to be one. -/
theorem IsItem.left {item : Code} (h : IsItem (item.chars moduleAlias)) :
    IsItem (item.left twice moduleAlias) := by
  refine ⟨fun nil => h.1 ?_, ?_, ?_⟩
  · have none_ := item.head?_left twice moduleAlias
    rw [nil] at none_
    exact List.head?_eq_none_iff.1 none_.symm
  · rw [item.head?_left]
    exact h.2.1
  · rw [item.getLast?_left]
    exact h.2.2

end Ends

section Heads

variable {moduleAlias : List Char} (hname : IsName moduleAlias)

include hname

theorem edge_member (name more : List Char) :
    ∀ c ∈ (memberChars moduleAlias name ++ more).head?, IsEdge c := by
  obtain ⟨c, hc, first⟩ := isName_member hname name
  rw [List.head?_append, Option.mem_def.1 hc]
  exact fun d hd => Option.some.inj hd ▸ isEdge_of_isNameChar first

omit hname in
theorem IsItem.edge {text : List Char} (h : IsItem text) (more : List Char) :
    ∀ c ∈ (text ++ more).head?, IsEdge c := by
  obtain ⟨d, text, rfl⟩ := List.exists_cons_of_ne_nil h.1
  exact h.2.1

theorem Entries.edge_chars {entries : Entries} (clear : entries.IsClear moduleAlias)
    (some_ : entries.isNil = false) (more : List Char) :
    ∀ c ∈ (entries.chars moduleAlias ++ more).head?, IsEdge c := by
  cases entries with
  | nil => exact absurd some_ (by decide)
  | member name gap gap' rest =>
    rw [chars, List.append_assoc]
    exact edge_member hname name _
  | other item gap gap' rest =>
    rw [chars, List.append_assoc]
    exact clear.1.2.edge _

/-- What the passes leave of the entries of a list begins with no blank and no comma either. -/
theorem Entries.edge_left (twice : Bool) :
    (entries : Entries) → entries.IsClear moduleAlias → entries.isNil = false → (more : List Char) →
      ∀ c ∈ (entries.left twice moduleAlias ++ more).head?, IsEdge c
  | .nil, _, some_, _ => absurd some_ (by decide)
  | .member name gap gap' rest, clear, _, more => by
    rw [left]
    cases hrest : rest.isNil with
    | true => exact edge_member hname name more
    | false => exact rest.edge_left twice clear.2.2.2 hrest more
  | .other item gap gap' rest, clear, _, more => by
    rw [left, List.append_assoc]
    exact (clear.1.2.left twice).edge _

theorem Code.not_beginsMember (twice : Bool) {code : Code} (clear : code.IsClear moduleAlias)
    {rest : List Char} (border : ∀ c ∈ rest.head?, continuesName c = false) :
    ¬ BeginsMember moduleAlias (code.left twice moduleAlias ++ rest) := by
  -- The name would stand in the text that the code begins with.
  have within {text more : List Char} (unused : ¬ Refers moduleAlias text)
      (border : ∀ c ∈ more.head?, continuesName c = false) :
          ¬ BeginsMember moduleAlias (text ++ more) := by
    rintro ⟨c, back, same, hc⟩
    have hclass : IsName [c] := ⟨by simp, by simpa using hc⟩
    have continues : ∀ d ∈ moduleAlias ++ ['.', c], continuesName d = true :=
      continues_member hname hclass
    obtain ⟨back, rfl, -⟩ := prefix_of_border continues (fun d hd => by simp [border d hd])
      (by simpa using same : text ++ more = (moduleAlias ++ ['.', c]) ++ back)
    exact unused ⟨[], c, back, by simp, by simp, hc⟩
  cases code with
  | text chars => exact within clear border
  | list front opening entries closing more =>
    rw [left, List.append_assoc]
    exact within clear.1 fun c hc => Option.some.inj hc ▸ by decide

theorem Entries.not_beginsMember (twice : Bool) :
    (entries : Entries) → entries.IsClear moduleAlias → entries.without.isNil = false →
      {more : List Char} → (∀ c ∈ more.head?, continuesName c = false) →
        ¬ BeginsMember moduleAlias (entries.left twice moduleAlias ++ more)
  | .nil, _, some_, _, _ => absurd some_ (by decide)
  | .member name gap gap' rest, clear, some_, more, border => by
    have some_ : rest.without.isNil = false := some_
    rw [left, isNil_of_without some_]
    exact rest.not_beginsMember twice clear.2.2.2 some_ border
  | .other item gap gap' rest, clear, some_, more, border => by
    rw [left, List.append_assoc]
    refine item.not_beginsMember hname twice clear.1.1 ?_
    split
    · exact border
    · cases hrest : rest.isNil with
      | true =>
        obtain rfl := eq_nil hrest
        exact border
      | false =>
        rw [separator_eq hrest]
        exact border_separator clear.2.1 _ _ _

omit hname in
/-- Of entries that all go the first pass leaves the last one. -/
theorem Entries.left_of_members (twice : Bool) :
    (entries : Entries) → entries.IsClear moduleAlias → entries.isNil = false →
      entries.without.isNil = true →
        ∃ name, IsName name ∧ entries.left twice moduleAlias = memberChars moduleAlias name
  | .nil, _, some_, _ => absurd some_ (by decide)
  | .member name gap gap' rest, clear, _, none_ => by
    rw [left]
    cases hrest : rest.isNil with
    | true => exact ⟨name, clear.1, rfl⟩
    | false => exact rest.left_of_members twice clear.2.2.2 hrest none_
  | .other item gap gap' rest, _, _, none_ => absurd none_ (by simp [without, isNil])

end Heads

/-! ## The passes -/

/-- Blanks and a closing bracket come next. -/
def Closes (text : List Char) : Prop :=
  ∃ gap more, text = gap ++ ']' :: more ∧ IsGap gap

theorem Closes.border {text : List Char}
    (h : Closes text) : ∀ c ∈ text.head?, continuesName c = false := by
  obtain ⟨gap, more, rfl, hgap⟩ := h
  exact border_gap hgap (by decide) more

theorem border_bracket (more : List Char) : ∀ c ∈ ('[' :: more).head?, continuesName c = false :=
  fun _ hc => Option.some.inj hc ▸ by decide

theorem closes_append {gap : List Char} (hgap : IsGap gap) (text rest : List Char) :
    Closes (gap ++ [']'] ++ text ++ rest) :=
  ⟨gap, text ++ rest, by simp, hgap⟩

theorem start_behind_separator {gap' : List Char} (hgap' : IsGap gap') (gap behind : List Char) :
    ∀ c ∈ ((gap ++ ',' :: gap').reverse ++ behind).head?, continuesName c = false := by
  rw [List.reverse_append, List.append_assoc]
  exact start_behind_gap (by decide) hgap' _

theorem marks_bracket {gap : List Char} (hgap : IsGap gap) {mark : Char}
    (hmark : isNameChar mark = false) :
    ∀ c ∈ mark :: gap, isNameChar c = false :=
  List.forall_mem_cons.2 ⟨hmark, fun c hc => isNameChar_of_isBlank (hgap c hc)⟩

theorem marks_gap {gap : List Char} (hgap : IsGap gap) {marks : List Char}
    (hmarks : ∀ c ∈ marks, isNameChar c = false) : ∀ c ∈ gap ++ marks, isNameChar c = false :=
  List.forall_mem_append.2 ⟨fun c hc => isNameChar_of_isBlank (hgap c hc), hmarks⟩

section Passes

variable {moduleAlias : List Char} (hname : IsName moduleAlias)

include hname

mutual

/-- The first pass takes the names that a comma follows. -/
theorem Code.trims_followed : (code : Code) → code.IsClear moduleAlias → (behind rest : List Char) →
    (∀ c ∈ rest.head?, continuesName c = false) → (followedEntry moduleAlias).Trims behind
      (code.chars moduleAlias) rest (code.left false moduleAlias)
  | .text chars, clear, behind, rest, border =>
      (skips_followedEntry hname clear border behind).trims
  | .list front opening entries closing more, ⟨unused, hopening, hentries,
      hclosing, hmore⟩, behind, rest, border => by
    rw [Code.chars, Code.left]
    refine .append (skips_followedEntry hname unused (border_bracket _) behind).trims (.append
      (skips_followedEntry_of_marks hname (marks_bracket hopening (by decide)) _).trims
      (.append (entries.trims_followed hentries _ _ ?_ (closes_append hclosing _ _))
        (.append (skips_followedEntry_of_marks hname (marks_gap hclosing (by decide)) _).trims
          (more.trims_followed hmore _ rest border))))
    exact start_behind_gap (by decide) hopening _

theorem Entries.trims_followed : (entries : Entries) → entries.IsClear moduleAlias →
    (behind rest : List Char) → (∀ c ∈ behind.head?, continuesName c = false) → Closes rest →
      (followedEntry moduleAlias).Trims behind (entries.chars moduleAlias) rest
        (entries.left false moduleAlias)
  | .nil, _, behind, rest, _, _ => trims_nil _ behind rest
  | .member name gap gap' more, ⟨hclass, hgap, hgap', hmore⟩, behind, rest, start, closes => by
    rw [Entries.chars, Entries.left]
    cases hnil : more.isNil with
    | true =>
      obtain rfl := Entries.eq_nil hnil
      obtain ⟨gap, text, rfl, hgap⟩ := closes
      simpa [Entries.separator, Entries.isNil,
        Entries.chars] using (skips_followedEntry_last hname hclass hgap text).trims
    | false =>
      have next : ∀ c ∈ (more.chars moduleAlias ++ rest).head?, isBlank c = false := fun c hc =>
        (more.edge_chars hname hmore hnil rest c hc).1
      rw [Entries.separator_eq hnil, ← List.append_assoc]
      refine .append (cuts_followedEntry start hclass hgap hgap' next).trims
        (more.trims_followed hmore _ rest ?_ closes)
      rw [List.reverse_append, List.append_assoc]
      exact start_behind_separator hgap' gap _
  | .other item gap gap' more, ⟨⟨hitem, isItem⟩, hgap, hgap', hmore⟩, behind,
        rest, start, closes => by
    rw [Entries.chars, Entries.left]
    cases hnil : more.isNil with
    | true =>
      obtain rfl := Entries.eq_nil hnil
      simpa [Entries.separator, Entries.isNil, Entries.chars,
        Entries.left] using item.trims_followed hitem behind rest closes.border
    | false =>
      rw [Entries.separator_eq hnil]
      refine .append (item.trims_followed hitem behind _ ?_) (.append
        (skips_followedEntry_of_marks hname (marks_gap hgap (marks_bracket hgap' (by decide))) _).trims
        (more.trims_followed hmore _ rest ?_ closes))
      · exact border_separator hgap _ _ _
      · exact start_behind_separator hgap' gap _

end

/-- The blanks behind an opening bracket lead to no name behind a comma, nor do those that follow if
the list is empty. -/
theorem Entries.skips_opening (twice : Bool) {entries : Entries}
    (clear : entries.IsClear moduleAlias) {opening closing more : List Char}
    (hopening : IsGap opening) (hclosing : IsGap closing) (behind : List Char) :
    (precededEntry moduleAlias).Skips behind opening
      (entries.left twice moduleAlias ++ (closing ++ [']'] ++ more)) := by
  have blank {gap : List Char} (hgap : IsGap gap) : ∀ c ∈ gap, ¬ IsEdge c := fun c hc edge =>
    absurd (hgap c hc) (by simp [edge.1])
  have comma {gap : List Char} (hgap : IsGap gap) : ',' ∉ gap := hgap.not_mem (by decide)
  cases hnil : entries.isNil with
  | true =>
    obtain rfl := eq_nil hnil
    rw [left, List.nil_append, List.append_assoc]
    have bracket : ∀ c ∈ ([']'] ++ more).head?, IsEdge c := fun c hc =>
      Option.some.inj hc ▸ by decide
    exact Skips.of_append (skips_precededEntry_of_gaps hname
      (List.forall_mem_append.2 ⟨blank hopening, blank hclosing⟩) bracket
      (.inl (by simp [comma hopening, comma hclosing])) behind)
  | false =>
    exact skips_precededEntry_of_gaps hname (blank hopening)
      (entries.edge_left hname twice clear hnil _) (.inl (comma hopening)) behind

theorem skips_precededEntry_closing {closing : List Char} (hclosing : IsGap closing)
    (behind rest : List Char) :
    (precededEntry moduleAlias).Skips behind (closing ++ [']']) rest :=
  have skips : (precededEntry moduleAlias).Skips behind closing ([']'] ++ rest) :=
    @Entries.skips_opening _ hname false .nil trivial _ _ rest hclosing isGap_nil behind
  .append skips (skips_precededEntry_of_edges (by decide) _)

mutual

theorem Code.trims_preceded : (code : Code) → code.IsClear moduleAlias → (behind rest : List Char) →
    (∀ c ∈ rest.head?, continuesName c = false) →
    ((∀ c ∈ (code.left false moduleAlias).getLast?, IsEdge c) ∨ ∀ c ∈ rest.head?, IsEdge c) →
      (precededEntry moduleAlias).Trims behind (code.left false moduleAlias) rest
        (code.left true moduleAlias)
  | .text chars, clear, behind, rest, border, apart =>
    (skips_precededEntry hname clear border apart behind).trims
  | .list front opening entries closing more, ⟨unused, hopening, hentries,
      hclosing, hmore⟩, behind, rest, border, apart => by
    have bracket (text : List Char) : ∀ c ∈ ('[' :: text).head?, IsEdge c :=
      fun c hc => Option.some.inj hc ▸ by decide
    have skipsOpening : (precededEntry moduleAlias).Skips (front.reverse ++ behind) (['['] ++ opening)
        (entries.left false moduleAlias ++ (closing ++ [']'] ++ more.left false moduleAlias) ++ rest) := by
      refine .append (skips_precededEntry_of_edges (by decide) _) ?_
      rw [List.append_assoc, List.append_assoc]
      exact entries.skips_opening hname false hentries hopening hclosing _
    rw [Code.left, Code.left]
    refine .append (skips_precededEntry hname unused (border_bracket _) (.inr (bracket _)) behind).trims
      (.append skipsOpening.trims (.append (entries.trims_preceded hentries _ _ (closes_append hclosing _ _))
        (.append (skips_precededEntry_closing hname hclosing _ _).trims
          (more.trims_preceded hmore _ rest border (apart.imp_left fun last c hc => ?_)))))
    refine last c ?_
    simp only [Code.left, ← List.append_assoc, getLast?_bracket]
    rw [Option.mem_def.1 hc]
    rfl

theorem Entries.trims_preceded : (entries : Entries) → entries.IsClear moduleAlias →
    (behind rest : List Char) → Closes rest →
      (precededEntry moduleAlias).Trims behind (entries.left false moduleAlias) rest
        (entries.left true moduleAlias)
  | .nil, _, behind, rest, _ => trims_nil _ behind rest
  | .member name gap gap' more, ⟨hclass, hgap, hgap', hmore⟩, behind, rest, closes => by
    rw [Entries.left, Entries.left]
    cases hnil : more.isNil with
    | true =>
      exact (skips_precededEntry_of_edges (fun c hc => isEdge_of_continuesName
        (continues_member hname hclass c hc)) behind).trims
    | false => exact more.trims_preceded hmore behind rest closes
  | .other item gap gap' more, ⟨⟨hitem, isItem⟩, hgap, hgap', hmore⟩, behind, rest, closes => by
    have last : ∀ c ∈ (item.left false moduleAlias).getLast?, IsEdge c := (isItem.left false).2.2
    rw [Entries.left, Entries.left]
    cases hnone : more.without.isNil with
    | true =>
      cases hnil : more.isNil with
      | true =>
        obtain rfl := Entries.eq_nil hnil
        simpa [Entries.separator, Entries.isNil, Entries.left] using
          item.trims_preceded hitem behind rest closes.border (.inl last)
      | false =>
        obtain ⟨name, hclass, same⟩ := more.left_of_members false hmore hnil hnone
        rw [same, Entries.separator_eq hnil]
        refine .append (item.trims_preceded hitem behind _ ?_ (.inl last))
          (cuts_precededEntry hname hclass hgap hgap' fun c hc => isNameChar_of_border (closes.border c hc)).trims
        exact border_separator hgap _ _ _
    | false =>
      have hnil := Entries.isNil_of_without hnone
      rw [Entries.separator_eq hnil]
      refine .append (item.trims_preceded hitem behind _ ?_ (.inl last)) (.append
        (skips_precededEntry_of_gaps hname (lead_of_gaps hgap hgap')
          (more.edge_left hname false hmore hnil rest)
          (.inr (more.not_beginsMember hname false hmore hnone closes.border)) _).trims
        (more.trims_preceded hmore _ rest closes))
      exact border_separator hgap _ _ _

end

mutual

theorem Code.trims_alone : (code : Code) → code.IsClear moduleAlias → (behind rest : List Char) →
    (∀ c ∈ rest.head?, continuesName c = false) → (freeQualified moduleAlias).Trims behind
      (code.left true moduleAlias) rest (code.without.chars moduleAlias)
  | .text chars, clear, behind, rest, border =>
    (skips_freeQualified hname (fun _ stretch hs => ⟨stretch, [], by simp, hs⟩) clear border behind).trims
  | .list front opening entries closing more, ⟨unused, hopening, hentries,
      hclosing, hmore⟩, behind, rest, border => by
    rw [Code.left, Code.without, Code.chars]
    refine .append (skips_freeQualified hname (fun _ stretch hs => ⟨stretch, [], by simp, hs⟩) unused
      (border_bracket _) behind).trims (.append
      (skips_freeQualified_of_marks hname (marks_bracket hopening (by decide)) _).trims
      (.append (entries.trims_alone hentries _ _ ?_ (closes_append hclosing _ _))
        (.append (skips_freeQualified_of_marks hname (marks_gap hclosing (by decide)) _).trims
          (more.trims_alone hmore _ rest border))))
    exact start_behind_gap (by decide) hopening _

theorem Entries.trims_alone : (entries : Entries) → entries.IsClear moduleAlias →
    (behind rest : List Char) → (∀ c ∈ behind.head?, continuesName c = false) → Closes rest →
      (freeQualified moduleAlias).Trims behind (entries.left true moduleAlias) rest
        (entries.without.chars moduleAlias)
  | .nil, _, behind, rest, _, _ => trims_nil _ behind rest
  | .member name gap gap' more, ⟨hclass, hgap, hgap', hmore⟩, behind, rest, start, closes => by
    rw [Entries.left, Entries.without]
    cases hnil : more.isNil with
    | true =>
      obtain rfl := Entries.eq_nil hnil
      exact ((takes_member start hclass fun c hc => isNameChar_of_border (closes.border c hc)).cuts
        (memberChars_ne_nil moduleAlias name)).trims
    | false => exact more.trims_alone hmore behind rest start closes
  | .other item gap gap' more, ⟨⟨hitem, isItem⟩, hgap, hgap', hmore⟩, behind,
        rest, start, closes => by
    rw [Entries.left, Entries.without, Entries.chars]
    cases hnone : more.without.isNil with
    | true =>
      rw [Entries.eq_nil hnone]
      simpa [Entries.separator, Entries.isNil, Entries.chars] using
        item.trims_alone hitem behind rest closes.border
    | false =>
      rw [Entries.separator_eq hnone, Entries.separator_eq (Entries.isNil_of_without hnone)]
      refine .append (item.trims_alone hitem behind _ ?_) (.append
        (skips_freeQualified_of_marks hname (marks_gap hgap (marks_bracket hgap' (by decide))) _).trims
        (more.trims_alone hmore _ rest (start_behind_separator hgap' gap _) closes))
      exact border_separator hgap _ _ _

end

/-- **The entries of a module go** from all lists, and nothing else does. -/
theorem removeEntries_code {code : Code} (clear : code.IsClear moduleAlias) :
    removeEntries moduleAlias (code.chars moduleAlias) = code.without.chars moduleAlias := by
  have first := (code.trims_followed hname clear [] [] (by simp)).removeAll
  have second := (code.trims_preceded hname clear [] [] (by simp) (.inr (by simp))).removeAll
  have third := (code.trims_alone hname clear [] [] (by simp)).removeAll
  rw [removeEntries_eq, first, second, third]

end Passes

/-! ## The factory -/

/-- **A component factory is purged** from a compiled factory that refers to its module nowhere but
in the entries of lists: the import goes with the end of its line, and the entries go from their
lists.

The lists may lie in each other and be of any length, and the entries that go may be any of theirs.
Each goes with one comma, the one behind it or, if it is the last that is left, the one in front of
it, so what is left of a list is written as a list of the other entries. This takes three passes,
each of which sees what the one before it left; all three are read off the same tree of lists. -/
theorem withoutComponentFactory_code [WorkingFolder] {file module : String}
    {before statement tail moduleAlias : List Char}
    {code : Code} (isImport : IsImportAs (specifierOf file module) moduleAlias statement)
    (first : (aliasedImport (specifierOf file module)).Skips [] before (statement ++ tail))
    (start : ∀ c ∈ before.getLast?, continuesName c = false)
    (same : before ++ afterStatement tail = code.chars moduleAlias)
    (clear : code.IsClear moduleAlias) :
    withoutComponentFactory file (String.ofList (before ++ (statement ++ tail))) module
      = String.ofList (code.without.chars moduleAlias) := by
  have found := removeImport_of_first isImport first start
  rw [withoutComponentFactory, String.toList_ofList, found, same]
  exact congrArg String.ofList (removeEntries_code (isName_of_removeImport found) clear)

/-- Names go that are first, last or alone in their list, also in a list within a list; a longer
alias that begins like theirs stays. -/
theorem withoutComponentFactory_nested :
    let before := "/* generated */\n".toList
    let statement := "import * as import1 from './x.ngfactory'".toList
    let tail := ";\nsuper([import1.A, import1.B, import12.C, [ import1.D ], import1.E], [import1.F]);\n".toList
    withoutComponentFactory "/app/f.js" (String.ofList (before ++ (statement ++ tail))) "/app/x.ngfactory.js"
      = "/* generated */\nsuper([import12.C, [  ]], []);\n" := by
  intro before statement tail
  let inner : Code := .list [] " ".toList (.member "D".toList [] [] .nil) " ".toList (.text [])
  let entries : Entries := .member "A".toList [] " ".toList (.member "B".toList [] " ".toList
    (.other (.text "import12.C".toList) [] " ".toList (.other inner [] " ".toList
      (.member "E".toList [] [] .nil))))
  let code : Code := .list (before ++ "super(".toList) [] entries []
    (.list ", ".toList [] (.member "F".toList [] [] .nil) [] (.text ");\n".toList))
  have isImport : IsImportAs (specifierOf "/app/f.js" "/app/x.ngfactory.js") "import1".toList statement :=
    ⟨" ".toList, " ".toList, " ".toList, " ".toList, " ".toList, '\'',
      by decide +kernel, by decide, by decide, by decide, by decide, by decide, by decide, .inl rfl⟩
  have clear : code.IsClear "import1".toList := by
    simp only [code, entries, inner, Code.IsClear, Entries.IsClear]
    decide +kernel
  exact withoutComponentFactory_code isImport (skips_aliasedImport_of_not_mem (by decide +kernel) _ _)
    (by decide +kernel) (by decide +kernel : before ++ afterStatement tail = code.chars "import1".toList) clear

end RouteTrim.Purge
