import RouteTrim.Proofs.Purge.Again
import RouteTrim.Proofs.Purge.Shape

/-!
# An accessor of another service

A class has accessors of several services, and only those that make the purged one are to go. An
accessor that does not mention the alias of the purged module is skipped by every pass
(`skips_getter`), so it can be lost in one way only: what is cut begins in front of it and reaches
over it. A field and a lookup close too early for that, and so does an import whose specifier has no
brace. An accessor and a construction are cut as far as their first return of a field and their
first semicolon. Where these stand in front of the other accessor (`IsShut`), the text in front of
it is purged as it would be alone, and the accessor stays as it is (`withoutController_getter`);
where they do not, it is lost (`withoutController_overruns`).
-/

set_option autoImplicit false

namespace RouteTrim.Purge

open Pattern
open RouteTrim.Path (WorkingFolder)
open RouteTrim.Text (isBlank)

/-! ## Accessors of any service -/

/-- An accessor without blanks in front of it, such as `get f() { … }`. -/
def IsGetter (text : List Char) : Prop :=
  ∃ field head body, text = head ++ ("\x7b".toList ++ (body ++ "\x7d".toList))
    ∧ IsAccessorHead field head ∧ head.head? = some 'g'

/-- An accessor in the usual spacing. -/
theorem isGetter_plain {field : List Char} (hfield : IsName field) (body : List Char) :
    IsGetter ("get ".toList ++ (field ++ ("() \x7b".toList ++ (body ++ "\x7d".toList)))) := by
  refine ⟨field, "get ".toList ++ (field ++ "() ".toList), body, ?_, ⟨[], " ".toList, [],
    [], " ".toList, [], ?_, by simp [IsSpaces], ⟨by decide, isGap_space⟩, hfield, isGap_nil,
    isGap_nil, isGap_space, .inl rfl⟩, rfl⟩
  · simp only [List.append_assoc]
    rfl
  · simp only [List.append_nil, List.nil_append]
    rfl

section Getter

variable {getter : List Char}

/-- An accessor begins with `get`, a blank, and names and blanks up to a parenthesis. -/
theorem IsGetter.opening (h : IsGetter getter) :
    ∃ c word more, getter = "get".toList ++ c :: (word ++ '(' :: more) ∧ isBlank c = true
      ∧ ∀ d ∈ word, isNameChar d = true ∨ isBlank d = true := by
  obtain ⟨field, _, body, rfl, ⟨run, gap, gap₁, gap₂, gap₃, type, rfl, hrun, ⟨hne,
    hgap⟩, hfield, hgap₁, -⟩, start⟩ := h
  obtain ⟨c, gap, rfl⟩ := List.exists_cons_of_ne_nil hne
  obtain rfl : run = [] := by
    cases run with
    | nil => rfl
    | cons d run => exact absurd (hrun d (by simp)) (by rw [Option.some.inj start]; decide)
  refine ⟨c, gap ++ (field ++ gap₁),
    _, by simp only [List.append_assoc, List.cons_append, List.nil_append]; rfl, hgap c (by simp), ?_⟩
  exact List.forall_mem_append.2 ⟨fun d hd => .inr (hgap d (by simp [hd])), List.forall_mem_append.2
    ⟨fun d hd => .inl (hfield.2 d hd), fun d hd => .inr (hgap₁ d hd)⟩⟩

theorem IsGetter.parenthesis (h : IsGetter getter) :
    ∃ word more, getter = word ++ '(' :: more ∧ ∀ d ∈ word, isNameChar d = true
      ∨ isBlank d = true := by
  obtain ⟨c, word, more, rfl, hc, hword⟩ := h.opening
  refine ⟨"get".toList ++ c :: word, more, by simp, List.forall_mem_append.2 ⟨by decide, ?_⟩⟩
  exact List.forall_mem_cons.2 ⟨.inr hc, hword⟩

theorem IsGetter.closes (h : IsGetter getter) : ∃ body, getter = body ++ ['\x7d'] := by
  obtain ⟨field, head, body, rfl, -⟩ := h
  exact ⟨head ++ ("\x7b".toList ++ body), by simp⟩

theorem IsGetter.starts (h : IsGetter getter)
    (rest : List Char) : (getter ++ rest).head? = some 'g' := by
  obtain ⟨c, word, more, rfl, -⟩ := h.opening
  rfl

/-- In front of the brace of an accessor there is no quote. -/
theorem IsGetter.unquoted (h : IsGetter getter) :
    ∃ head more, getter = head ++ '\x7b' :: more ∧ ∀ quote, quote = '\''
      ∨ quote = '"' → quote ∉ head := by
  obtain ⟨field, _, body, rfl, ⟨run, gap, gap₁, gap₂, gap₃, type, rfl, hrun, ⟨-,
    hgap⟩, hfield, hgap₁, hgap₂, hgap₃, htype⟩, -⟩ := h
  refine ⟨_, body ++ "\x7d".toList, rfl, fun quote hquote => ?_⟩
  have blank : isBlank quote = false := by rcases hquote with rfl | rfl <;> decide
  have name : continuesName quote = false := by rcases hquote with rfl | rfl <;> decide
  have name' : isNameChar quote = false := by rcases hquote with rfl | rfl <;> decide
  have literal_ : quote ∉ "get".toList ∧ quote ∉ "(".toList ∧ quote ∉ ")".toList
      ∧ quote ∉ ":".toList := by
    rcases hquote with rfl | rfl <;> decide
  have inType : quote ∉ type := by
    rcases htype with rfl | ⟨gap₄, name_, gap₅, rfl, hgap₄, hname, hgap₅⟩
    · simp
    · simp only [List.mem_append, not_or]
      exact ⟨literal_.2.2.2, hgap₄.not_mem blank, fun mem => absurd (hname.2 _ mem) (by simp [name]),
        hgap₅.not_mem blank⟩
  simp only [List.mem_append, not_or]
  refine ⟨fun mem => ?_, literal_.1, IsGap.not_mem hgap blank, hfield.not_mem name', hgap₁.not_mem blank,
    literal_.2.1, hgap₂.not_mem blank, literal_.2.2.1, hgap₃.not_mem blank, inType⟩
  rcases hrun quote mem with rfl | rfl <;> rcases hquote with h | h <;> exact absurd h (by decide)

end Getter

/-! ## What is cut for a service names its module in front of the accessor -/

section Around

variable {moduleAlias getter : List Char} (hname : IsName moduleAlias) (isGetter : IsGetter getter)
  (unused : ¬ Mentions moduleAlias getter)

theorem unclosed_alias {moduleAlias lead : List Char} (hname : IsName moduleAlias)
    (open_ : '\x7d' ∉ lead) :
    '\x7d' ∉ lead ++ (moduleAlias ++ ['.']) := by
  simp only [List.mem_append, not_or]
  exact ⟨open_, hname.not_mem (by decide), by decide⟩

include isGetter in
/-- What does not hold its first letter ends in front of an accessor. -/
theorem line_in_front {line more front rest : List Char} (hline : 'g' ∉ line)
    (same : front ++ (getter ++ rest) = line ++ more) :
    ∃ back, front = line ++ back ∧ more = back ++ (getter ++ rest) := by
  refine prefix_of_border (p := fun c => c ≠ 'g') (fun c hc e => hline (e ▸ hc)) (fun c hc => ?_) same
  rw [isGetter.starts] at hc
  exact fun ne => ne (Option.some.inj hc).symm

include hname isGetter unused

theorem alias_in_front {lead tail front rest : List Char} (open_ : '\x7d' ∉ lead)
    (start : ∃ d ∈ lead.getLast?, continuesName d = false)
    (same : front ++ (getter ++ rest) = lead ++ (moduleAlias ++ '.' :: tail)) :
    ∃ more, front = lead ++ (moduleAlias ++ '.' :: more) ∧ tail = more ++ (getter ++ rest) := by
  obtain ⟨body, closes⟩ := isGetter.closes
  have ahead : ((front ++ body) ++ ['\x7d']) ++ rest = (lead ++ (moduleAlias
      ++ ['.'])) ++ tail := by
    simpa [closes] using same
  obtain ⟨more, hfront, rfl⟩ := prefix_of_unclosed (unclosed_alias hname open_) ahead
  rcases List.append_eq_append_iff.1 hfront with ⟨m, hm, hbody⟩ | ⟨m, rfl, rfl⟩
  · rcases m.eq_nil_or_concat with rfl | ⟨m, c, rfl⟩
    · exact ⟨[], by simpa using hm.symm, by simp [closes, hbody]⟩
    · -- The dot would stand in the accessor, with the alias in front of it.
      rw [List.concat_eq_append] at hm hbody
      rw [← List.append_assoc, ← List.append_assoc] at hm
      obtain ⟨heads, last⟩ := List.append_inj' hm rfl
      obtain rfl : '.' = c := List.singleton_inj.1 last
      rcases List.append_eq_append_iff.1 heads with ⟨k, -, hk⟩ | ⟨k, hk, rfl⟩
      · obtain ⟨c, word, others, opening, hc, -⟩ := isGetter.opening
        have names : ∀ d ∈ m, ¬ isNameChar d = false := fun d hd => by
          simp [hname.2 d (hk ▸ List.mem_append_right k hd)]
        have begins : "get".toList ++ c :: (word ++ '(' :: others) = m ++ '.' :: (more ++ ['\x7d']) := by
          rw [← opening, closes, hbody]
          simp
        obtain ⟨-, rfl, -⟩ := first_unique (p := fun d => isNameChar d = false) (by decide) names
          (isNameChar_of_isBlank hc) (by decide) begins
        exact absurd hc (by decide)
      · refine absurd ⟨k, '.' :: (more ++ ['\x7d']), by simp [closes, hbody], fun c hc => ?_,
          not_name_dot _⟩ unused
        obtain ⟨d, hd, continues⟩ := start
        rw [hk, List.getLast?_append, Option.mem_def.1 hc] at hd
        exact Option.some.inj hd ▸ continues
  · exact ⟨m, by simp, by simp [closes]⟩

/-- Nothing that is cut for a service starts in an accessor that does not mention its module. -/
theorem skips_getter (part : Part) (behind rest : List Char) :
    (part.pattern moduleAlias).Skips behind getter rest := by
  intro front back same hback stretch more ahead hs
  obtain ⟨lead, tail, rfl, open_, d, hd, continues⟩ := Part.of_describes hs
  obtain ⟨body, closes⟩ := isGetter.closes
  obtain ⟨init, c, rfl⟩ := (back.eq_nil_or_concat).resolve_left hback
  rw [List.concat_eq_append] at same ahead
  obtain ⟨-, last⟩ := List.append_inj' (closes.symm.trans (same.trans (List.append_assoc ..).symm)) rfl
  obtain rfl : '\x7d' = c := List.singleton_inj.1 last
  have ahead : (init ++ ['\x7d']) ++ rest = (lead ++ (moduleAlias ++ ['.'])) ++ (tail ++ more) := by
    simpa using ahead
  obtain ⟨m, rfl, -⟩ := prefix_of_unclosed (unclosed_alias hname open_) ahead
  refine unused ⟨front ++ lead, '.' :: (m ++ ['\x7d']), by simp [same],
    fun c hc => ?_, not_name_dot _⟩
  rw [List.getLast?_append, Option.mem_def.1 hd] at hc
  exact Option.some.inj hc ▸ continues

end Around

/-! ## What ends in front of the accessor -/

theorem not_mem_restOfLine {behind line : List Char} {c : Char}
    (h : restOfLine.Describes behind line) (hc : isBlank c = false) : c ∉ line := by
  obtain ⟨run, feed, hrun, hfeed, rfl⟩ := h
  rw [List.mem_append, not_or]
  constructor
  · rintro mem
    rcases describes_spaces.1 hrun c mem with rfl | rfl <;> exact absurd hc (by decide)
  · rcases hfeed with ⟨return_, line, hreturn, hline, rfl⟩ | hfeed
    · obtain rfl := describes_literal.1 hline
      rcases hreturn with hreturn | hreturn
      · obtain rfl := describes_literal.1 hreturn
        exact IsGap.not_mem (by decide) hc
      · obtain rfl : return_ = [] := hreturn
        exact IsGap.not_mem (by decide) hc
    · obtain rfl : feed = [] := hfeed
      simp

theorem staysIn_of_described {pattern : Pattern} {behind text rest : List Char}
    (h : ∀ front back, text = front ++ back → ∀ stretch more, back ++ rest = stretch ++ more →
      pattern.Describes (front.reverse ++ behind) stretch → ∃ m, back = stretch ++ m) :
    pattern.StaysIn behind text rest := by
  intro front back same hback last hlast
  obtain ⟨stretch, more, ahead, rfl, hs⟩ := of_end?_eq_some hlast
  obtain ⟨m, rfl⟩ := h front back same stretch more ahead hs
  have rest_ : more = m ++ rest := by simpa using ahead.symm
  rw [Place.isWithin_iff, rest_, List.length_append]
  exact Nat.le_add_left _ _

section Ends

variable {moduleAlias getter : List Char} (hname : IsName moduleAlias) (isGetter : IsGetter getter)
  (unused : ¬ Mentions moduleAlias getter)

include hname isGetter unused

/-- What opens no parenthesis between the alias and the mark that closes it ends in front of an
accessor. -/
theorem staysIn_of_parts {pattern : Pattern} {mark : Char} (hmark : mark = ';' ∨ mark = '\x7d')
    (shape : ∀ behind s, pattern.Describes behind s → ∃ lead inner line,
      s = lead ++ (moduleAlias ++ '.' :: (inner ++ mark :: line)) ∧ '\x7d' ∉ lead
        ∧ (∃ d ∈ lead.getLast?, continuesName d = false) ∧ '(' ∉ inner ∧ 'g' ∉ line)
    (behind text rest : List Char) : pattern.StaysIn behind text (getter ++ rest) := by
  refine staysIn_of_described fun front back same stretch more ahead hs => ?_
  obtain ⟨lead, inner, line, rfl, open_, start, hinner, hline⟩ := shape _ _ hs
  have ahead : back ++ (getter ++ rest)
      = lead ++ (moduleAlias ++ '.' :: (inner ++ mark :: (line ++ more))) := ahead.trans (by simp)
  obtain ⟨b, rfl, hb⟩ := alias_in_front hname isGetter unused open_ start ahead
  obtain ⟨word, others, hgetter, hword⟩ := isGetter.parenthesis
  have absent : mark ∉ word := fun mem =>
    absurd (hword mark mem) (by rcases hmark with rfl | rfl <;> decide)
  have ahead' : inner ++ mark :: (line ++ more) = b ++ (word ++ '(' :: (others ++ rest)) := by
    simpa [hgetter] using hb
  obtain ⟨b, rfl, tail⟩ := mark_in_front ahead' hinner absent (by rcases hmark with rfl | rfl <;> decide)
  have tail : b ++ (getter ++ rest) = line ++ more := by rw [tail, hgetter]; simp
  obtain ⟨b, rfl, -⟩ := line_in_front isGetter hline tail
  exact ⟨b, by simp⟩

theorem staysIn_lookupStatement (behind text rest : List Char) :
    (lookupStatement moduleAlias).StaysIn behind text (getter ++ rest) := by
  refine staysIn_of_parts hname isGetter unused (.inr rfl) (fun behind s hs => ?_) behind text rest
  obtain ⟨s, line, hs, hline, rfl⟩ := hs
  obtain ⟨front, gap, inner, rfl, hfront, hgap, hinner⟩ := (describes_lookupHead.1 hs).parts
  refine ⟨front ++ '=' :: gap, inner, line, by simp, ?_, getLast?_mark (by decide) hgap _, hinner,
    not_mem_restOfLine hline (by decide)⟩
  simp only [List.mem_append, List.mem_cons, not_or]
  exact ⟨hfront, by decide, hgap.not_mem (by decide)⟩

theorem staysIn_fieldDeclaration (behind text rest : List Char) :
    (fieldDeclaration moduleAlias).StaysIn behind text (getter ++ rest) := by
  refine staysIn_of_parts hname isGetter unused (.inl rfl) (fun behind s hs => ?_) behind text rest
  obtain ⟨s, line, hs, hline, rfl⟩ := hs
  obtain ⟨front, gap, inner, rfl, hfront, hgap, hinner⟩ := (describes_fieldHead.1 hs).parts
  refine ⟨front ++ ':' :: gap, inner, line, by simp, ?_, getLast?_mark (by decide) hgap _, hinner,
    not_mem_restOfLine hline (by decide)⟩
  simp only [List.mem_append, List.mem_cons, not_or]
  exact ⟨hfront, by decide, hgap.not_mem (by decide)⟩

/-- A construction ends in front of an accessor if a semicolon follows each one in front of it. -/
theorem staysIn_construction {text : List Char}
    (closed : ∀ back ∈ after '=' text, Constructs moduleAlias back → ';' ∈ back)
    (behind rest : List Char) :
    (construction moduleAlias).StaysIn behind text (getter ++ rest) := by
  refine staysIn_of_described fun front back same stretch more ahead hs => ?_
  obtain ⟨s, line, hs, hline, rfl⟩ := hs
  obtain ⟨front', gap, gap', inner, rfl, hfront', hgap, hgap', hinner⟩ :=
    (describes_constructionHead.1 hs).parts
  have open_ : '\x7d' ∉ front' ++ '=' :: (gap ++ ("new".toList ++ gap')) := by
    simp only [List.mem_append, List.mem_cons, not_or]
    exact ⟨hfront', by decide, hgap.not_mem (by decide), by decide,
      IsGap.not_mem hgap'.2 (by decide)⟩
  have start : ∃ d ∈ (front' ++ '=' :: (gap ++ ("new".toList ++ gap'))).getLast?, continuesName d = false := by
    simpa using getLast?_gap hgap' (front' ++ '=' :: (gap ++ "new".toList))
  have ahead : back ++ (getter ++ rest) = (front' ++ '=' :: (gap ++ ("new".toList ++ gap')))
      ++ (moduleAlias ++ '.' :: (inner ++ ';' :: (line ++ more))) := ahead.trans (by simp)
  obtain ⟨b, rfl, hb⟩ := alias_in_front hname isGetter unused open_ start ahead
  have constructs : Constructs moduleAlias (gap ++ ("new".toList ++ (gap' ++ (moduleAlias ++ '.' :: b)))) :=
    constructs_append hgap hgap'.2 hgap'.1 hname
  have semicolon := closed _ (mem_after.2 ⟨front ++ front', by simp [same]⟩) constructs
  have later : ';' ∈ b := by
    simp only [List.mem_append, List.mem_cons] at semicolon
    rcases semicolon with h | h | h | h | h | h
    · exact absurd h (hgap.not_mem (by decide))
    · exact absurd h (by decide)
    · exact absurd h (IsGap.not_mem hgap'.2 (by decide))
    · exact absurd h (hname.not_mem (by decide))
    · exact absurd h (by decide)
    · exact h
  -- The first semicolon behind the alias is the one that the construction ends at.
  obtain none_ | ⟨x, c, y, rfl, hx, rfl⟩ := first_or_none (· = ';') b
  · exact absurd rfl (none_ ';' later)
  have ends : inner ++ ';' :: (line ++ more) = x ++ ';' :: (y ++ (getter ++ rest)) := by simpa using hb
  obtain ⟨rfl, -, tail⟩ := first_unique (p := (· = ';')) (fun d hd e => hinner (e ▸ hd)) hx rfl rfl ends
  obtain ⟨z, rfl, -⟩ := line_in_front isGetter (not_mem_restOfLine hline (by decide)) tail.symm
  exact ⟨z, by simp⟩

end Ends

/-! ## Accessors that end in front of the accessor -/

/-- An accessor, up to a construction of something of the module in it. -/
def opening (moduleAlias : List Char) : Pattern :=
  accessorHead ++ literal "\x7b" ++ few (fun c => c != '\x7d') ++ making moduleAlias

/-- A text begins with a class, and a field is returned somewhere behind that. -/
def Answers (text : List Char) : Prop :=
  text.takeWhile isNameChar ≠ [] ∧ returnField.Occurs (text.dropWhile isNameChar)

section Opening

variable {moduleAlias behind stretch : List Char}

theorem describes_opening :
    (opening moduleAlias).Describes behind stretch ↔ ∃ head inner new,
      stretch = head ++ ("\x7b".toList ++ (inner ++ new)) ∧ accessorHead.Describes behind head
        ∧ '\x7d' ∉ inner ∧ IsMaking moduleAlias new := by
  constructor
  · rintro ⟨_, new, ⟨_, inner, ⟨head, _, hhead, hbrace, rfl⟩, hinner, rfl⟩, hnew, rfl⟩
    obtain rfl := describes_literal.1 hbrace
    exact ⟨head, inner, new, by simp only [List.append_assoc], hhead,
      fun mem => absurd (hinner _ mem) (by simp), describes_making.1 hnew⟩
  · rintro ⟨head, inner, new, rfl, hhead, hinner, hnew⟩
    have unclosed : ∀ c ∈ inner, (c != '\x7d') = true := fun c hc => by
      simpa using ne_of_mem_of_not_mem hc hinner
    exact ⟨_, _, ⟨_, _, ⟨_, _, hhead, describes_literal.2 rfl, rfl⟩, unclosed, rfl⟩,
      describes_making.2 hnew, by simp only [List.append_assoc]⟩

theorem opening_of_accessor (h : (accessor moduleAlias).Describes behind stretch) :
    ∃ front tail, stretch = front ++ tail ∧ (opening moduleAlias).Describes behind front := by
  obtain ⟨_, line, ⟨_, result, ⟨_, between, ⟨_, _, ⟨_, gap, ⟨begun, _, hbegun,
    hnew, rfl⟩, hgap, rfl⟩, hqualified, rfl⟩, -, rfl⟩, -, rfl⟩, -, rfl⟩ := h
  obtain rfl := describes_literal.1 hnew
  obtain ⟨className, rfl, -⟩ := describes_qualified.1 hqualified
  refine ⟨begun ++ ("new".toList ++ (gap ++ (moduleAlias ++ ".".toList))),
    className ++ (between ++ (result ++ line)), by simp, begun, _, hbegun, ?_, rfl⟩
  exact describes_making.2 ⟨gap, rfl, describes_someBlanks.1 hgap⟩

end Opening

section Shut

variable {moduleAlias getter : List Char} (hname : IsName moduleAlias) (isGetter : IsGetter getter)
  (unused : ¬ Mentions moduleAlias getter)

/-- What begins with a class and returns a field behind it does so for the first time. -/
theorem Answers.first {text : List Char} (h : Answers text) :
    ∃ className between result more, text = className
      ++ (between ++ (result ++ more)) ∧ IsName className
      ∧ (∀ c ∈ (between ++ result).head?, isNameChar c = false) ∧ IsReturn result
      ∧ returnField.Skips [] between result := by
  obtain ⟨hclass, front, s, back, same, hs⟩ := h
  have same : text.dropWhile isNameChar = front ++ (s ++ back) := by simpa [Place.start] using same
  obtain ⟨between, result, more, ahead, hresult, first⟩ := exists_first same hs
  refine ⟨text.takeWhile isNameChar, between, result, more, ?_, ⟨hclass,
    fun c hc => ?_⟩, fun c hc => ?_, describes_returnField.1 hresult, first.shorten⟩
  · rw [← ahead, List.takeWhile_append_dropWhile]
  · exact List.all_eq_true.1 List.all_takeWhile c hc
  · have stops := List.head?_dropWhile_not isNameChar text
    rw [ahead, ← List.append_assoc, List.head?_append, Option.mem_def.1 hc] at stops
    exact stops

include isGetter in
theorem line_in_front_ends (text rest : List Char) :
    ∃ line back, text = line ++ back
      ∧ ∀ behind, restOfLine.Takes behind line (back ++ (getter ++ rest)) := by
  obtain ⟨line, hline, takes⟩ := line_ends (text ++ (getter ++ rest))
  obtain ⟨back, htext, hrest⟩ := line_in_front isGetter
    (not_mem_restOfLine (takes []).describes (by decide)) hline
  exact ⟨line, back, htext, hrest ▸ takes⟩

include hname isGetter unused

/-- An accessor of the purged module that is begun in front of another one makes something of the
module in front of it. -/
theorem opening_in_front {behind front stretch more rest : List Char}
    (h : (opening moduleAlias).Describes behind stretch)
    (ahead : front ++ (getter ++ rest) = stretch ++ more) :
    ∃ back, front = stretch ++ back := by
  obtain ⟨head, inner, _, rfl, hhead, hinner, gap, rfl, hgap⟩ := describes_opening.1 h
  have open_ : '\x7d' ∉ (head ++ ("\x7b".toList ++ (inner ++ "new".toList))) ++ gap := by
    simp only [List.mem_append, not_or]
    exact ⟨⟨not_mem_of_plain (plain_of_accessorHead hhead) (by decide),
      by decide, hinner, by decide⟩, IsGap.not_mem hgap.2 (by decide)⟩
  have ahead : front ++ (getter ++ rest) = ((head ++ ("\x7b".toList ++ (inner
      ++ "new".toList))) ++ gap) ++ (moduleAlias ++ '.' :: more) := ahead.trans (by simp)
  obtain ⟨back, hback, -⟩ := alias_in_front hname isGetter unused open_ (getLast?_gap hgap _) ahead
  exact ⟨back, by simp [hback]⟩

/-- An accessor of the purged module ends in front of another one if each that is begun in front of
it is answered there. -/
theorem staysIn_accessor {text : List Char}
    (answered : ∀ front stretch back, text = front ++ (stretch ++ back) →
      (opening moduleAlias).Describes front.reverse stretch → Answers back) (rest : List Char) :
    (accessor moduleAlias).StaysIn [] text (getter ++ rest) := by
  intro front back same hback last hlast
  rw [List.append_nil] at hlast
  obtain ⟨stretch, more, ahead, -, hs⟩ := of_end?_eq_some hlast
  obtain ⟨start, tail, rfl, begun⟩ := opening_of_accessor hs
  obtain ⟨b, rfl⟩ := opening_in_front hname isGetter unused begun (ahead.trans (List.append_assoc ..))
  obtain ⟨head, inner, new, rfl, hhead, hinner, hnew⟩ := describes_opening.1 begun
  -- What counts is the first construction behind the brace, and the first return behind that.
  have whole : inner ++ new = inner ++ (new ++ []) := by simp
  have made : (making moduleAlias).Describes (inner.reverse ++ []) new := describes_making.2 hnew
  obtain ⟨inner', new', b', split, hnew', first⟩ := exists_first whole made
  have hnew' := describes_making.1 hnew'
  have hinner' : '\x7d' ∉ inner' := fun mem => by
    have mem : '\x7d' ∈ inner ++ new := split ▸ List.mem_append_left _ mem
    obtain ⟨gap, rfl, hgap⟩ := hnew
    simp only [List.mem_append] at mem
    rcases mem with h | h | h | h | h
    · exact hinner h
    · exact absurd h (by decide)
    · exact IsGap.not_mem hgap.2 (by decide) h
    · exact hname.not_mem (by decide) h
    · exact absurd h (by decide)
  have begun' := describes_opening.2 ⟨head, inner', new', rfl, hhead, hinner', hnew'⟩
  obtain ⟨className, between, result, c, answer, hclass, border, hresult, first'⟩ :=
    (answered front _ (b' ++ b) (by simp [same, split]) begun').first
  obtain ⟨line, d, rfl, hline⟩ := line_in_front_ends isGetter c rest
  have isBody : IsAccessorBody moduleAlias
      ("\x7b".toList ++ (inner' ++ (new' ++ (className ++ (between ++ result))))) :=
    ⟨inner', new', className, between, result, rfl, hinner', hnew', first.shorten,
      hclass, border, hresult, first'⟩
  have cuts := (isBody.takes hname hhead hline).cuts (by simp)
  have ahead : head ++ ("\x7b".toList ++ (inner ++ new)) ++ b ++ (getter ++ rest)
      = (head ++ (("\x7b".toList ++ (inner' ++ (new' ++ (className ++ (between
        ++ result))))) ++ line)) ++ (d ++ (getter ++ rest)) := by
    rw [split]
    simp only [List.append_assoc, answer]
  rw [ahead] at hlast
  obtain rfl := Option.some.inj (cuts.symm.trans hlast)
  have longer : (getter ++ rest).length ≤ (d ++ (getter ++ rest)).length := by simp
  exact Place.isWithin_iff.2 longer

end Shut

/-! ## Imports end in front of the accessor -/

section Imports

variable {specifier : String} {moduleAlias getter : List Char} (isGetter : IsGetter getter)

theorem not_mem_statementEnd {behind ending : List Char}
    (h : statementEnd.Describes behind ending) :
    'g' ∉ ending := by
  obtain ⟨_, line, ⟨run, mark, hrun, hmark, rfl⟩, hline, rfl⟩ := h
  simp only [List.mem_append, not_or]
  refine ⟨⟨fun mem => ?_, ?_⟩, not_mem_restOfLine hline (by decide)⟩
  · rcases describes_spaces.1 hrun _ mem with h | h <;> exact absurd h (by decide)
  · rcases hmark with hmark | hmark
    · obtain rfl := describes_literal.1 hmark
      decide
    · obtain rfl : mark = [] := hmark
      simp

include isGetter

theorem staysIn_aliasedImport (braceless : '\x7b' ∉ specifier.toList)
    (behind text rest : List Char) :
    (aliasedImport specifier).StaysIn behind text (getter ++ rest) := by
  refine staysIn_of_described fun front back same stretch more ahead hs => ?_
  obtain ⟨moduleAlias, _, ending, rfl, -, isImport, hending⟩ := of_describes_aliasedImport hs
  obtain ⟨lead, quote, rfl, hlead, -, hquote⟩ := isImport.quoted
  -- The first quote stands in front of the accessor's parenthesis, the last one in front of its
  -- brace.
  obtain ⟨word, others, hgetter, hword⟩ := isGetter.parenthesis
  have ahead' : lead ++ quote :: (specifier.toList ++ quote :: (ending ++ more))
      = back ++ (word ++ '(' :: (others ++ rest)) := by
    simpa [hgetter] using ahead.symm
  obtain ⟨b, rfl, opened⟩ := mark_in_front ahead' (fun mem => absurd (hlead _ mem) (by decide))
    (fun mem => absurd (hword _ mem) (by rcases hquote with rfl | rfl <;> decide))
    (by rcases hquote with rfl | rfl <;> decide)
  obtain ⟨head, others', hgetter', unquoted⟩ := isGetter.unquoted
  have opened : specifier.toList ++ quote :: (ending ++ more) = b ++ (head
      ++ '\x7b' :: (others' ++ rest)) := by
    have same : word ++ '(' :: (others ++ rest) = head ++ '\x7b' :: (others' ++ rest) := by
      simpa using congrArg (· ++ rest) (hgetter.symm.trans hgetter')
    rw [opened, same]
  obtain ⟨b, rfl, closed⟩ := mark_in_front opened braceless (unquoted quote hquote)
    (by rcases hquote with rfl | rfl <;> decide)
  have tail : b ++ (getter ++ rest) = ending ++ more := by rw [closed, hgetter']; simp
  obtain ⟨b, rfl, -⟩ := line_in_front isGetter (not_mem_statementEnd hending) tail
  exact ⟨b, by simp⟩

theorem not_imports_of_unused (unused : ¬ Mentions moduleAlias getter)
    {statement front back : List Char}
    (isImport : IsImportAs specifier moduleAlias statement)
    (same : getter = front ++ back) (hback : back ≠ [])
    (rest more : List Char) : back ++ rest ≠ statement ++ more := by
  intro ahead
  obtain ⟨gap₁, gap₂, gap₃, gap₄, gap₅, quote, rfl, hgap₁, hgap₂, hgap₃,
    hname, hgap₄, -⟩ := isImport
  obtain ⟨body, closes⟩ := isGetter.closes
  obtain ⟨init, c, rfl⟩ := (back.eq_nil_or_concat).resolve_left hback
  rw [List.concat_eq_append] at same ahead
  obtain ⟨-, last⟩ := List.append_inj' (closes.symm.trans (same.trans (List.append_assoc ..).symm)) rfl
  obtain rfl : '\x7d' = c := List.singleton_inj.1 last
  let lead := ("import".toList ++ (gap₁ ++ ('*' :: (gap₂ ++ "as".toList)))) ++ gap₃
  have open_ : '\x7d' ∉ lead ++ moduleAlias := by
    simp only [lead, List.mem_append, List.mem_cons, not_or]
    exact ⟨⟨⟨by decide, hgap₁.not_mem (by decide), by decide, hgap₂.not_mem (by decide), by decide⟩,
      IsGap.not_mem hgap₃.2 (by decide)⟩, hname.not_mem (by decide)⟩
  have ahead : (init ++ ['\x7d']) ++ rest = (lead ++ moduleAlias) ++ (gap₄
      ++ ("from".toList ++ (gap₅ ++ (quote :: (specifier.toList ++ quote :: more))))) := by
    rw [ahead]
    simp only [lead, List.append_assoc, List.cons_append, List.nil_append]
  obtain ⟨m, rfl, tail⟩ := prefix_of_unclosed open_ ahead
  obtain ⟨d, gap₄, rfl⟩ := List.exists_cons_of_ne_nil hgap₄.1
  obtain ⟨e, he, continues⟩ :=
    getLast?_gap hgap₃ ("import".toList ++ (gap₁ ++ ('*' :: (gap₂ ++ "as".toList))))
  refine unused ⟨front ++ lead, m ++ ['\x7d'], by simp [same], fun c hc => ?_, fun c hc => ?_⟩
  · rw [List.getLast?_append, Option.mem_def.1 he] at hc
    exact Option.some.inj hc ▸ continues
  · cases m with
    | nil => exact Option.some.inj hc ▸ by decide
    | cons e m =>
      obtain rfl : d = e := (List.cons.inj tail).1
      exact Option.some.inj hc ▸ isNameChar_of_isBlank (hgap₄.2 d (by simp))

end Imports

/-- The text of a file without its first import of a module, if it has one. -/
def withoutImport [WorkingFolder] (file module : String) (content : List Char) : List Char :=
  match removeImport file module content with
  | some (rest, _) => rest
  | none => content

section Purged

variable {file module : String} {moduleAlias getter front rest remains : List Char}

/-- The import that is purged is the one in front of an accessor as if that were not there, or
stands behind it. -/
theorem removeImport_getter [WorkingFolder] (isGetter : IsGetter getter)
    (unused : ¬ Mentions moduleAlias getter)
    (braceless : '\x7b' ∉ (specifierOf file module).toList)
    (found : removeImport file module (front ++ (getter ++ rest)) = some (remains, moduleAlias)) :
    ∃ back, back.Sublist rest ∧ remains = withoutImport file module front ++ (getter ++ back) := by
  rw [removeImport_eq] at found
  obtain ⟨⟨first, last⟩, hfind, same⟩ := Option.map_eq_some_iff.1 found
  obtain ⟨rfl, halias⟩ := Prod.mk.inj same
  rw [find?, findFrom_append (isSolid_aliasedImport _) (staysIn_aliasedImport isGetter braceless _ _ _)] at hfind
  cases hfront : (aliasedImport (specifierOf file module)).findFrom [] front with
  | some ends =>
    rw [hfront] at hfind
    obtain ⟨rfl, rfl⟩ := Prod.mk.inj (Option.some.inj hfind)
    refine ⟨rest, List.Sublist.refl rest, ?_⟩
    rw [withoutImport, removeImport_eq, find?, hfront]
    exact (List.append_assoc ..).symm
  | none =>
    rw [hfront] at hfind
    obtain ⟨before, stretch, ahead, rfl, hs⟩ := findFrom_eq_some hfind
    have alone : withoutImport file module front = front := by
      rw [withoutImport, removeImport_eq, find?, hfront]
      rfl
    rw [List.append_assoc] at ahead
    rcases List.append_eq_append_iff.1 ahead with ⟨m, rfl, rfl⟩ | ⟨m, hgetter, hm⟩
    · refine ⟨m ++ last.ahead, ?_, by simp [alone]⟩
      exact (List.Sublist.refl m).append (List.sublist_append_right stretch _)
    · by_cases hnil : m = []
      · subst hnil
        refine ⟨last.ahead, ?_, by simp [alone, hgetter]⟩
        rw [List.nil_append] at hm
        exact hm ▸ List.sublist_append_right stretch _
      · -- An import that starts in the accessor would be another one than the one with the alias.
        obtain ⟨other, statement, ending, rfl, start, isImport, -⟩ := of_describes_aliasedImport hs
        rw [List.append_assoc] at hm
        have read := isImport.aliasAt start (ending ++ last.ahead)
        rw [List.append_assoc] at halias
        obtain rfl : moduleAlias = other := halias.symm.trans read
        exact absurd hm.symm (not_imports_of_unused isGetter unused isImport hgetter hnil _ _)

end Purged

/-! ## The accessor stays -/

/-- In a text each accessor of the module that is begun is answered, and each construction behind
those ends in a semicolon. -/
structure IsShut (moduleAlias text : List Char) : Prop where
  answered : ∀ front stretch back, text = front ++ (stretch ++ back) →
    (opening moduleAlias).Describes front.reverse stretch → Answers back
  closed : ∀ back ∈ after '=' ((accessor moduleAlias).removeAll text), Constructs moduleAlias back → ';' ∈ back

instance (text : List Char) : Decidable (Answers text) :=
  decidable_of_iff (text.takeWhile isNameChar ≠ [] ∧ returnField.find? (text.dropWhile isNameChar) ≠ none) <| by
    have solid : returnField.IsSolid := (isSolid_literal (by decide)).append_right _
    rw [Answers, ne_eq (returnField.find? _), solid.find?_eq_none, Classical.not_not]

instance (moduleAlias text : List Char) : Decidable (Constructs moduleAlias text) :=
  inferInstanceAs (Decidable (_ ∧ (∃ c ∈ _, _) ∧ _ ∧ _))

/-- The places where a pattern may end, wherever in a text it starts. -/
def allEnds (pattern : Pattern) (text : List Char) : List Place :=
  (List.range (text.length + 1)).flatMap fun i => pattern.ends ⟨(text.take i).reverse, text.drop i⟩

theorem mem_allEnds {pattern : Pattern} {text : List Char} {last : Place} :
    last ∈ allEnds pattern text ↔ ∃ front stretch back, text = front ++ (stretch ++ back)
      ∧ last = ⟨stretch.reverse ++ front.reverse, back⟩
          ∧ pattern.Describes front.reverse stretch := by
  constructor
  · intro h
    obtain ⟨i, -, h⟩ := List.mem_flatMap.1 h
    obtain ⟨stretch, back, ahead, rfl, hs⟩ := mem_ends.1 h
    exact ⟨text.take i, stretch, back, by rw [← ahead, List.take_append_drop], rfl, hs⟩
  · rintro ⟨front, stretch, back, rfl, rfl, hs⟩
    refine List.mem_flatMap.2 ⟨front.length, List.mem_range.2 ?_, ?_⟩
    · rw [List.length_append]
      omega
    rw [List.take_left, List.drop_left]
    exact mem_ends.2 ⟨stretch, back, rfl, rfl, hs⟩

instance (moduleAlias text : List Char) : Decidable (IsShut moduleAlias text) :=
  decidable_of_iff ((∀ last ∈ allEnds (opening moduleAlias) text, Answers last.ahead)
    ∧ ∀ back ∈ after '=' ((accessor moduleAlias).removeAll text), Constructs moduleAlias back → ';' ∈ back) <| by
    constructor
    · exact fun h => ⟨fun front stretch back same hs =>
        h.1 _ (mem_allEnds.2 ⟨front, stretch, back, same, rfl, hs⟩), h.2⟩
    · refine fun h => ⟨fun last hlast => ?_, h.closed⟩
      obtain ⟨front, stretch, back, same, rfl, hs⟩ := mem_allEnds.1 hlast
      exact h.answered front stretch back same hs

section Stays

variable {file module : String} {moduleAlias getter front rest remains : List Char}

/-- A pass that ends in front of an accessor that does not mention the alias goes on behind it. -/
theorem Part.removeAll_getter (part : Part) (hname : IsName moduleAlias)
    (isGetter : IsGetter getter) (unused : ¬ Mentions moduleAlias getter)
    (stays : (part.pattern moduleAlias).StaysIn [] front (getter ++ rest)) :
    ∃ back, back.Sublist rest ∧ (part.pattern moduleAlias).removeAll (front ++ (getter ++ rest))
      = (part.pattern moduleAlias).removeAll front ++ (getter ++ back) := by
  refine ⟨_, removeFrom_sublist (part.pattern moduleAlias) ⟨getter.reverse ++ (front.reverse ++ []), rest⟩, ?_⟩
  rw [removeAll, Place.start, removeFrom_append (part.isSolid moduleAlias) stays,
    (skips_getter hname isGetter unused part _ _).removeFrom]
  rfl

/-- The text in front of an accessor of another service is purged as it would be alone, if it is
shut. -/
theorem removeService_getter (hname : IsName moduleAlias) (isGetter : IsGetter getter)
    (unused : ¬ Mentions moduleAlias getter) (shut : IsShut moduleAlias front) (rest : List Char) :
    ∃ back, back.Sublist rest
      ∧ removeService moduleAlias (front ++ (getter ++ rest)) = removeService moduleAlias front
          ++ (getter ++ back) := by
  let text₁ := (Part.pattern moduleAlias .accessor).removeAll front
  let text₂ := (Part.pattern moduleAlias .statement).removeAll text₁
  let text₃ := (Part.pattern moduleAlias .lookup).removeAll text₂
  obtain ⟨back₁, sub₁, first⟩ := Part.removeAll_getter .accessor hname isGetter unused
    (staysIn_accessor hname isGetter unused shut.answered rest)
  have stays₂ : (Part.pattern moduleAlias .statement).StaysIn [] text₁ (getter ++ back₁) :=
    staysIn_construction hname isGetter unused shut.closed [] back₁
  obtain ⟨back₂, sub₂, second⟩ := Part.removeAll_getter .statement hname isGetter unused stays₂
  have stays₃ : (Part.pattern moduleAlias .lookup).StaysIn [] text₂ (getter ++ back₂) :=
    staysIn_lookupStatement hname isGetter unused [] text₂ back₂
  obtain ⟨back₃, sub₃, third⟩ := Part.removeAll_getter .lookup hname isGetter unused stays₃
  have stays₄ : (Part.pattern moduleAlias .field).StaysIn [] text₃ (getter ++ back₃) :=
    staysIn_fieldDeclaration hname isGetter unused [] text₃ back₃
  obtain ⟨back₄, sub₄, fourth⟩ := Part.removeAll_getter .field hname isGetter unused stays₄
  refine ⟨back₄, ((sub₄.trans sub₃).trans sub₂).trans sub₁, ?_⟩
  calc removeService moduleAlias (front ++ (getter ++ rest))
    _ = (Part.pattern moduleAlias .field).removeAll ((Part.pattern moduleAlias .lookup).removeAll
          ((Part.pattern moduleAlias .statement).removeAll ((Part.pattern moduleAlias .accessor).removeAll
            (front ++ (getter ++ rest))))) := rfl
    _ = (Part.pattern moduleAlias .field).removeAll text₃ ++ (getter ++ back₄) := by
      rw [first, second, third, fourth]

/-- **Purging a controller keeps the accessor of another service** that does not mention the
controller's module: the text in front of it is purged as if it stood alone, and what is cut behind
it starts behind it. That holds if in the text in front of it each accessor of the controller is
answered by a return of a field, and each construction that is left ends in a semicolon. -/
theorem withoutController_getter [WorkingFolder] (isGetter : IsGetter getter)
    (unused : ¬ Mentions moduleAlias getter)
    (braceless : '\x7b' ∉ (specifierOf file module).toList)
    (found : removeImport file module (front ++ (getter ++ rest)) = some (remains, moduleAlias))
    (shut : IsShut moduleAlias (withoutImport file module front)) :
    ∃ back, back.Sublist rest ∧ withoutController file (String.ofList (front ++ (getter ++ rest))) module
      = String.ofList (removeService moduleAlias (withoutImport file module front) ++ (getter ++ back)) := by
  have hname := isName_of_removeImport found
  obtain ⟨back, sub, rfl⟩ := removeImport_getter isGetter unused braceless found
  obtain ⟨back', sub', purged⟩ := removeService_getter hname isGetter unused shut back
  refine ⟨back', sub'.trans sub, ?_⟩
  rw [withoutController_ofList, found]
  exact congrArg String.ofList purged

end Stays

/-- An accessor of the purged service in front leaves the one behind it alone. -/
theorem withoutController_getter_behind :
    let front := ("import * as a from './x';\nclass M \x7b\n  get _A() \x7b\n    if ((this.__A == null)) \x7b "
      ++ "(this.__A = new a.A()); \x7d\n    return this.__A;\n  \x7d\n  ").toList
    let getter := "get _B() \x7b\n    if (!this.__B) \x7b this.__B = new b.B(); \x7d\n    return this.__B;\n  \x7d".toList
    let rest := "\n    if ((token === a.A)) \x7b return this._A; \x7d\n\x7d\n".toList
    IsGetter getter ∧ ¬ Mentions "a".toList getter ∧ '\x7b' ∉ (specifierOf "/f.js" "/x.js").toList
      ∧ IsShut "a".toList (withoutImport "/f.js" "/x.js" front)
      ∧ ∃ back, back.Sublist rest
        ∧ withoutController "/f.js" (String.ofList (front ++ (getter ++ rest))) "/x.js"
        = String.ofList (removeService "a".toList (withoutImport "/f.js" "/x.js" front) ++ (getter ++ back)) := by
  intro front getter rest
  -- The kernel takes long to decode a text, so its characters are named here.
  have hfront : front = _ :=
    String.toList_append.trans (congrArg₂ _ String.toList_ofList String.toList_ofList)
  have hgetter : getter = _ := String.toList_ofList
  have hrest : rest = _ := String.toList_ofList
  have isGetter : IsGetter getter := by
    have layout : getter = "get ".toList ++ ("_B".toList ++ ("() \x7b".toList
        ++ ("\n    if (!this.__B) \x7b this.__B = new b.B(); \x7d\n    return this.__B;\n  ".toList
          ++ "\x7d".toList))) := by
      rw [hgetter, String.toList_ofList, String.toList_ofList, String.toList_ofList,
        String.toList_ofList, String.toList_ofList]
      rfl
    exact layout ▸ isGetter_plain (by decide) _
  have unused : ¬ Mentions "a".toList getter := by
    refine not_mentions_of_absent ?_
    rw [hgetter]
    decide +kernel
  have braceless : '\x7b' ∉ (specifierOf "/f.js" "/x.js").toList := by decide +kernel
  have shut : IsShut "a".toList (withoutImport "/f.js" "/x.js" front) := by
    rw [hfront]
    decide +kernel
  have found : removeImport "/f.js" "/x.js" (front ++ (getter ++ rest))
      = some (front.drop 26 ++ (getter ++ rest), "a".toList) := by
    rw [hfront, hgetter, hrest]
    decide +kernel
  exact ⟨isGetter, unused, braceless, shut,
    withoutController_getter isGetter unused braceless found shut⟩

/-- An accessor of the purged service without a return of a field is cut up to the return of another
accessor, and a construction without a semicolon up to the first one in it. -/
theorem withoutController_overruns :
    let cases_ := [("import * as a from './x';\nclass M \x7b\n  get _A() \x7b return new a.A(); \x7d\n  ".toList,
        "get _B() \x7b return this._b; \x7d".toList),
      ("import * as a from './x';\nclass M \x7b\n  constructor() \x7b this._A = new a.A() \x7d\n  ".toList,
        "get _B() \x7b init(); return this._b; \x7d".toList)]
    ∀ text ∈ cases_, IsGetter text.2 ∧ text.2.count '\x7b' = 1 ∧ text.2.count '\x7d' = 1
      ∧ ¬ "a".toList <:+: text.2
      ∧ (removeImport "/f.js" "/x.js" (text.1 ++ (text.2 ++ "\n\x7d\n".toList))).map (·.2) = some "a".toList
      ∧ ¬ text.2 <:+: (withoutController "/f.js" (String.ofList (text.1 ++ (text.2 ++ "\n\x7d\n".toList)))
        "/x.js").toList := by
  intro cases_
  have name : IsName "_B".toList := by decide
  refine List.forall_mem_cons.2 ⟨⟨isGetter_plain name " return this._b; ".toList, ?_⟩,
    List.forall_mem_singleton.2 ⟨isGetter_plain name " init(); return this._b; ".toList, ?_⟩⟩
  · rw [withoutController_ofList, String.toList_ofList]
    decide +kernel
  · rw [withoutController_ofList, String.toList_ofList]
    decide +kernel

end RouteTrim.Purge
