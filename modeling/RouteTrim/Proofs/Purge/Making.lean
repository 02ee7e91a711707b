import RouteTrim.Proofs.Purge.Usage

/-!
# Accessors

An accessor is the one code of a service whose end has to be searched for: it goes from its head to
the first place that makes something of the module, in front of the next brace that closes, and on
to the first return of a field behind that (`IsAccessor`). It is taken to the end of its line, in
any spacing and with any other text in the places that its pattern leaves open (`IsAccessor.takes`).
-/

set_option autoImplicit false

namespace RouteTrim.Purge

open Pattern
open RouteTrim.Text (isBlank)

/-! ## Accessors -/

/-- The beginning of an accessor, such as `get f(): a.C `. -/
def IsAccessorHead (field text : List Char) : Prop :=
  ∃ run gap gap₁ gap₂ gap₃ type, text = run ++ ("get".toList ++ (gap ++ (field ++ (gap₁
      ++ ("(".toList ++ (gap₂ ++ (")".toList ++ (gap₃ ++ type))))))))
    ∧ IsSpaces run ∧ (gap ≠ [] ∧ IsGap gap) ∧ IsName field ∧ IsGap gap₁ ∧ IsGap gap₂ ∧ IsGap gap₃
    ∧ (type = [] ∨ ∃ gap₄ name gap₅, type = ":".toList ++ (gap₄ ++ (name ++ gap₅)) ∧ IsGap gap₄
      ∧ (name ≠ [] ∧ ∀ c ∈ name, continuesName c = true) ∧ IsGap gap₅)

/-- The beginning of a construction of something of the module. -/
def IsMaking (moduleAlias text : List Char) : Prop :=
  ∃ gap, text = "new".toList ++ (gap ++ (moduleAlias ++ ".".toList)) ∧ (gap ≠ [] ∧ IsGap gap)

/-- What a construction of something of the module begins with. -/
def making (moduleAlias : List Char) : Pattern :=
  literal "new" ++ someBlanks ++ exactly moduleAlias ++ literal "."

/-- The body of an accessor whose first construction of something of the module has a return of a
field behind it. It ends at the first such return. -/
def IsAccessorBody (moduleAlias text : List Char) : Prop :=
  ∃ inner new className between result,
    text = "\x7b".toList ++ (inner ++ (new ++ (className ++ (between ++ result))))
    ∧ '\x7d' ∉ inner ∧ IsMaking moduleAlias new ∧ (making moduleAlias).Skips [] inner new
    ∧ IsName className ∧ (∀ c ∈ (between ++ result).head?, isNameChar c = false)
    ∧ IsReturn result ∧ returnField.Skips [] between result

/-- An accessor that makes something of the module. -/
def IsAccessor (moduleAlias field stretch : List Char) : Prop :=
  ∃ head body, stretch = head ++ body ∧ IsAccessorHead field head ∧ IsAccessorBody moduleAlias body

theorem IsAccessorHead.describes {field text behind : List Char} (h : IsAccessorHead field text)
    (start : (∀ c ∈ behind.head?, continuesName c = false) ∨ StartsBlank text) :
    accessorHead.Describes behind text := by
  obtain ⟨run, gap, gap₁, gap₂, gap₃, type, rfl, hrun, hgap, hfield, hgap₁,
    hgap₂, hgap₃, htype⟩ := h
  have start : ∀ c ∈ (run.reverse ++ behind).head?, continuesName c = false := by
    rcases run.eq_nil_or_concat with rfl | ⟨run, d, rfl⟩
    · exact start.resolve_right (not_startsBlank (by decide))
    · have last : ((run.concat d).reverse ++ behind).head? = some d := by simp
      intro c hc
      obtain rfl : d = c := Option.some.inj (last.symm.trans hc)
      rcases hrun d (by simp) with rfl | rfl <;> decide
  have typed (behind : List Char) :
      (maybe (literal ":" ++ blanks ++ oneOrMore continuesName ++ blanks)).Describes behind type := by
    rcases htype with rfl | ⟨gap₄, name, gap₅, rfl, hgap₄, hname, hgap₅⟩
    · exact describes_maybe_nil _ _
    · exact .inl ⟨_, _, ⟨_, _, ⟨_, _, describes_literal.2 rfl, hgap₄, rfl⟩,
        describes_oneOrMore.2 hname, rfl⟩, hgap₅, by simp only [List.append_assoc]⟩
  exact ⟨_, _, ⟨_, _, ⟨_, _, ⟨_, _, ⟨_, _, ⟨_, _, ⟨_, _, ⟨_, _, ⟨_, _, ⟨_, _,
    describes_spaces.2 hrun, ⟨rfl, start⟩, rfl⟩, describes_literal.2 rfl, rfl⟩,
    describes_someBlanks.2 hgap, rfl⟩, describes_name.2 hfield, rfl⟩, hgap₁, rfl⟩,
    describes_literal.2 rfl, rfl⟩, hgap₂, rfl⟩, describes_literal.2 rfl, rfl⟩, hgap₃, rfl⟩, typed _,
    by simp only [List.append_assoc, List.append_nil]⟩

theorem plain_of_accessorHead {behind head : List Char} (h : accessorHead.Describes behind head) :
    ∀ c ∈ head, IsPlain c := by
  obtain ⟨run, gap, middle, rfl, hrun, hgap, hmiddle⟩ := of_describes_accessorHead h
  exact List.forall_mem_append.2 ⟨plain_spaces hrun, List.forall_mem_append.2 ⟨by decide,
    List.forall_mem_append.2 ⟨IsGap.plain hgap.2, hmiddle⟩⟩⟩

theorem describes_making {moduleAlias behind stretch : List Char} :
    (making moduleAlias).Describes behind stretch ↔ IsMaking moduleAlias stretch := by
  constructor
  · rintro ⟨_, _, ⟨_, word, ⟨_, gap, hnew, hgap, rfl⟩, halias, rfl⟩, hdot, rfl⟩
    obtain rfl := describes_literal.1 hnew
    obtain rfl : moduleAlias = word := (describes_exactly.1 halias).symm
    obtain rfl := describes_literal.1 hdot
    exact ⟨gap, by simp only [List.append_assoc], describes_someBlanks.1 hgap⟩
  · rintro ⟨gap, rfl, hgap⟩
    exact ⟨_, _, ⟨_, _, ⟨_, _, describes_literal.2 rfl, describes_someBlanks.2 hgap, rfl⟩,
      describes_exactly.2 rfl, rfl⟩, describes_literal.2 rfl, by simp only [List.append_assoc]⟩

theorem IsMaking.closes {moduleAlias stretch : List Char} (h : IsMaking moduleAlias stretch)
    (hname : IsName moduleAlias) : ∃ body, stretch = body ++ ['.'] ∧ '.' ∉ body := by
  obtain ⟨gap, rfl, -, hgap⟩ := h
  refine ⟨"new".toList ++ (gap ++ moduleAlias), by simp only [List.append_assoc]; rfl, ?_⟩
  simp only [List.mem_append, not_or]
  exact ⟨by decide, hgap.not_mem (by decide), hname.not_mem (by decide)⟩

theorem begun_of_accessor {moduleAlias behind stretch : List Char}
    (h : (accessor moduleAlias).Describes behind stretch) :
    ∃ head tail, stretch = head ++ '\x7b' :: tail ∧ accessorHead.Describes behind head := by
  obtain ⟨_, line, ⟨_, result, ⟨_, between, ⟨_, class_, ⟨_, gap', ⟨_, new, ⟨_, inner,
    ⟨head, _, hhead, hbrace, rfl⟩, -, rfl⟩, -, rfl⟩, -, rfl⟩, -, rfl⟩,
    -, rfl⟩, -, rfl⟩, -, rfl⟩ := h
  obtain rfl := describes_literal.1 hbrace
  exact ⟨head, _, by simp only [List.append_assoc]; rfl, hhead⟩

/-- The rest of an accessor from the class of the module on. -/
def fromClass : Pattern :=
  name ++ (few (fun _ => true) ++ (returnField ++ restOfLine))

/-- The pattern of an accessor as its head with the brace, what leads to a construction, and the
rest. -/
theorem accessor_ends (moduleAlias : List Char) (place : Place) : (accessor moduleAlias).ends place
    = ((accessorHead ++ literal "\x7b") ++ (few (fun c => c != '\x7d') ++ (making moduleAlias ++ fromClass))).ends
      place := by
  have both (first second : Pattern) :
      (first ++ second).ends = fun place => (first.ends place).flatMap second.ends := rfl
  simp only [accessor, accessorHead, making, fromClass, qualified, both, List.flatMap_assoc]

section Taken

variable {moduleAlias field stretch behind head body line rest : List Char}

theorem takes_opening (h : accessorHead.Describes behind head) (rest : List Char) :
    (accessorHead ++ literal "\x7b").Takes behind (head ++ "\x7b".toList) rest := by
  have opened : (accessorHead ++ literal "\x7b").Describes behind (head ++ "\x7b".toList) :=
    ⟨head, _, h, describes_literal.2 rfl, rfl⟩
  refine takes_of_closing '\x7b' (fun behind s hs => ?_) opened rest
  obtain ⟨head, _, hhead, hbrace, rfl⟩ := hs
  obtain rfl := describes_literal.1 hbrace
  exact ⟨head, rfl, not_mem_of_plain (plain_of_accessorHead hhead) (by decide)⟩

theorem takes_fromClass {className between result : List Char} (hclass : IsName className)
    (border : ∀ c ∈ (between ++ result).head?, isNameChar c = false) (hresult : IsReturn result)
    (first : returnField.Skips [] between result)
    (hline : ∀ behind, restOfLine.Takes behind line rest) :
    fromClass.Takes behind (className ++ (between ++ (result ++ line))) rest := by
  have closes : ∀ behind s, returnField.Describes behind s → ∃ body, s = body
      ++ ['\x7d'] ∧ '\x7d' ∉ body :=
    fun _ _ h => (describes_returnField.1 h).closes
  have takesResult (behind : List Char) :
      (returnField ++ restOfLine).Takes behind (result ++ line) rest :=
    .append (takes_of_closing '\x7d' closes (describes_returnField.2 hresult) _) (hline _)
  obtain ⟨body, ends, -⟩ := hresult.closes
  refine .append (takes_oneOrMore hclass.1 hclass.2 fun c hc => border c ?_)
    (takes_few_append (fun _ _ => rfl) ?_ (takesResult _))
  · obtain ⟨d, text, hd⟩ := List.exists_cons_of_ne_nil (l := between ++ result) (by simp [ends])
    rw [← List.append_assoc, hd] at hc
    rw [hd]
    exact hc
  · rw [List.append_assoc]
    exact (Skips.of_closing closes ⟨body, ends⟩ (first.anywhere _) (line ++ rest)).followed

theorem IsAccessorBody.takes (h : IsAccessorBody moduleAlias body) (hname : IsName moduleAlias)
    (hhead : accessorHead.Describes behind head)
    (hline : ∀ behind, restOfLine.Takes behind line rest) :
    (accessor moduleAlias).Takes behind (head ++ (body ++ line)) rest := by
  obtain ⟨inner, new, className, between, result, rfl, hinner, hnew, first, hclass,
    border, hresult, first'⟩ := h
  have closes : ∀ behind s, (making moduleAlias).Describes behind s → ∃ body, s = body
      ++ ['.'] ∧ '.' ∉ body :=
    fun _ _ h => (describes_making.1 h).closes hname
  have takesNew (behind : List Char) : (making moduleAlias ++ fromClass).Takes behind
      (new ++ (className ++ (between ++ (result ++ line)))) rest :=
    .append (takes_of_closing '.' closes (describes_making.2 hnew) _)
      (takes_fromClass hclass border hresult first' hline)
  obtain ⟨opening, ends, -⟩ := hnew.closes hname
  have early (behind : List Char) : (making moduleAlias ++ fromClass).Skips behind inner
      ((new ++ (className ++ (between ++ (result ++ line)))) ++ rest) := by
    rw [List.append_assoc]
    exact (Skips.of_closing closes ⟨opening, ends⟩ (first.anywhere _) _).followed
  have unbraced : ∀ c ∈ inner, (c != '\x7d') = true := fun c hc => by
    simpa using ne_of_mem_of_not_mem hc hinner
  refine .of_ends (accessor_ends moduleAlias) ?_
  simpa using (takes_opening hhead _).append (takes_few_append unbraced (early _) (takesNew _))

theorem IsAccessor.takes (h : IsAccessor moduleAlias field stretch) (hname : IsName moduleAlias)
    (start : (∀ c ∈ behind.head?, continuesName c = false) ∨ StartsBlank stretch)
    (hline : ∀ behind, restOfLine.Takes behind line rest) :
    (accessor moduleAlias).Takes behind (stretch ++ line) rest := by
  obtain ⟨head, body, rfl, hhead, hbody⟩ := h
  have start : (∀ c ∈ behind.head?, continuesName c = false) ∨ StartsBlank head := by
    refine start.imp_right fun blank => blank.of_append ?_
    obtain ⟨run, gap, gap₁, gap₂, gap₃, type, rfl, -⟩ := hhead
    simp
  rw [List.append_assoc]
  exact hbody.takes hname (hhead.describes start) hline

end Taken

end RouteTrim.Purge
