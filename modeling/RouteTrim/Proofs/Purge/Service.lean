import RouteTrim.Proofs.Purge.Making

/-!
# The lines of a service

What the compiled root factory holds of each service: the import of its module, the field that keeps
it, the accessor or the statement that makes it, and the lookup that hands it out. Each of these
pieces is cut by its own pattern for its own alias (`cuts_…`), and skipped by the patterns for every
other alias.
-/

set_option autoImplicit false

namespace RouteTrim.Purge

open Pattern
open RouteTrim.Text (isBlank joinWith)

/-- How the factory makes a service: in an accessor, which may state its type, or at once. -/
inductive Maker where
  | accessor (typed : Bool)
  | statement
  deriving DecidableEq

/-- A service of the factory: the alias and the specifier of its module, its class, the name of its
accessor, the fields that its constructor takes, and how it is kept and made. -/
structure Service where
  moduleAlias : List Char
  specifier : String
  className : List Char
  field : List Char
  arguments : List (List Char)
  kept : Bool
  maker : Maker
  isName_alias : IsName moduleAlias
  isName_class : IsName className
  isName_field : IsName field
  isName_arguments : ∀ a ∈ arguments, IsName a

def argumentList (arguments : List (List Char)) : List Char :=
  joinWith ", ".toList (arguments.map ("this.".toList ++ ·))

/-- An import of a whole module on a line of its own. -/
def importText (moduleAlias : List Char) (specifier : String) : List Char :=
  "import * as ".toList ++ (moduleAlias ++ (" from ".toList ++ ('\'' :: (specifier.toList
    ++ "';\n".toList))))

namespace Service

def importLine (s : Service) : List Char :=
  importText s.moduleAlias s.specifier

def fieldLine (s : Service) : List Char :=
  "  _".toList ++ (s.field ++ (":".toList ++ (s.moduleAlias ++ (".".toList ++ (s.className
    ++ ";\n".toList)))))

def typeOf (s : Service) (typed : Bool) : List Char :=
  if typed then ":".toList ++ (s.moduleAlias ++ (".".toList ++ s.className)) else []

/-- The assignment of a new service, but for the closing parenthesis. -/
def making (s : Service) : List Char :=
  " = new ".toList ++ (s.moduleAlias ++ (".".toList ++ (s.className ++ ("(".toList
    ++ argumentList s.arguments))))

/-- The accessor that makes a service when it is first asked for. -/
def accessorLines (s : Service) (typed : Bool) : List Char :=
  "  get ".toList ++ (s.field ++ ("()".toList ++ (s.typeOf typed ++ (" \x7b\n    if ((this._".toList
    ++ (s.field ++ (" == null)) \x7b (this._".toList ++ (s.field ++ (s.making
      ++ (")); \x7d\n    return this._".toList ++ (s.field ++ ";\n  \x7d\n".toList))))))))))

/-- The statement that makes a service at once. -/
def statementLine (s : Service) : List Char :=
  "  this.".toList ++ (s.field ++ (s.making ++ ");\n".toList))

def lookupLine (s : Service) : List Char :=
  "    if ((token === ".toList ++ (s.moduleAlias ++ (".".toList ++ (s.className
    ++ (")) \x7b return this.".toList ++ (s.field ++ "; \x7d\n".toList)))))

end Service

/-! ## The characters of the pieces -/

/-- A text of characters of names and of some marks. -/
def Consists (marks : String) (text : List Char) : Prop :=
  ∀ c ∈ text, isNameChar c = true ∨ c ∈ marks.toList

instance (marks : String) (text : List Char) : Decidable (Consists marks text) :=
  inferInstanceAs (Decidable (∀ c ∈ text, _))

theorem Consists.not_mem {marks : String} {text : List Char} (h : Consists marks text) {c : Char}
    (hc : isNameChar c = false ∧ c ∉ marks.toList) : c ∉ text :=
  fun mem => (h c mem).elim (fun name => absurd name (by simp [hc.1])) hc.2

theorem Consists.append {marks : String} {text text' : List Char} (h : Consists marks text)
    (h' : Consists marks text') : Consists marks (text ++ text') :=
  List.forall_mem_append.2 ⟨h, h'⟩

theorem IsName.consists {text : List Char} (h : IsName text) (marks : String) :
    Consists marks text :=
  fun c hc => .inl (h.2 c hc)

theorem consists_argumentList {marks : String} {arguments : List (List Char)}
    (names : ∀ a ∈ arguments, IsName a) (own : Consists marks "., ".toList) :
    Consists marks (argumentList arguments) := by
  have this_ : Consists marks "this.".toList := fun c hc =>
    (by decide : Consists "., " "this.".toList) c hc |>.imp_right fun mark =>
      (own c mark).resolve_left (by revert c; decide)
  have comma : Consists marks ", ".toList := fun c hc => own c (List.mem_cons_of_mem _ hc)
  rw [argumentList]
  induction arguments with
  | nil => exact fun c hc => absurd hc (by simp [joinWith])
  | cons a arguments ih =>
    have first := this_.append ((names a (by simp)).consists marks)
    have later := ih fun b hb => names b (by simp [hb])
    cases arguments with
    | nil => exact first
    | cons b arguments => exact (first.append comma).append later

namespace Service

variable (s : Service)

theorem not_mem_names {c : Char} (hc : isNameChar c = false) :
    c ∉ s.field ∧ c ∉ s.moduleAlias ∧ c ∉ s.className :=
  ⟨s.isName_field.not_mem hc, s.isName_alias.not_mem hc, s.isName_class.not_mem hc⟩

theorem consists_typeOf (typed : Bool) : Consists ":." (s.typeOf typed) := by
  have name {text : List Char} (h : IsName text) : Consists ":." text := h.consists _
  unfold typeOf
  split
  · exact .append (by decide) (.append (name s.isName_alias) (.append (by decide) (name s.isName_class)))
  · exact fun c hc => absurd hc (by simp)

theorem consists_making : Consists "=. (," s.making := by
  have name {text : List Char} (h : IsName text) : Consists "=. (," text := h.consists _
  exact .append (by decide) (.append (name s.isName_alias) (.append (by decide)
    (.append (name s.isName_class) (.append (by decide)
      (consists_argumentList s.isName_arguments (by decide))))))

theorem consists_fieldLine : Consists " :.;\n" s.fieldLine := by
  have name {text : List Char} (h : IsName text) : Consists " :.;\n" text := h.consists _
  exact .append (by decide) (.append (name s.isName_field) (.append (by decide)
    (.append (name s.isName_alias) (.append (by decide) (.append (name s.isName_class) (by decide))))))

theorem consists_statementLine : Consists "=. (,);\n" s.statementLine := by
  have making : Consists "=. (,);\n" s.making := fun c hc => (s.consists_making c hc).imp_right
    ((by decide : ∀ c ∈ "=. (,".toList, c ∈ "=. (,);\n".toList) c)
  exact .append (by decide) (.append (s.isName_field.consists _) (.append making (by decide)))

theorem consists_lookupLine : Consists " (=.)\x7b;\x7d\n" s.lookupLine := by
  have name {text : List Char} (h : IsName text) : Consists " (=.)\x7b;\x7d\n" text := h.consists _
  exact .append (by decide) (.append (name s.isName_alias) (.append (by decide)
    (.append (name s.isName_class) (.append (by decide) (.append (name s.isName_field) (by decide))))))

end Service

/-! ## What the pieces do not use -/

/-- What has to begin with a blank follows no letter in a list of arguments but the one of a word in
front of it. -/
theorem free_argumentList {key : Char} {follows : List Char → Prop} {arguments : List (List Char)}
    {rest : List Char} (names : ∀ a ∈ arguments, IsName a)
    (hfollows : ∀ text, follows text → StartsBlank text)
    (hmark : key ∉ "this.".toList ∧ key ∉ ", ".toList) (hrest : ¬ StartsBlank rest) :
    Free key follows (argumentList arguments) rest := by
  rw [argumentList]
  induction arguments with
  | nil => exact free_of_not_mem (by simp [joinWith]) _ _
  | cons a arguments ih =>
    have own {text : List Char} (h : ¬ StartsBlank text) :
        Free key follows ("this.".toList ++ a) text :=
      free_append.2 ⟨free_of_not_mem hmark.1 _ _,
        free_name hfollows (names a (by simp)) fun f => h (hfollows _ f)⟩
    have later := ih fun b hb => names b (by simp [hb])
    cases arguments with
    | nil => exact own hrest
    | cons b arguments =>
      simp only [List.map_cons, joinWith] at later ⊢
      rw [List.append_assoc]
      exact free_append.2 ⟨own (not_startsBlank (by decide)),
        free_append.2 ⟨free_of_not_mem hmark.2 _ _, later⟩⟩

theorem free_of_after {key : Char} {follows : List Char → Prop} {text rest : List Char}
    (backs : List (List Char)) (same : after key text = backs)
    (none_ : ∀ back ∈ backs, ¬ follows (back ++ rest)) : Free key follows text rest :=
  fun back hback => none_ back (same ▸ hback)

section Others

variable (s : Service) {moduleAlias : List Char} (typed : Bool) (rest : List Char)

theorem isGap_space : IsGap " ".toList := by
  intro c hc
  rw [List.mem_singleton.1 hc]
  decide

theorem behindWord_new
    (text : List Char) : behindWord (" new ".toList ++ text) = " ".toList ++ text :=
  rfl

/-- The one equals sign of the assignment stands in front of `new` and of the service's own
alias. -/
theorem Service.free_equals_making {follows : List Char → Prop}
    (none_ : ∀ text, ¬ follows (" new ".toList ++ (s.moduleAlias ++ '.' :: text))) :
    Free '=' follows s.making rest := by
  obtain ⟨-, inAlias, inClass⟩ := s.not_mem_names (by decide : isNameChar '=' = false)
  have inArguments : '=' ∉ argumentList s.arguments :=
    (consists_argumentList s.isName_arguments (by decide : Consists "., " _)).not_mem (by decide)
  refine free_append.2 ⟨free_of_after [" new ".toList] (by decide) (List.forall_mem_singleton.2 fun h => ?_),
    free_append.2 ⟨free_of_not_mem inAlias _ _, free_append.2 ⟨free_of_not_mem (by decide) _ _,
      free_append.2 ⟨free_of_not_mem inClass _ _, free_append.2 ⟨free_of_not_mem (by decide) _ _,
        free_of_not_mem inArguments _ _⟩⟩⟩⟩⟩
  rw [List.append_assoc] at h
  exact none_ _ h

theorem Service.free_constructs_making (other : s.moduleAlias ≠ moduleAlias) :
    Free '=' (Constructs moduleAlias) s.making rest :=
  s.free_equals_making rest fun text h => other (Uses.eq isGap_space s.isName_alias
    (behindWord_new (s.moduleAlias ++ '.' :: text) ▸ h.2.2))

theorem Service.free_compares_making : Free '=' (Compares moduleAlias) s.making rest :=
  s.free_equals_making rest fun _ ⟨_, same, _⟩ => absurd (List.cons.inj same).1 (by decide)

theorem Service.free_spaced_making (other : s.moduleAlias ≠ moduleAlias)
    (hrest : ¬ StartsBlank rest) :
    Free 'w' (Spaced moduleAlias) s.making rest := by
  have starts : ∀ text, Spaced moduleAlias text → StartsBlank text := fun _ h => h.1
  refine free_append.2 ⟨free_of_after [" ".toList] (by decide) (List.forall_mem_singleton.2 fun h => ?_),
    free_append.2 ⟨free_name starts s.isName_alias fun h => not_startsBlank (by decide) h.1,
      free_append.2 ⟨free_of_not_mem (by decide) _ _, free_append.2
        ⟨free_name starts s.isName_class fun h => not_startsBlank (by decide) h.1,
          free_append.2 ⟨free_of_not_mem (by decide) _ _,
            free_argumentList s.isName_arguments starts (by decide) hrest⟩⟩⟩⟩⟩
  rw [List.append_assoc] at h
  exact other (Uses.eq isGap_space s.isName_alias h.2)

theorem Service.free_equals_accessorLines {follows : List Char → Prop}
    (compared : ∀ text, ¬ follows ("= null".toList ++ text))
    (null : ∀ text, ¬ follows (" null".toList ++ text))
    (made : ∀ rest, Free '=' follows s.making rest) :
    Free '=' follows (s.accessorLines typed) rest := by
  have inField : '=' ∉ s.field := s.isName_field.not_mem (by decide)
  have inType : '=' ∉ s.typeOf typed := (s.consists_typeOf typed).not_mem (by decide)
  refine free_append.2 ⟨free_of_not_mem (by decide) _ _, free_append.2 ⟨free_of_not_mem inField _ _,
    free_append.2 ⟨free_of_not_mem (by decide) _ _, free_append.2 ⟨free_of_not_mem inType _ _,
      free_append.2 ⟨free_of_not_mem (by decide) _ _, free_append.2 ⟨free_of_not_mem inField _ _,
        free_append.2 ⟨?_, free_append.2 ⟨free_of_not_mem inField _ _, free_append.2 ⟨made _,
          free_append.2 ⟨free_of_not_mem (by decide) _ _, free_append.2 ⟨free_of_not_mem inField _ _,
            free_of_not_mem (by decide) _ _⟩⟩⟩⟩⟩⟩⟩⟩⟩⟩⟩
  exact free_of_after ["= null)) \x7b (this._".toList, " null)) \x7b (this._".toList] (by decide)
    (List.forall_mem_cons.2 ⟨compared _, List.forall_mem_singleton.2 (null _)⟩)

theorem Service.free_constructs_accessorLines (other : s.moduleAlias ≠ moduleAlias) :
    Free '=' (Constructs moduleAlias) (s.accessorLines typed) rest :=
  s.free_equals_accessorLines typed rest (fun _ h => List.cons_ne_nil _ _ h.1.symm)
    (fun _ h => absurd (List.cons.inj (List.cons.inj h.1).2).1 (by decide))
    (s.free_constructs_making · other)

theorem Service.free_compares_accessorLines :
    Free '=' (Compares moduleAlias) (s.accessorLines typed) rest :=
  s.free_equals_accessorLines typed rest
    (fun _ ⟨_, same, _⟩ => absurd (List.cons.inj (List.cons.inj same).2).1 (by decide))
    (fun _ ⟨_, same, _⟩ => absurd (List.cons.inj same).1 (by decide)) s.free_compares_making

theorem Service.free_equals_statementLine {follows : List Char → Prop}
    (made : ∀ rest, Free '=' follows s.making rest) : Free '=' follows s.statementLine rest :=
  free_append.2 ⟨free_of_not_mem (by decide) _ _, free_append.2
    ⟨free_of_not_mem (s.isName_field.not_mem (by decide)) _ _, free_append.2
      ⟨made _, free_of_not_mem (by decide) _ _⟩⟩⟩

theorem Service.free_uses_accessorLines (other : s.moduleAlias ≠ moduleAlias) :
    Free ':' (Uses moduleAlias) (s.accessorLines typed) rest := by
  obtain ⟨inField, inAlias, inClass⟩ := s.not_mem_names (by decide : isNameChar ':' = false)
  have inMaking : ':' ∉ s.making := s.consists_making.not_mem (by decide)
  refine free_append.2 ⟨free_of_not_mem (by decide) _ _, free_append.2 ⟨free_of_not_mem inField _ _,
    free_append.2 ⟨free_of_not_mem (by decide) _ _, free_append.2 ⟨?_,
      free_append.2 ⟨free_of_not_mem (by decide) _ _, free_append.2 ⟨free_of_not_mem inField _ _,
        free_append.2 ⟨free_of_not_mem (by decide) _ _, free_append.2 ⟨free_of_not_mem inField _ _,
          free_append.2 ⟨free_of_not_mem inMaking _ _, free_append.2 ⟨free_of_not_mem (by decide) _ _,
            free_append.2 ⟨free_of_not_mem inField _ _, free_of_not_mem (by decide) _ _⟩⟩⟩⟩⟩⟩⟩⟩⟩⟩⟩
  cases typed with
  | false => exact free_of_not_mem (by simp [Service.typeOf]) _ _
  | true =>
    refine free_append.2 ⟨free_of_after [[]] (by decide) (List.forall_mem_singleton.2 fun h => ?_),
      free_append.2 ⟨free_of_not_mem inAlias _ _, free_append.2 ⟨free_of_not_mem (by decide) _ _,
        free_of_not_mem inClass _ _⟩⟩⟩
    rw [List.nil_append, List.append_assoc] at h
    exact other (Uses.eq isGap_nil s.isName_alias h)

/-- What stands between a brace of an accessor that opens and the next one that closes. -/
theorem Service.not_makes_of_free (hname : IsName moduleAlias) (other : s.moduleAlias ≠ moduleAlias)
    (front : List Char) (hfront : '\x7d' ∉ front)
    (free : ∀ rest, Free 'w' (Spaced moduleAlias) front (" (this._".toList ++ rest)) :
    ¬ Makes moduleAlias (front ++ (" (this._".toList ++ (s.field ++ (s.making
      ++ (")); \x7d".toList ++ rest))))) := by
  have starts : ∀ text, Spaced moduleAlias text → StartsBlank text := fun _ h => h.1
  have inField : '\x7d' ∉ s.field := s.isName_field.not_mem (by decide)
  have inMaking : '\x7d' ∉ s.making := s.consists_making.not_mem (by decide)
  have closed : front ++ (" (this._".toList ++ (s.field ++ (s.making ++ (")); \x7d".toList ++ rest))))
      = (front ++ (" (this._".toList ++ (s.field ++ (s.making ++ ")); ".toList))))
          ++ '\x7d' :: rest := by
    simp only [List.append_assoc]
    rfl
  rw [closed]
  refine not_makes ?_ (free_append.2 ⟨free _, free_append.2 ⟨free_of_not_mem (by decide) _ _,
    free_append.2 ⟨free_name starts s.isName_field fun h => ?_, free_append.2
      ⟨s.free_spaced_making _ other (not_startsBlank (by decide)),
        free_of_not_mem (by decide) _ _⟩⟩⟩⟩)
  · simp only [List.mem_append, not_or]
    exact ⟨hfront, by decide, inField, inMaking, by decide⟩
  · exact hname.1 h.2.1.symm

theorem Service.free_makes_accessorLines (hname : IsName moduleAlias)
    (other : s.moduleAlias ≠ moduleAlias) :
    Free '\x7b' (Makes moduleAlias) (s.accessorLines typed) rest := by
  have inField : '\x7b' ∉ s.field := s.isName_field.not_mem (by decide)
  have inType : '\x7b' ∉ s.typeOf typed := (s.consists_typeOf typed).not_mem (by decide)
  have inMaking : '\x7b' ∉ s.making := s.consists_making.not_mem (by decide)
  refine free_append.2 ⟨free_of_not_mem (by decide) _ _, free_append.2 ⟨free_of_not_mem inField _ _,
    free_append.2 ⟨free_of_not_mem (by decide) _ _, free_append.2 ⟨free_of_not_mem inType _ _,
      free_append.2 ⟨?_, free_append.2 ⟨free_of_not_mem inField _ _,
        free_append.2 ⟨?_, free_append.2 ⟨free_of_not_mem inField _ _,
          free_append.2 ⟨free_of_not_mem inMaking _ _, free_append.2 ⟨free_of_not_mem (by decide) _ _,
            free_append.2 ⟨free_of_not_mem inField _ _, free_of_not_mem (by decide) _ _⟩⟩⟩⟩⟩⟩⟩⟩⟩⟩⟩
  · refine free_of_after ["\n    if ((this._".toList] (by decide) (List.forall_mem_singleton.2 fun h => ?_)
    have inField' : '\x7d' ∉ s.field := s.isName_field.not_mem (by decide)
    refine s.not_makes_of_free ("\n    return this._".toList ++ (s.field ++ (";\n  \x7d\n".toList ++ rest)))
      hname other ("\n    if ((this._".toList ++ (s.field ++ " == null)) \x7b".toList)) ?_ (fun more => ?_) ?_
    · simp only [List.mem_append, not_or]
      exact ⟨by decide, inField', by decide⟩
    · refine free_append.2 ⟨free_of_not_mem (by decide) _ _, free_append.2
        ⟨free_name (fun _ h => h.1) s.isName_field fun h => ?_, free_of_not_mem (by decide) _ _⟩⟩
      exact hname.1 h.2.1.symm
    · have opening : " == null)) \x7b (this._".toList
          = " == null)) \x7b".toList ++ " (this._".toList := by decide
      have closing : ")); \x7d\n    return this._".toList
          = ")); \x7d".toList ++ "\n    return this._".toList := by decide
      simp only [List.append_assoc, opening, closing] at h ⊢
      exact h
  · refine free_of_after [" (this._".toList] (by decide) (List.forall_mem_singleton.2 fun h => ?_)
    refine s.not_makes_of_free ("\n    return this._".toList ++ (s.field ++ (";\n  \x7d\n".toList ++ rest)))
      hname other [] (by simp) (fun _ => free_of_not_mem (by simp) _ _) ?_
    simp only [List.append_assoc] at h ⊢
    exact h

/-- The brace of a lookup that opens encloses a return only. -/
theorem Service.free_makes_lookupLine :
    Free '\x7b' (Makes moduleAlias) s.lookupLine rest := by
  obtain ⟨inField, inAlias, inClass⟩ := s.not_mem_names (by decide : isNameChar '\x7b' = false)
  refine free_append.2 ⟨free_of_not_mem (by decide) _ _, free_append.2 ⟨free_of_not_mem inAlias _ _,
    free_append.2 ⟨free_of_not_mem (by decide) _ _, free_append.2 ⟨free_of_not_mem inClass _ _,
      free_append.2 ⟨free_of_after [" return this.".toList] (by decide) (List.forall_mem_singleton.2 fun h => ?_),
        free_append.2 ⟨free_of_not_mem inField _ _, free_of_not_mem (by decide) _ _⟩⟩⟩⟩⟩⟩
  have inField' : '\x7d' ∉ s.field := s.isName_field.not_mem (by decide)
  have inner : '\x7d' ∉ " return this.".toList ++ (s.field ++ "; ".toList) := by
    simp only [List.mem_append, not_or]
    exact ⟨by decide, inField', by decide⟩
  have free : Free 'w' (Spaced moduleAlias) (" return this.".toList ++ (s.field ++ "; ".toList))
      ('\x7d' :: '\n' :: rest) :=
    free_append.2 ⟨free_of_not_mem (by decide) _ _, free_append.2
      ⟨free_name (fun _ h => h.1) s.isName_field fun h => not_startsBlank (by decide) h.1,
        free_of_not_mem (by decide) _ _⟩⟩
  refine not_makes inner free ?_
  simp only [List.append_assoc] at h ⊢
  exact h

theorem Service.free_equals_lookupLine {follows : List Char → Prop}
    (none_ : ∀ text, ¬ follows ("== ".toList ++ (s.moduleAlias ++ '.' :: text))
      ∧ ¬ follows ("= ".toList ++ (s.moduleAlias ++ '.' :: text))
      ∧ ¬ follows (" ".toList ++ (s.moduleAlias ++ '.' :: text))) :
    Free '=' follows s.lookupLine rest := by
  obtain ⟨inField, inAlias, inClass⟩ := s.not_mem_names (by decide : isNameChar '=' = false)
  refine free_append.2 ⟨free_of_after ["== ".toList, "= ".toList, " ".toList] (by decide) ?_,
    free_append.2 ⟨free_of_not_mem inAlias _ _, free_append.2 ⟨free_of_not_mem (by decide) _ _,
      free_append.2 ⟨free_of_not_mem inClass _ _, free_append.2 ⟨free_of_not_mem (by decide) _ _,
        free_append.2 ⟨free_of_not_mem inField _ _, free_of_not_mem (by decide) _ _⟩⟩⟩⟩⟩⟩
  rw [List.append_assoc]
  obtain ⟨first, second, third⟩ := none_ _
  exact List.forall_mem_cons.2 ⟨first,
    List.forall_mem_cons.2 ⟨second, List.forall_mem_singleton.2 third⟩⟩

theorem Service.free_constructs_lookupLine :
    Free '=' (Constructs moduleAlias) s.lookupLine rest := by
  refine s.free_equals_lookupLine rest fun text => ⟨fun h => List.cons_ne_nil _ _ h.1.symm,
    fun h => List.cons_ne_nil _ _ h.1.symm, fun h => ?_⟩
  have blank := h.2.1
  rw [behindWord_append isGap_space s.isName_alias (not_name_dot text)] at blank
  exact not_startsBlank (by decide) blank

theorem Service.free_compares_lookupLine (other : s.moduleAlias ≠ moduleAlias) :
    Free '=' (Compares moduleAlias) s.lookupLine rest := by
  refine s.free_equals_lookupLine rest fun text => ⟨?_, ?_, ?_⟩
  · rintro ⟨more, same, uses⟩
    obtain rfl : " ".toList ++ (s.moduleAlias ++ '.' :: text) = more :=
      (List.cons.inj (List.cons.inj same).2).2
    exact other (Uses.eq isGap_space s.isName_alias uses)
  · rintro ⟨more, same, -⟩
    exact absurd (List.cons.inj (List.cons.inj same).2).1 (by decide)
  · rintro ⟨more, same, -⟩
    exact absurd (List.cons.inj same).1 (by decide)

theorem Service.free_uses_fieldLine (other : s.moduleAlias ≠ moduleAlias) :
    Free ':' (Uses moduleAlias) s.fieldLine rest := by
  obtain ⟨inField, inAlias, inClass⟩ := s.not_mem_names (by decide : isNameChar ':' = false)
  refine free_append.2 ⟨free_of_not_mem (by decide) _ _, free_append.2 ⟨free_of_not_mem inField _ _,
    free_append.2 ⟨free_of_after [[]] (by decide) (List.forall_mem_singleton.2 fun h => ?_),
      free_append.2 ⟨free_of_not_mem inAlias _ _, free_append.2 ⟨free_of_not_mem (by decide) _ _,
        free_append.2 ⟨free_of_not_mem inClass _ _, free_of_not_mem (by decide) _ _⟩⟩⟩⟩⟩⟩
  rw [List.nil_append, List.append_assoc] at h
  exact other (Uses.eq isGap_nil s.isName_alias h)

end Others

/-! ## What the pieces end in -/

section Closed

variable (s : Service)

theorem Service.isClosed_fieldLine : IsClosed s.fieldLine := by
  have last : IsClosed ";\n".toList := ⟨[], ';', rfl, .inl rfl⟩
  exact (((((last.append _).append _).append _).append _).append _).append _

theorem Service.isClosed_accessorLines (typed : Bool) : IsClosed (s.accessorLines typed) := by
  have last : IsClosed ";\n  \x7d\n".toList := ⟨";\n  ".toList, '\x7d', rfl, .inr (.inr rfl)⟩
  exact (((((((((((last.append _).append _).append _).append _).append _).append _).append _).append
    _).append _).append _).append _)

theorem Service.isClosed_statementLine : IsClosed s.statementLine := by
  have last : IsClosed ");\n".toList := ⟨")".toList, ';', rfl, .inl rfl⟩
  exact ((last.append _).append _).append _

theorem Service.isClosed_lookupLine : IsClosed s.lookupLine := by
  have last : IsClosed "; \x7d\n".toList := ⟨"; ".toList, '\x7d', rfl, .inr (.inr rfl)⟩
  exact (((((last.append _).append _).append _).append _).append _).append _

end Closed

/-! ## What the pieces of a service are cut by -/

theorem takes_feed (behind rest : List Char) : restOfLine.Takes behind "\n".toList rest :=
  takes_restOfLine (by simp [IsSpaces] : IsSpaces []) (.inl (.inl rfl))

/-- A pattern whose stretches begin with a word and then something that starts with a blank is
skipped by a text that ends in a blank, if no letter that ends the word is followed by such a
thing. -/
theorem skips_of_word {pattern : Pattern} {key : Char} {follows : List Char → Prop}
    {run rest : List Char}
    (word : List Char) (hword : ' ' ∉ word)
    (shape : ∀ behind stretch more, pattern.Describes behind stretch →
      ∃ back, stretch ++ more = word ++ key :: back ∧ follows back)
    (last : run.getLast? = some ' ') (free : Free key follows run rest) (behind : List Char) :
    pattern.Skips behind run rest := by
  refine @skips_of_key _ _ (· = word) _ _ _ (fun behind stretch more h => ?_) ?_ free behind
  · obtain ⟨back, same, hback⟩ := shape behind stretch more h
    exact ⟨word, back, same, rfl, hback⟩
  · rintro front back more same hback rfl
    have mem : ' ' ∈ back := mem_of_getLast?_append hback (same ▸ last)
    exact hword (List.mem_append_left more mem)

section Own

variable {moduleAlias stretch line : List Char} (s : Service) (behind rest : List Char)

theorem IsField.takes (h : IsField moduleAlias stretch) (hname : IsName moduleAlias)
    (hline : ∀ behind, restOfLine.Takes behind line rest) :
    (fieldDeclaration moduleAlias).Takes behind (stretch ++ line) rest := by
  refine .append (takes_of_closing ';' (fun _ _ h => ?_) (describes_fieldHead.2 h) _) (hline _)
  obtain ⟨front, rfl, hfront, -⟩ := (describes_fieldHead.1 h).closes hname
  exact ⟨front, rfl, hfront⟩

theorem IsConstruction.takes (h : IsConstruction moduleAlias stretch) (hname : IsName moduleAlias)
    (hline : ∀ behind, restOfLine.Takes behind line rest) :
    (construction moduleAlias).Takes behind (stretch ++ line) rest := by
  refine .append (takes_of_closing ';' (fun _ _ h => ?_) (describes_constructionHead.2 h) _) (hline _)
  obtain ⟨front, rfl, hfront, -⟩ := (describes_constructionHead.1 h).closes hname
  exact ⟨front, rfl, hfront⟩

theorem IsLookup.takes (h : IsLookup moduleAlias stretch) (hname : IsName moduleAlias)
    (hline : ∀ behind, restOfLine.Takes behind line rest) :
    (lookupStatement moduleAlias).Takes behind (stretch ++ line) rest :=
  .append (takes_of_closing '\x7d' (fun _ _ h => (describes_lookupHead.1 h).closes hname)
    (describes_lookupHead.2 h) _) (hline _)

theorem Service.isField_fieldLine :
    ∃ stretch, s.fieldLine = stretch ++ "\n".toList ∧ IsField s.moduleAlias stretch := by
  have isName : IsName ('_' :: s.field) :=
    ⟨by simp, List.forall_mem_cons.2 ⟨by decide, s.isName_field.2⟩⟩
  refine ⟨_, ?_, "  ".toList, '_' :: s.field, [], [], s.className, [], rfl, by decide,
    isName, isGap_nil, isGap_nil, s.isName_class, isGap_nil⟩
  unfold Service.fieldLine
  simp only [List.append_assoc, List.cons_append, List.nil_append]
  rfl

theorem Service.making_append
    (text : List Char) : s.making ++ text = " = new ".toList ++ (s.moduleAlias
    ++ (".".toList ++ (s.className ++ ("(".toList ++ (argumentList s.arguments ++ text))))) := by
  show (_ ++ (_ ++ (_ ++ (_ ++ (_ ++ _))))) ++ text = _
  simp only [List.append_assoc]

theorem Service.isConstruction_statementLine :
    ∃ stretch, s.statementLine = stretch ++ "\n".toList ∧ IsConstruction s.moduleAlias stretch := by
  have inArguments : ';' ∉ argumentList s.arguments :=
    (consists_argumentList s.isName_arguments (by decide : Consists "., " _)).not_mem (by decide)
  refine ⟨_, ?_, "  ".toList, s.field, " ".toList, " ".toList, " ".toList, s.className, [],
    argumentList s.arguments, [], rfl, by decide, s.isName_field, isGap_space, isGap_space,
    ⟨by decide, isGap_space⟩, s.isName_class, isGap_nil, inArguments, isGap_nil⟩
  unfold Service.statementLine
  rw [s.making_append]
  simp only [List.append_assoc, List.cons_append, List.nil_append]
  rfl

theorem Service.isLookup_lookupLine :
    ∃ stretch, s.lookupLine = stretch ++ "\n".toList ∧ IsLookup s.moduleAlias stretch := by
  have isReturn : IsReturn ("return".toList ++ (" ".toList ++ ("this.".toList ++ (s.field ++ ([]
      ++ (";".toList ++ (" ".toList ++ "\x7d".toList))))))) :=
    ⟨_, _, _, _, rfl, ⟨by decide, isGap_space⟩, s.isName_field, isGap_nil, isGap_space⟩
  refine ⟨_, ?_, "    ".toList, " ".toList, [], " ".toList, " ".toList, s.className, [],
    " ".toList, " ".toList, _, rfl, by decide, isGap_space, isGap_nil, isGap_space, isGap_space,
    s.isName_class, isGap_nil, isGap_space, isGap_space, isReturn⟩
  unfold Service.lookupLine
  simp only [List.append_assoc, List.cons_append, List.nil_append]
  rfl

theorem Service.cuts_fieldLine : (fieldDeclaration s.moduleAlias).Cuts behind s.fieldLine rest := by
  obtain ⟨stretch, same, isField⟩ := s.isField_fieldLine
  rw [same]
  exact (isField.takes behind rest s.isName_alias (takes_feed · rest)).cuts (by simp)

theorem Service.cuts_statementLine :
    (construction s.moduleAlias).Cuts behind s.statementLine rest := by
  obtain ⟨stretch, same, isConstruction⟩ := s.isConstruction_statementLine
  rw [same]
  exact (isConstruction.takes behind rest s.isName_alias (takes_feed · rest)).cuts (by simp)

theorem Service.cuts_lookupLine :
    (lookupStatement s.moduleAlias).Cuts behind s.lookupLine rest := by
  obtain ⟨stretch, same, isLookup⟩ := s.isLookup_lookupLine
  rw [same]
  exact (isLookup.takes behind rest s.isName_alias (takes_feed · rest)).cuts (by simp)

/-- The condition of an accessor, up to the word `new`. -/
def Service.condition (s : Service) : List Char :=
  "\n    if ((this._".toList ++ (s.field ++ (" == null)) \x7b (this._".toList ++ (s.field
    ++ " = ".toList)))

/-- What stands between the class of a new service and the return of its accessor. -/
def Service.call (s : Service) : List Char :=
  "(".toList ++ (argumentList s.arguments ++ ")); \x7d\n    ".toList)

/-- The return of an accessor and the closing brace behind it. -/
def Service.result (s : Service) : List Char :=
  "return".toList ++ (" ".toList ++ ("this.".toList ++ (("_".toList ++ s.field) ++ ([] ++ (";".toList
    ++ ("\n  ".toList ++ "\x7d".toList))))))

theorem Service.accessorLines_eq (typed : Bool) : s.accessorLines typed = "  ".toList ++ ([]
    ++ ("get".toList ++ (" ".toList ++ (s.field ++ ([] ++ ("(".toList ++ ([] ++ (")".toList
      ++ ((s.typeOf typed ++ " ".toList) ++ ("\x7b".toList ++ (s.condition
        ++ ("new".toList ++ (" ".toList ++ ((s.moduleAlias ++ (".".toList ++ s.className))
        ++ (s.call ++ (s.result ++ "\n".toList)))))))))))))))) := by
  have get : "  get ".toList = "  ".toList ++ ("get".toList ++ " ".toList) := by decide
  have parentheses : "()".toList = "(".toList ++ ")".toList := by decide
  have opening : " \x7b\n    if ((this._".toList = " ".toList
      ++ ("\x7b".toList ++ "\n    if ((this._".toList) := by
    decide
  have new : " = new ".toList = " = ".toList ++ ("new".toList ++ " ".toList) := by decide
  have closing : ")); \x7d\n    return this._".toList = ")); \x7d\n    ".toList ++ ("return".toList
      ++ (" ".toList ++ ("this.".toList ++ "_".toList))) := by
    decide
  have last : ";\n  \x7d\n".toList = ";".toList
      ++ ("\n  ".toList ++ ("\x7d".toList ++ "\n".toList)) := by
    decide
  unfold Service.accessorLines Service.condition Service.call Service.result
  simp only [s.making_append, get, parentheses, opening, new, closing, last, List.append_assoc,
    List.nil_append]

theorem Service.isAccessorHead (typed : Bool) : IsAccessorHead s.field ("  ".toList ++ ("get".toList
    ++ (" ".toList ++ (s.field ++ ([] ++ ("(".toList ++ ([] ++ (")".toList ++ (s.typeOf typed ++ " ".toList))))))))) := by
  cases typed with
  | false =>
    exact ⟨"  ".toList, " ".toList, [], [], " ".toList, [], by simp [Service.typeOf], by decide,
      ⟨by decide, isGap_space⟩, s.isName_field, isGap_nil, isGap_nil, isGap_space, .inl rfl⟩
  | true =>
    have continues : ∀ c ∈ s.moduleAlias
        ++ (".".toList ++ s.className), continuesName c = true := by
      have name (c : Char) (h : isNameChar c = true) : continuesName c = true := by
        simp [continuesName, h]
      exact List.forall_mem_append.2 ⟨fun c hc => name c (s.isName_alias.2 c hc),
        List.forall_mem_append.2 ⟨by decide, fun c hc => name c (s.isName_class.2 c hc)⟩⟩
    exact ⟨"  ".toList, " ".toList, [], [], [], s.typeOf true ++ " ".toList, by simp, by decide,
      ⟨by decide, isGap_space⟩, s.isName_field, isGap_nil, isGap_nil, isGap_nil, .inr
        ⟨[], s.moduleAlias ++ (".".toList ++ s.className), " ".toList,
          by simp [Service.typeOf], isGap_nil, ⟨by simp, continues⟩, isGap_space⟩⟩

/-- No return starts in front of the one of an accessor. -/
theorem Service.skips_call : returnField.Skips behind s.call rest := by
  have free : Free 'n' StartsBlank s.call rest := free_append.2 ⟨free_of_not_mem (by decide) _ _,
    free_append.2 ⟨free_argumentList s.isName_arguments (fun _ h => h) (by decide)
      (not_startsBlank (by decide)), free_of_not_mem (by decide) _ _⟩⟩
  refine skips_of_word "retur".toList (by decide) (fun behind stretch more h => ?_) ?_ free behind
  · obtain ⟨gap, field, gap', gap'', rfl, hgap, -⟩ := describes_returnField.1 h
    exact ⟨_, by simp only [List.append_assoc]; rfl, StartsBlank.append hgap.2 hgap.1⟩
  · show List.getLast? (_ ++ (_ ++ _)) = _
    rw [List.getLast?_append, List.getLast?_append]
    rfl

/-- The service is not made in front of the one place of its accessor that makes it. -/
theorem Service.skips_condition :
    (Purge.making s.moduleAlias).Skips behind s.condition ("new".toList ++ rest) := by
  have starts : ∀ text, Spaced s.moduleAlias text → StartsBlank text := fun _ h => h.1
  have free : Free 'w' (Spaced s.moduleAlias) s.condition ("new".toList ++ rest) :=
    free_append.2 ⟨free_of_not_mem (by decide) _ _, free_append.2 ⟨free_name starts s.isName_field
      fun h => s.isName_alias.1 h.2.1.symm, free_append.2 ⟨free_of_not_mem (by decide) _ _,
        free_append.2 ⟨free_name starts s.isName_field fun h => s.isName_alias.1 h.2.1.symm,
          free_of_not_mem (by decide) _ _⟩⟩⟩⟩
  refine skips_of_word "ne".toList (by decide) (fun behind stretch more h => ?_) ?_ free behind
  · obtain ⟨gap, rfl, hgap⟩ := describes_making.1 h
    exact ⟨_, by simp only [List.append_assoc]; rfl, spaced_append hgap.2 hgap.1 s.isName_alias⟩
  · show List.getLast? (_ ++ (_ ++ (_ ++ (_ ++ _)))) = _
    rw [List.getLast?_append, List.getLast?_append, List.getLast?_append, List.getLast?_append]
    rfl

theorem Service.isAccessor_accessorLines (typed : Bool) :
    ∃ stretch, s.accessorLines typed = stretch ++ "\n".toList
      ∧ IsAccessor s.moduleAlias s.field stretch := by
  have isName : IsName ("_".toList ++ s.field) :=
    ⟨by simp, List.forall_mem_append.2 ⟨by decide, s.isName_field.2⟩⟩
  have isReturn : IsReturn s.result := by
    unfold Service.result
    exact ⟨" ".toList, "_".toList ++ s.field, [], "\n  ".toList, rfl, ⟨by decide,
      isGap_space⟩, isName, isGap_nil, by decide⟩
  have unclosed : '\x7d' ∉ s.condition := by
    have inField : '\x7d' ∉ s.field := s.isName_field.not_mem (by decide)
    unfold Service.condition
    simp only [List.mem_append, not_or]
    exact ⟨by decide, inField, by decide, inField, by decide⟩
  have isMaking : IsMaking s.moduleAlias ("new".toList ++ (" ".toList ++ (s.moduleAlias ++ ".".toList))) :=
    ⟨" ".toList, rfl, by decide, isGap_space⟩
  have border : ∀ c ∈ (s.call ++ s.result).head?, isNameChar c = false := by
    unfold Service.call
    exact fun c hc => Option.some.inj hc ▸ by decide
  refine ⟨_, ?_, _, _, rfl, s.isAccessorHead typed, s.condition, _, s.className, s.call,
    s.result, rfl, unclosed, isMaking, ?_, s.isName_class, border, isReturn, s.skips_call [] _⟩
  · rw [s.accessorLines_eq]
    simp only [List.append_assoc, List.nil_append]
  · exact s.skips_condition [] _

theorem Service.cuts_accessorLines (typed : Bool) :
    (accessor s.moduleAlias).Cuts behind (s.accessorLines typed) rest := by
  obtain ⟨stretch, same, isAccessor⟩ := s.isAccessor_accessorLines typed
  have blank : StartsBlank stretch := by
    have starts : StartsBlank (stretch ++ "\n".toList) := same ▸ ⟨' ', rfl, by decide⟩
    refine starts.of_append ?_
    obtain ⟨head, body, rfl, ⟨run, gap, gap₁, gap₂, gap₃, type, rfl, -⟩, -⟩ := isAccessor
    simp
  rw [same]
  exact (isAccessor.takes s.isName_alias (.inr blank) (takes_feed · rest)).cuts (by simp)

end Own

end RouteTrim.Purge
