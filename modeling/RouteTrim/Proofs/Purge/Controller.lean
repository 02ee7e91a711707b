import RouteTrim.Proofs.Path.Specifier
import RouteTrim.Proofs.Purge.Import
import RouteTrim.Proofs.Purge.Service

/-!
# A factory without one of its services

A compiled root factory imports the module of each of its services, and its class has the code of
each service between text of its own. To purge a controller from such a factory is to lay the
factory out without that service (`withoutController_layout`). The import that is found is the
service's own, since in front of it there are only imports of other modules. Each of the four passes
behind it then cuts the pieces of its kind that are the service's and skips all other pieces. The
accessor has to go first: the statement that makes the service stands in it as well.

A specifier that holds a quote, a semicolon or an opening brace can look like code of another
service (`withoutController_lookalikes`).
-/

set_option autoImplicit false

namespace RouteTrim.Purge

open Pattern
open RouteTrim.Path (WorkingFolder)
open RouteTrim.Text (isBlank)

/-! ## Layouts -/

/-- The kinds of code that a service has in the class, in the order in which they are purged. -/
inductive Part where
  | accessor
  | statement
  | lookup
  | field
  deriving DecidableEq

def Part.pattern (moduleAlias : List Char) : Part → Pattern
  | accessor => Purge.accessor moduleAlias
  | statement => construction moduleAlias
  | lookup => lookupStatement moduleAlias
  | field => fieldDeclaration moduleAlias

/-- A piece of a factory: text that belongs to no service, or some code of a service. -/
inductive Piece where
  | frame (text : List Char)
  | imported (s : Service)
  | accessor (s : Service) (typed : Bool)
  | statement (s : Service)
  | lookup (s : Service)
  | field (s : Service)

namespace Piece

/-- The text of a piece. -/
def chars : Piece → List Char
  | frame text => text
  | imported s => s.importLine
  | accessor s typed => s.accessorLines typed
  | statement s => s.statementLine
  | lookup s => s.lookupLine
  | field s => s.fieldLine

def part? : Piece → Option (Part × List Char)
  | frame _ | imported _ => none
  | accessor s _ => some (.accessor, s.moduleAlias)
  | statement s => some (.statement, s.moduleAlias)
  | lookup s => some (.lookup, s.moduleAlias)
  | field s => some (.field, s.moduleAlias)

end Piece

/-- The code of one kind that a service has. -/
def Service.pieces (s : Service) : Part → List Piece
  | .accessor =>
    match s.maker with
    | .accessor typed => [.accessor s typed]
    | .statement => []
  | .statement =>
    match s.maker with
    | .accessor _ => []
    | .statement => [.statement s]
  | .lookup => [.lookup s]
  | .field => if s.kept then [.field s] else []

/-- A stretch of a class: text that belongs to no service, or the code of some kinds that each
service in turn has. -/
inductive Slot where
  | frame (text : List Char)
  | each (parts : List Part)

/-- The pieces of a stretch of a class with some services. -/
def Slot.pieces (services : List Service) : Slot → List Piece
  | frame text => [.frame text]
  | each parts => services.flatMap fun s => parts.flatMap s.pieces

/-- How a factory is laid out: what stands in front of the imports of its services, and its
class. -/
structure Layout where
  header : List Char
  body : List Slot

namespace Layout

/-- The pieces of a factory behind its header. -/
def pieces (layout : Layout) (services : List Service) : List Piece :=
  services.map .imported ++ layout.body.flatMap (Slot.pieces services)

/-- The text of a factory with some services. -/
def text (layout : Layout) (services : List Service) : String :=
  String.ofList (layout.header ++ (layout.pieces services).flatMap Piece.chars)

end Layout

/-- A text in which no code of the service with an alias starts, whatever stands around it. -/
def Inert (moduleAlias text : List Char) : Prop :=
  ∀ (part : Part) (behind rest : List Char), (part.pattern moduleAlias).Skips behind text rest

/-- The text of a layout that belongs to no service holds no import and no code of the service. -/
structure Layout.Fits (layout : Layout) (s : Service) : Prop where
  inert_header : Inert s.moduleAlias layout.header
  unimported : ∀ rest, (aliasedImport s.specifier).Skips [] layout.header rest
  border : ∀ c ∈ layout.header.getLast?, continuesName c = false
  inert_body : ∀ text, .frame text ∈ layout.body → Inert s.moduleAlias text

/-- The import of another service is not taken for one of the service or for its code. -/
structure Service.Apart (s other : Service) : Prop where
  moduleAlias : other.moduleAlias ≠ s.moduleAlias
  specifier : other.specifier ≠ s.specifier
  unquoted : ∀ c ∈ other.specifier.toList, c ≠ '\'' ∧ c ≠ '"'
  semicolon : ';' ∉ other.specifier.toList
  brace : '\x7b' ∉ other.specifier.toList

/-! ## Imports -/

theorem unquoted_opening {moduleAlias : List Char} (hname : IsName moduleAlias) :
    ∀ c ∈ "import * as ".toList ++ (moduleAlias ++ " from ".toList), ¬ (c = '\'' ∨ c = '"') := by
  refine List.forall_mem_append.2 ⟨by decide, List.forall_mem_append.2 ⟨?_, by decide⟩⟩
  rintro c hc (rfl | rfl) <;> exact hname.not_mem (by decide) hc

theorem skips_importText {moduleAlias : List Char} {specifier other : String}
    (hname : IsName moduleAlias)
    (unquoted : ∀ c ∈ other.toList, c ≠ '\'' ∧ c ≠ '"') (single : '\'' ∉ specifier.toList)
    (dot : specifier.toList.head? = some '.') (ne : other ≠ specifier) (behind rest : List Char) :
    (aliasedImport specifier).Skips behind (importText moduleAlias other) rest := by
  have single' : '\'' ∉ other.toList := fun mem => (unquoted _ mem).1 rfl
  have opening := unquoted_opening hname
  have split : importText moduleAlias other = ("import * as ".toList ++ (moduleAlias ++ " from ".toList))
      ++ (['\''] ++ (other.toList ++ "';\n".toList)) := by
    unfold importText
    simp only [List.append_assoc]
    rfl
  rw [split]
  refine .append (fun front back same hback stretch more ahead hs => ?_)
    (.append (skips_aliasedImport_of_not_mem (by decide) _ _)
      (.append (fun front back same hback stretch more ahead hs => ?_)
        (skips_aliasedImport_of_not_mem (by decide) _ _)))
  · -- From the opening on, the first quote is the one in front of the other specifier.
    obtain ⟨front', quote, more', rfl, hfront', -, hquote⟩ := quoted_of_describes_aliasedImport hs
    simp only [List.append_assoc, List.cons_append, List.nil_append] at ahead
    obtain ⟨-, rfl, specifiers⟩ := first_unique (p := fun c => c = '\'' ∨ c = '"')
      (fun c hc => opening c (same ▸ List.mem_append_right front hc)) hfront' (.inl rfl) hquote ahead
    obtain ⟨same, -⟩ := first_unique (p := (· = '\'')) (fun c hc e => single' (e ▸ hc))
      (fun c hc e => single (e ▸ hc)) rfl rfl specifiers
    exact ne (String.toList_inj.1 same)
  · -- From the other specifier on, it is the one behind it, and there a semicolon follows.
    obtain ⟨front', quote, more', rfl, hfront', -, hquote⟩ := quoted_of_describes_aliasedImport hs
    simp only [List.append_assoc, List.cons_append] at ahead
    have plain : ∀ c ∈ back, ¬ (c = '\'' ∨ c = '"') := fun c hc h =>
      have none_ := unquoted c (same ▸ List.mem_append_right front hc)
      h.elim none_.1 none_.2
    obtain ⟨-, rfl, specifiers⟩ := first_unique (p := fun c => c = '\'' ∨ c = '"') plain hfront'
      (.inl rfl) hquote ahead
    obtain ⟨tail, start⟩ := List.head?_eq_some_iff.1 dot
    rw [start] at specifiers
    exact absurd (List.cons.inj specifiers).1 (by decide)

theorem importText_isImportAs {moduleAlias : List Char} (hname : IsName moduleAlias)
    (specifier : String) :
    ∃ statement, importText moduleAlias specifier = statement ++ ";\n".toList
      ∧ IsImportAs specifier moduleAlias statement := by
  refine ⟨("import * as ".toList ++ (moduleAlias ++ " from ".toList)) ++ '\'' :: (specifier.toList ++ ['\'']),
    ?_, " ".toList, " ".toList, " ".toList, " ".toList, " ".toList, '\'', by simp,
    isGap_space, isGap_space, ⟨by decide, isGap_space⟩, hname, ⟨by decide, isGap_space⟩,
    isGap_space, .inl rfl⟩
  unfold importText
  simp only [List.append_assoc, List.cons_append]
  rfl

theorem cuts_importText {moduleAlias behind : List Char} (hname : IsName moduleAlias)
    (specifier : String)
    (start : ∀ c ∈ behind.head?, continuesName c = false) (rest : List Char) :
    (aliasedImport specifier).Cuts behind (importText moduleAlias specifier) rest := by
  have isEnding : IsEnding ";\n".toList := ⟨[], [';'], [], ['\n'], rfl,
    by decide, .inr rfl, by decide, .inl (.inl rfl)⟩
  obtain ⟨statement, same, isImport⟩ := importText_isImportAs hname specifier
  exact same ▸ isImport.cuts start isEnding (.inl (by decide))

theorem aliasAt_importText {moduleAlias behind : List Char} (hname : IsName moduleAlias)
    (specifier : String) (start : ∀ c ∈ behind.head?, continuesName c = false) (rest : List Char) :
    aliasAt ⟨behind, importText moduleAlias specifier ++ rest⟩ = moduleAlias := by
  obtain ⟨statement, same, isImport⟩ := importText_isImportAs hname specifier
  rw [same, List.append_assoc]
  exact isImport.aliasAt start _

/-! ## Pieces that are skipped and cut -/

/-- A piece that is not of a service itself has nothing that is taken for the code of the service
with an alias. -/
def Piece.IsHarmless (moduleAlias : List Char) : Piece → Prop
  | frame text => Inert moduleAlias text
  | imported s => ';' ∉ s.specifier.toList ∧ '\x7b' ∉ s.specifier.toList
  | _ => True

/-- An import ends in a quote and a semicolon, and a mark in front of those stands in its
specifier. -/
theorem importText_eq {moduleAlias : List Char} (hname : IsName moduleAlias) (specifier : String) :
    ∃ body, importText moduleAlias specifier = (body ++ ['\'']) ++ [';', '\n']
      ∧ ∀ c, isNameChar c = false ∧ c ∉ "* '".toList → c ∉ specifier.toList → c ∉ body := by
  refine ⟨"import * as ".toList ++ (moduleAlias ++ (" from '".toList ++ specifier.toList)), ?_,
    fun c hc h => ?_⟩
  · unfold importText
    simp only [List.append_assoc]
    rfl
  · simp only [List.mem_append, not_or]
    exact ⟨Consists.not_mem (by decide) hc, hname.not_mem hc.1, Consists.not_mem (by decide) hc, h⟩

theorem isClosed_importText {moduleAlias : List Char} (hname : IsName moduleAlias)
    (specifier : String) :
    IsClosed (importText moduleAlias specifier) := by
  obtain ⟨body, same, -⟩ := importText_eq hname specifier
  exact ⟨_, ';', same, .inl rfl⟩

theorem Service.brace_not_mem_importLine (s : Service) (h : '\x7b' ∉ s.specifier.toList) :
    '\x7b' ∉ s.importLine := by
  obtain ⟨body, same, marks⟩ := importText_eq s.isName_alias s.specifier
  rw [Service.importLine, same]
  simpa using marks '\x7b' (by decide) h

section Pieces

variable {moduleAlias : List Char} {p : Piece} (hname : IsName moduleAlias)
  (harmless : p.IsHarmless moduleAlias) (behind rest : List Char)

include hname harmless

theorem Piece.skips_accessor (other : p.part? ≠ some (.accessor, moduleAlias)) :
    (Purge.accessor moduleAlias).Skips behind p.chars rest := by
  cases p with
  | frame text => exact harmless .accessor behind rest
  | imported s =>
    exact Purge.skips_accessor hname (isClosed_importText s.isName_alias s.specifier)
      (free_of_not_mem (s.brace_not_mem_importLine harmless.2) _ _) behind
  | accessor s typed =>
    have ne : s.moduleAlias ≠ moduleAlias := fun h => other (h ▸ rfl)
    exact Purge.skips_accessor hname (s.isClosed_accessorLines typed)
      (s.free_makes_accessorLines typed rest hname ne) behind
  | statement s =>
    exact Purge.skips_accessor hname s.isClosed_statementLine
      (free_of_not_mem (s.consists_statementLine.not_mem (by decide)) _ _) behind
  | lookup s =>
    exact Purge.skips_accessor hname s.isClosed_lookupLine (s.free_makes_lookupLine rest) behind
  | field s =>
    exact Purge.skips_accessor hname s.isClosed_fieldLine
      (free_of_not_mem (s.consists_fieldLine.not_mem (by decide)) _ _) behind

theorem Piece.skips_construction (gone : p.part? ≠ some (.accessor, moduleAlias))
    (other : p.part? ≠ some (.statement, moduleAlias)) :
    (construction moduleAlias).Skips behind p.chars rest := by
  cases p with
  | frame text => exact harmless .statement behind rest
  | imported s =>
    obtain ⟨body, same, marks⟩ := importText_eq s.isName_alias s.specifier
    rw [Piece.chars, Service.importLine, same]
    exact skips_construction_importLine hname (marks ';' (by decide) harmless.1) behind
  | accessor s typed =>
    have ne : s.moduleAlias ≠ moduleAlias := fun h => gone (h ▸ rfl)
    exact Purge.skips_construction hname (s.isClosed_accessorLines typed)
      (s.free_constructs_accessorLines typed rest ne) behind
  | statement s =>
    have ne : s.moduleAlias ≠ moduleAlias := fun h => other (h ▸ rfl)
    exact Purge.skips_construction hname s.isClosed_statementLine
      (s.free_equals_statementLine rest (s.free_constructs_making · ne)) behind
  | lookup s =>
    exact Purge.skips_construction hname s.isClosed_lookupLine (s.free_constructs_lookupLine rest) behind
  | field s =>
    exact Purge.skips_construction hname s.isClosed_fieldLine
      (free_of_not_mem (s.consists_fieldLine.not_mem (by decide)) _ _) behind

theorem Piece.skips_lookupStatement (other : p.part? ≠ some (.lookup, moduleAlias)) :
    (lookupStatement moduleAlias).Skips behind p.chars rest := by
  cases p with
  | frame text => exact harmless .lookup behind rest
  | imported s =>
    exact skips_lookup_of_unbraced hname (isClosed_importText s.isName_alias s.specifier) (s.brace_not_mem_importLine harmless.2) behind
  | accessor s typed =>
    exact Purge.skips_lookupStatement hname (s.isClosed_accessorLines typed)
      (s.free_compares_accessorLines typed rest) behind
  | statement s =>
    exact Purge.skips_lookupStatement hname s.isClosed_statementLine
      (s.free_equals_statementLine rest s.free_compares_making) behind
  | lookup s =>
    have ne : s.moduleAlias ≠ moduleAlias := fun h => other (h ▸ rfl)
    exact Purge.skips_lookupStatement hname s.isClosed_lookupLine (s.free_compares_lookupLine rest ne) behind
  | field s =>
    exact Purge.skips_lookupStatement hname s.isClosed_fieldLine
      (free_of_not_mem (s.consists_fieldLine.not_mem (by decide)) _ _) behind

theorem Piece.skips_fieldDeclaration (gone : p.part? ≠ some (.accessor, moduleAlias))
    (other : p.part? ≠ some (.field, moduleAlias)) :
    (fieldDeclaration moduleAlias).Skips behind p.chars rest := by
  cases p with
  | frame text => exact harmless .field behind rest
  | imported s =>
    obtain ⟨body, same, marks⟩ := importText_eq s.isName_alias s.specifier
    rw [Piece.chars, Service.importLine, same]
    exact skips_fieldDeclaration_importLine hname (marks ';' (by decide) harmless.1) behind
  | accessor s typed =>
    have ne : s.moduleAlias ≠ moduleAlias := fun h => gone (h ▸ rfl)
    exact Purge.skips_fieldDeclaration hname (s.isClosed_accessorLines typed)
      (s.free_uses_accessorLines typed rest ne) behind
  | statement s =>
    exact Purge.skips_fieldDeclaration hname s.isClosed_statementLine
      (free_of_not_mem (s.consists_statementLine.not_mem (by decide)) _ _) behind
  | lookup s =>
    exact Purge.skips_fieldDeclaration hname s.isClosed_lookupLine
      (free_of_not_mem (s.consists_lookupLine.not_mem (by decide)) _ _) behind
  | field s =>
    have ne : s.moduleAlias ≠ moduleAlias := fun h => other (h ▸ rfl)
    exact Purge.skips_fieldDeclaration hname s.isClosed_fieldLine (s.free_uses_fieldLine rest ne) behind

/-- A pass skips the pieces that it is not about, once the accessor of the service is gone. -/
theorem Piece.skips {part : Part} (gone : p.part? ≠ some (.accessor, moduleAlias))
    (other : p.part? ≠ some (part, moduleAlias)) :
    (part.pattern moduleAlias).Skips behind p.chars rest := by
  cases part with
  | accessor => exact p.skips_accessor hname harmless behind rest gone
  | statement => exact p.skips_construction hname harmless behind rest gone other
  | lookup => exact p.skips_lookupStatement hname harmless behind rest other
  | field => exact p.skips_fieldDeclaration hname harmless behind rest gone other

omit hname harmless in
theorem Piece.cuts {part : Part} (own : p.part? = some (part, moduleAlias)) :
    (part.pattern moduleAlias).Cuts behind p.chars rest := by
  cases p with
  | frame text => exact absurd own (by simp [Piece.part?])
  | imported s => exact absurd own (by simp [Piece.part?])
  | accessor s typed =>
    obtain ⟨rfl, rfl⟩ := Prod.mk.inj (Option.some.inj own)
    exact s.cuts_accessorLines behind rest typed
  | statement s =>
    obtain ⟨rfl, rfl⟩ := Prod.mk.inj (Option.some.inj own)
    exact s.cuts_statementLine behind rest
  | lookup s =>
    obtain ⟨rfl, rfl⟩ := Prod.mk.inj (Option.some.inj own)
    exact s.cuts_lookupLine behind rest
  | field s =>
    obtain ⟨rfl, rfl⟩ := Prod.mk.inj (Option.some.inj own)
    exact s.cuts_fieldLine behind rest

end Pieces

/-! ## The passes over a factory -/

/-- One pass over a row of pieces leaves those that it is not about. The accessor of the service may
be among them in its own pass only. -/
theorem removeAll_pieces {moduleAlias : List Char}
    (hname : IsName moduleAlias) {pieces : List Piece}
    (harmless : ∀ p ∈ pieces, p.IsHarmless moduleAlias) {part : Part}
    (gone : ∀ p ∈ pieces, p.part? = some (.accessor, moduleAlias) → part = .accessor) :
    (part.pattern moduleAlias).removeAll (pieces.flatMap Piece.chars)
      = (pieces.filter fun p => p.part? ≠ some (part, moduleAlias)).flatMap Piece.chars := by
  refine removeFrom_pieces Piece.chars _ fun front p back same => ?_
  have mem : p ∈ pieces := same ▸ by simp
  split
  · next keep =>
    have other : p.part? ≠ some (part, moduleAlias) := of_decide_eq_true keep
    exact p.skips hname (harmless p mem) _ _ (fun own => other (gone p mem own ▸ own)) other
  · next cut =>
    have own : p.part? = some (part, moduleAlias) := by simpa using cut
    exact p.cuts _ _ own

/-- The alias of the service that a piece is code of. -/
def Piece.owner? (p : Piece) : Option (List Char) :=
  p.part?.map Prod.snd

theorem removeService_pieces {moduleAlias : List Char} (hname : IsName moduleAlias)
    {pieces : List Piece}
    (harmless : ∀ p ∈ pieces, p.IsHarmless moduleAlias) :
    removeService moduleAlias (pieces.flatMap Piece.chars)
      = (pieces.filter fun p => p.owner? ≠ some moduleAlias).flatMap Piece.chars := by
  let without (part : Part) (pieces : List Piece) : List Piece :=
    pieces.filter fun p => p.part? ≠ some (part, moduleAlias)
  have sub (part : Part) {pieces : List Piece} {P : Piece → Prop} (h : ∀ p ∈ pieces, P p) :
      ∀ p ∈ without part pieces, P p := fun p hp => h p (List.mem_of_mem_filter hp)
  have gone : ∀ p ∈ without .accessor pieces, p.part? ≠ some (.accessor, moduleAlias) := fun p hp =>
    of_decide_eq_true (List.mem_filter.1 hp).2
  have pass (part : Part) {pieces : List Piece} (harmless : ∀ p ∈ pieces, p.IsHarmless moduleAlias)
      (gone : ∀ p ∈ pieces, p.part? ≠ some (.accessor, moduleAlias)) :
      (part.pattern moduleAlias).removeAll (pieces.flatMap Piece.chars)
        = (without part pieces).flatMap Piece.chars :=
    removeAll_pieces hname harmless fun p hp own => absurd own (gone p hp)
  have first : (Part.pattern moduleAlias .accessor).removeAll (pieces.flatMap Piece.chars)
      = (without .accessor pieces).flatMap Piece.chars :=
    removeAll_pieces hname harmless fun _ _ _ => rfl
  have second := pass .statement (sub .accessor harmless) gone
  have third := pass .lookup (sub .statement (sub .accessor harmless)) (sub .statement gone)
  have fourth := pass .field (sub .lookup (sub .statement (sub .accessor harmless)))
    (sub .lookup (sub .statement gone))
  have all : without .field (without .lookup (without .statement (without .accessor pieces)))
      = pieces.filter fun p => p.owner? ≠ some moduleAlias := by
    simp only [without, List.filter_filter]
    refine List.filter_congr fun p _ => ?_
    rw [Piece.owner?]
    cases p.part? with
    | none => simp
    | some own =>
      obtain ⟨part, other⟩ := own
      cases part <;> simp [eq_comm]
  calc removeService moduleAlias (pieces.flatMap Piece.chars)
    _ = (Part.pattern moduleAlias .field).removeAll ((Part.pattern moduleAlias .lookup).removeAll
          ((Part.pattern moduleAlias .statement).removeAll ((Part.pattern moduleAlias .accessor).removeAll
            (pieces.flatMap Piece.chars)))) := rfl
    _ = _ := by rw [first, second, third, fourth, all]

/-! ## The service that is purged -/

theorem Service.owner_of_mem {s : Service} {part : Part} {p : Piece} (h : p ∈ s.pieces part) :
    p.owner? = some s.moduleAlias := by
  cases part with
  | accessor =>
    rw [Service.pieces] at h
    split at h
    · rw [List.mem_singleton.1 h]; rfl
    · exact absurd h (by simp)
  | statement =>
    rw [Service.pieces] at h
    split at h
    · exact absurd h (by simp)
    · rw [List.mem_singleton.1 h]; rfl
  | lookup => rw [List.mem_singleton.1 h]; rfl
  | field =>
    rw [Service.pieces] at h
    split at h
    · rw [List.mem_singleton.1 h]; rfl
    · exact absurd h (by simp)

/-- The code of the services is harmless, and so is a stretch of a class if its own text is. -/
theorem Slot.isHarmless {services : List Service} {moduleAlias : List Char}
    {slot : Slot} {p : Piece} (inert : ∀ text, slot = .frame text → Inert moduleAlias text)
    (h : p ∈ slot.pieces services) :
    p.IsHarmless moduleAlias := by
  cases slot with
  | frame text =>
    obtain rfl := List.mem_singleton.1 h
    exact inert text rfl
  | each parts =>
    obtain ⟨s, -, h⟩ := List.mem_flatMap.1 h
    obtain ⟨part, -, h⟩ := List.mem_flatMap.1 h
    have owned := Service.owner_of_mem h
    cases p with
    | frame text => exact absurd owned (by simp [Piece.owner?, Piece.part?])
    | imported s => exact absurd owned (by simp [Piece.owner?, Piece.part?])
    | accessor | statement | lookup | field => trivial

/-- A class without the code of a service is the class of the other services. -/
theorem Slot.filter_pieces {front back : List Service} {s : Service}
    (distinct : ∀ other ∈ front ++ back, other.moduleAlias ≠ s.moduleAlias) (slot : Slot) :
    (slot.pieces (front ++ s :: back)).filter (fun p => p.owner? ≠ some s.moduleAlias)
      = slot.pieces (front ++ back) := by
  cases slot with
  | frame text => rfl
  | each parts =>
    let code (o : Service) := parts.flatMap o.pieces
    have owner (o : Service) : ∀ p ∈ code o, p.owner? = some o.moduleAlias := fun p hp =>
      have ⟨_, _, h⟩ := List.mem_flatMap.1 hp
      Service.owner_of_mem h
    have none_ : (code s).filter (fun p => p.owner? ≠ some s.moduleAlias) = [] :=
      List.filter_eq_nil_iff.2 fun p hp => by simp [owner s p hp]
    have all (services : List Service) (h : ∀ o ∈ services, o.moduleAlias ≠ s.moduleAlias) :
        (services.flatMap code).filter (fun p => p.owner? ≠ some s.moduleAlias)
            = services.flatMap code := by
      refine List.filter_eq_self.2 fun p hp => ?_
      obtain ⟨o, ho, hp⟩ := List.mem_flatMap.1 hp
      simpa [owner o p hp] using h o ho
    obtain ⟨inFront, inBack⟩ := List.forall_mem_append.1 distinct
    calc ((front ++ s :: back).flatMap code).filter _
      _ = (front.flatMap code).filter (fun p => p.owner? ≠ some s.moduleAlias)
            ++ ((code s).filter (fun p => p.owner? ≠ some s.moduleAlias)
              ++ (back.flatMap code).filter (fun p => p.owner? ≠ some s.moduleAlias)) := by
        simp only [List.flatMap_append, List.flatMap_cons, List.filter_append]
      _ = front.flatMap code ++ back.flatMap code := by
        rw [all front inFront, none_, all back inBack, List.nil_append]
      _ = (front ++ back).flatMap code := List.flatMap_append.symm

section Purged

variable {layout : Layout} {front back : List Service} {s : Service} {file module : String}

/-- The import that is found is the one of the service. -/
theorem removeImport_layout [WorkingFolder] (own : specifierOf file module = s.specifier)
    (single : '\'' ∉ s.specifier.toList) (apart : ∀ other ∈ front ++ back, s.Apart other)
    (fits : layout.Fits s) :
    removeImport file module (layout.text (front ++ s :: back)).toList
      = some (layout.header ++ ((front ++ back).map Piece.imported
          ++ layout.body.flatMap (Slot.pieces (front ++ s :: back))).flatMap Piece.chars,
              s.moduleAlias) := by
  have dot : s.specifier.toList.head? = some '.' := own ▸ Path.head?_importSpecifier _ _
  let ahead := layout.header ++ (front.map Piece.imported).flatMap Piece.chars
  let rest := (back.map Piece.imported ++ layout.body.flatMap (Slot.pieces (front ++ s :: back))).flatMap
    Piece.chars
  have text : (layout.text (front ++ s :: back)).toList = ahead ++ (s.importLine ++ rest) := by
    simp only [Layout.text, Layout.pieces, String.toList_ofList, List.map_append, List.map_cons,
      List.flatMap_append, List.flatMap_cons, List.append_assoc, List.cons_append,
      ahead, rest, Piece.chars]
  have skips : (aliasedImport s.specifier).Skips [] ahead (s.importLine ++ rest) := by
    refine .append (fits.unimported _) (skips_flatMap Piece.chars fun before p after same => ?_)
    obtain ⟨other, hother, rfl⟩ := List.mem_map.1
      (same ▸ (by simp) : p ∈ front.map Piece.imported)
    have h := apart other (List.mem_append_left back hother)
    exact skips_importText other.isName_alias h.unquoted single dot h.specifier _ _
  have start : ∀ c ∈ ahead.reverse.head?, continuesName c = false := by
    intro c hc
    rw [List.head?_reverse] at hc
    rcases front.eq_nil_or_concat with rfl | ⟨others, other, rfl⟩
    · exact fits.border c (by simpa [ahead] using hc)
    · obtain ⟨body, same, -⟩ := importText_eq other.isName_alias other.specifier
      have last : ahead.getLast? = some '\n' := by
        simp only [ahead, List.concat_eq_append, List.map_append, List.flatMap_append, List.map_cons,
          List.map_nil, List.flatMap_cons, List.flatMap_nil, List.append_nil, Piece.chars,
          Service.importLine, same, List.getLast?_append]
        rfl
      obtain rfl : '\n' = c := Option.some.inj (last.symm.trans hc)
      decide
  have found : (aliasedImport s.specifier).findFrom [] (ahead ++ (s.importLine ++ rest))
      = some (⟨ahead.reverse, s.importLine ++ rest⟩,
          ⟨s.importLine.reverse ++ ahead.reverse, rest⟩) := by
    rw [skips.findFrom, List.append_nil]
    exact (cuts_importText s.isName_alias s.specifier start rest).findFrom
  have alias_ : aliasAt ⟨ahead.reverse, s.importLine ++ rest⟩ = s.moduleAlias :=
    aliasAt_importText s.isName_alias s.specifier start rest
  rw [removeImport, own, text, Pattern.find?, found]
  show some ((ahead.reverse.reverse ++ rest), aliasAt ⟨ahead.reverse, s.importLine ++ rest⟩) = _
  rw [alias_]
  simp [ahead, rest]

theorem withoutController_ofList [WorkingFolder] (file module : String) (content : List Char) :
    withoutController file (String.ofList content) module
      = String.ofList (match removeImport file module content with
        | some (rest, moduleAlias) => removeService moduleAlias rest
        | none => content) := by
  rw [withoutController, String.toList_ofList]
  cases removeImport file module content <;> rfl

/-- **A controller is purged from a factory by laying the factory out without its service.** The
layout says in which order the class holds the fields, accessors, statements and lookups of its
services, and what other text stands in front of the imports and between the lines. The purge
commutes with it: whatever the services are, where the purged one stands among them, and which lines
each of them has, the result is the text of the same layout for the rest of the services.

The patterns are matched anywhere in a text, so they have to be kept away from where they could
match by accident: from the other text (`Layout.Fits`), and from the specifiers of the other
services, which may hold neither quotes nor a semicolon nor an opening brace (`Service.Apart`). -/
theorem withoutController_layout [WorkingFolder] (own : specifierOf file module = s.specifier)
    (single : '\'' ∉ s.specifier.toList) (apart : ∀ other ∈ front ++ back, s.Apart other)
    (fits : layout.Fits s) :
    withoutController file (layout.text (front ++ s :: back)) module
      = layout.text (front ++ back) := by
  have distinct : ∀ other ∈ front ++ back, other.moduleAlias ≠ s.moduleAlias := fun other h =>
    (apart other h).moduleAlias
  let pieces := .frame layout.header :: ((front ++ back).map Piece.imported
    ++ layout.body.flatMap (Slot.pieces (front ++ s :: back)))
  have harmless : ∀ p ∈ pieces, p.IsHarmless s.moduleAlias := by
    refine List.forall_mem_cons.2 ⟨fits.inert_header, List.forall_mem_append.2 ⟨?_, ?_⟩⟩
    · exact List.forall_mem_map.2 fun other h => ⟨(apart other h).semicolon, (apart other h).brace⟩
    · intro p hp
      obtain ⟨slot, hslot, hp⟩ := List.mem_flatMap.1 hp
      exact slot.isHarmless (fun text h => fits.inert_body text (h ▸ hslot)) hp
  have rest : pieces.filter (fun p => p.owner? ≠ some s.moduleAlias)
      = .frame layout.header :: layout.pieces (front ++ back) := by
    have imports : ((front ++ back).map Piece.imported).filter (fun p => p.owner? ≠ some s.moduleAlias)
        = (front ++ back).map Piece.imported :=
      List.filter_eq_self.2 (List.forall_mem_map.2 fun _ _ => by simp [Piece.owner?, Piece.part?])
    have header : (Piece.frame layout.header).owner? = none := rfl
    rw [List.filter_cons_of_pos (by simp [header]), List.filter_append,
      imports, List.filter_flatMap, Layout.pieces]
    simp only [Slot.filter_pieces distinct]
  have found := removeImport_layout own single apart fits
  rw [Layout.text, String.toList_ofList] at found
  rw [Layout.text, withoutController_ofList, found]
  show String.ofList (removeService s.moduleAlias (pieces.flatMap Piece.chars)) = _
  rw [removeService_pieces s.isName_alias harmless, rest]
  rfl

end Purged

/-! ## Frames -/

/-- Lines without an equals sign, a colon and a word that ends in `get` hold no code of a service.
The blank behind the word would be the third character behind its first letter. -/
theorem inert_of_plain {moduleAlias text : List Char} (hname : IsName moduleAlias)
    (closed : IsClosed text)
    (equals : '=' ∉ text) (colon : ':' ∉ text)
    (get : ∀ back ∈ after 'g' text, back[2]?.any (fun c => !isBlank c) = true) :
    Inert moduleAlias text := by
  intro part behind rest
  cases part with
  | accessor =>
    refine skips_accessor_of_gets closed (fun back hback => ?_) behind
    rintro ⟨more, same, c, hc, blank⟩
    have third := get back hback
    match back, same with
    | _ :: _ :: [], same => exact absurd third (by simp)
    | _ :: _ :: d :: _, same =>
      obtain rfl := (List.cons.inj (List.cons.inj same).2).2
      obtain rfl : d = c := Option.some.inj hc
      exact absurd third (by simp [blank])
  | statement => exact skips_construction hname closed (free_of_not_mem equals _ _) behind
  | lookup => exact skips_lookupStatement hname closed (free_of_not_mem equals _ _) behind
  | field => exact skips_fieldDeclaration hname closed (free_of_not_mem colon _ _) behind

/-- The factory of an application: the import of the core, a class that begins with its constructor,
the fields and makers of the services, and the method that hands them out. -/
def appFactory : Layout where
  header := importText "import0".toList "@angular/core"
  body :=
    [.frame "class AppModuleInjector \x7b\n  constructor(parent) \x7b super(parent); \x7d\n".toList,
    .each [.field], .each [.accessor, .statement], .frame "  getInternal(token, none) \x7b\n".toList,
    .each [.lookup], .frame "    return none;\n  \x7d\n\x7d\n".toList]

def appService (moduleAlias className specifier : String)
    (arguments : List (List Char)) (kept : Bool) (maker : Maker)
    (names : ∀ text ∈ moduleAlias.toList :: className.toList :: arguments, IsName text) :
    Service where
  moduleAlias := moduleAlias.toList
  specifier := specifier
  className := className.toList
  field := '_' :: className.toList
  arguments := arguments
  kept := kept
  maker := maker
  isName_alias := names _ (by simp)
  isName_class := names _ (by simp)
  isName_field := ⟨by simp, List.forall_mem_cons.2 ⟨by decide, (names className.toList (by simp)).2⟩⟩
  isName_arguments := fun a h => names a (by simp [h])

/-- A service with a field and a plain accessor leaves one with a longer alias and a stated type,
and one that is made at once. -/
theorem withoutController_appFactory :
    let modal := appService "import20" "Modal" "./modal" ["_App".toList] true (.accessor true) (by decide)
    let alert := appService "import2" "Alert" "./alert" ["_App".toList, "_Config".toList] true
      (.accessor false) (by decide)
    let toast := appService "import21" "Toast" "./toast" [] false .statement (by decide)
    withoutController "/app/factory.js" (appFactory.text [modal, alert, toast]) "/app/alert.js"
      = appFactory.text [modal, toast] := by
  intro modal alert toast
  have hname : IsName alert.moduleAlias := alert.isName_alias
  have core : IsName "import0".toList := by decide
  refine @withoutController_layout appFactory [modal] [toast] alert _ _ _ (by decide +kernel) (by decide) ?_
    ⟨?_, fun rest => ?_, by decide +kernel, fun text h => ?_⟩
  · refine List.forall_mem_cons.2 ⟨?_, List.forall_mem_singleton.2 ?_⟩ <;> constructor <;> decide
  · exact inert_of_plain hname (isClosed_importText core _) (by decide) (by decide) (by decide)
  · exact skips_importText core (by decide) (by decide) (by decide) (by decide) _ _
  · simp only [appFactory, List.mem_cons, Slot.frame.injEq, List.not_mem_nil,
      or_false, reduceCtorEq, false_or] at h
    rcases h with rfl | rfl | rfl <;>
      exact inert_of_plain hname (by decide +kernel) (by decide) (by decide) (by decide)

/-- A specifier is taken for a field, for the beginning of an accessor, or for an import of the
module. -/
theorem withoutController_lookalikes :
    let layout : Layout := ⟨[], [.frame "class M \x7b\n".toList, .each [.accessor, .statement],
      .each [.lookup], .frame "\x7d\n".toList]⟩
    let s := appService "a" "A" "./x" [] false .statement (by decide)
    specifierOf "/f.js" "/x.js" = s.specifier
      ∧ ∀ specifier ∈ ["./k:a.A;", "./get x()\x7b", "./import * as b from \"./x\"",
          "./import * as b from './x'"],
        let other := appService "b" "B" specifier [] false .statement (by decide)
        (other.moduleAlias ≠ s.moduleAlias ∧ other.specifier ≠ s.specifier ∧ other.className ≠ s.className)
          ∧ withoutController "/f.js" (layout.text [other, s]) "/x.js" ≠ layout.text [other] := by
  intro layout s
  have own : specifierOf "/f.js" "/x.js" = "./x" := by decide +kernel
  refine ⟨own, fun specifier h => ⟨by revert specifier; decide +kernel, fun same => ?_⟩⟩
  rw [Layout.text, withoutController_ofList, removeImport, own] at same
  have chars := String.ofList_injective same
  simp only [List.mem_cons, List.not_mem_nil, or_false] at h
  rcases h with rfl | rfl | rfl | rfl <;> exact absurd chars (by decide +kernel)

end RouteTrim.Purge
