import RouteTrim.Proofs.Purge.Stretch
import RouteTrim.Purge.Factory

/-!
# Rewriting again

A statement that a rewrite cannot find is no error for it, so a rewrite may be run on its own
result. That second run is a no-op if and only if the first one left nothing that the rewrite looks
for (`rewrite_again`). It may leave something: what is cut out of the middle of a statement can
complete that statement, a module can be imported under two aliases and a class be listed twice,
while one run takes the first of them (`rewrite_again_differs`). Every run that changes a text
shortens it, so running on ends where nothing is left to be found.
-/

set_option autoImplicit false

namespace RouteTrim.Purge

open Pattern
open RouteTrim.Path (WorkingFolder)
open RouteTrim.Text (isBlank)
open RouteTrim.Settings (BuildConfig)

/-! ## What the rewrites look for -/

/-- A stretch of a text that has a form, behind nothing that it would continue as a name. -/
def Holds (form : List Char → Prop) (text : List Char) : Prop :=
  ∃ front stretch back, text = front ++ stretch ++ back
    ∧ (∀ c ∈ front.getLast?, continuesName c = false) ∧ form stretch

/-- A statement such as `import { A, B } from './x'`. -/
def IsNamedStatement (keyword specifier : String) (stretch : List Char) : Prop :=
  ∃ gap names gap' gap'' quote,
    stretch = keyword.toList ++ gap ++ ['\x7b'] ++ names ++ ['\x7d'] ++ gap' ++ "from".toList
      ++ gap'' ++ (quote :: specifier.toList ++ [quote])
    ∧ (∀ c ∈ gap, isBlank c = true) ∧ (∀ c ∈ names, c ≠ '\x7b' ∧ c ≠ '\x7d')
    ∧ (∀ c ∈ gap', isBlank c = true) ∧ (∀ c ∈ gap'', isBlank c = true)
    ∧ (quote = '\'' ∨ quote = '"')

/-- A statement such as `import * as a from './x'`. -/
def IsAliasedImport (specifier : String) (stretch : List Char) : Prop :=
  ∃ gap₁ gap₂ gap₃ moduleAlias gap₄ gap₅ quote,
    stretch = "import".toList ++ gap₁ ++ ['*'] ++ gap₂ ++ "as".toList ++ gap₃ ++ moduleAlias
      ++ gap₄ ++ "from".toList ++ gap₅ ++ (quote :: specifier.toList ++ [quote])
    ∧ (∀ c ∈ gap₁, isBlank c = true) ∧ (∀ c ∈ gap₂, isBlank c = true)
    ∧ (gap₃ ≠ [] ∧ ∀ c ∈ gap₃, isBlank c = true)
    ∧ (moduleAlias ≠ [] ∧ ∀ c ∈ moduleAlias, isNameChar c = true)
    ∧ (gap₄ ≠ [] ∧ ∀ c ∈ gap₄, isBlank c = true) ∧ (∀ c ∈ gap₅, isBlank c = true)
    ∧ (quote = '\'' ∨ quote = '"')

/-- A class with a comma behind it. -/
def IsListing (className : String) (stretch : List Char) : Prop :=
  ∃ gap, stretch = className.toList ++ gap ++ [','] ∧ ∀ c ∈ gap, isBlank c = true

/-- A pattern occurs where a text holds its form, if each stretch that it stands for has the form
and starts a name. -/
theorem occurs_iff_holds {pattern : Pattern} {form : List Char → Prop}
    (h : ∀ behind stretch, pattern.Describes behind stretch ↔
      (∀ c ∈ behind.head?, continuesName c = false) ∧ form stretch) (text : List Char) :
    pattern.Occurs text ↔ Holds form text := by
  refine exists_congr fun front => exists_congr fun stretch => exists_congr fun back =>
    and_congr_right fun _ => ?_
  rw [h, List.head?_append]
  simp [Place.start]

/-- A named statement up to the quote that closes it. -/
def namedHead (keyword specifier : String) : Pattern :=
  nameStart ++ literal keyword ++ blanks ++ literal "\x7b"
    ++ many (fun c => c != '\x7b' && c != '\x7d') ++ literal "\x7d"
    ++ blanks ++ literal "from" ++ blanks ++ inQuotes specifier

theorem describes_namedHead {keyword specifier : String} {behind stretch : List Char} :
    (namedHead keyword specifier).Describes behind stretch ↔
      (∀ c ∈ behind.head?, continuesName c = false)
          ∧ IsNamedStatement keyword specifier stretch := by
  constructor
  · -- Part after part is taken off from the back.
    rintro ⟨s, quoted, ⟨s, gap'', ⟨s, from', ⟨s, gap', ⟨s, close, ⟨s, names, ⟨s, opening,
      ⟨s, gap, ⟨s, word, ⟨rfl, hstart⟩, hword, rfl⟩, hgap, rfl⟩, hopening, rfl⟩, hnames, rfl⟩,
      hclose, rfl⟩, hgap', rfl⟩, hfrom, rfl⟩, hgap'', rfl⟩, hquoted, rfl⟩
    obtain rfl := describes_literal.1 hword
    obtain rfl := describes_literal.1 hopening
    obtain rfl := describes_literal.1 hclose
    obtain rfl := describes_literal.1 hfrom
    obtain ⟨quote, hquote, rfl⟩ := describes_inQuotes.1 hquoted
    have hnames' : ∀ c ∈ names, c ≠ '\x7b' ∧ c ≠ '\x7d' := by simpa using hnames
    exact ⟨hstart, gap, names, gap', gap'', quote, rfl, hgap, hnames', hgap', hgap'', hquote⟩
  · rintro ⟨hstart, gap, names, gap', gap'', quote, rfl, hgap, hnames, hgap', hgap'', hquote⟩
    refine ⟨_, _, ⟨_, _, ⟨_, _, ⟨_, _, ⟨_, _, ⟨_, _, ⟨_, _, ⟨_, _, ⟨_, _, ⟨rfl, hstart⟩,
      describes_literal.2 rfl, rfl⟩, hgap, rfl⟩, describes_literal.2 rfl, rfl⟩, ?_, rfl⟩,
      describes_literal.2 rfl, rfl⟩, hgap', rfl⟩, describes_literal.2 rfl, rfl⟩, hgap'', rfl⟩,
      describes_inQuotes.2 ⟨quote, hquote, rfl⟩, rfl⟩
    simpa using hnames

theorem namedStatement_eq (keyword specifier : String) :
    namedStatement keyword specifier = namedHead keyword specifier ++ statementEnd :=
  rfl

theorem occurs_namedStatement {keyword specifier : String} {text : List Char} :
    (namedStatement keyword specifier).Occurs text ↔
      Holds (IsNamedStatement keyword specifier) text := by
  rw [namedStatement_eq, occurs_append_iff describes_statementEnd_nil]
  exact occurs_iff_holds (fun _ _ => describes_namedHead) text

/-- An aliased import up to the quote that closes it. -/
def aliasedHead (specifier : String) : Pattern :=
  importHead ++ name ++ (someBlanks ++ literal "from" ++ blanks ++ inQuotes specifier)

theorem describes_aliasedHead {specifier : String} {behind stretch : List Char} :
    (aliasedHead specifier).Describes behind stretch ↔
      (∀ c ∈ behind.head?, continuesName c = false) ∧ IsAliasedImport specifier stretch := by
  constructor
  · rintro ⟨_, _, ⟨_, moduleAlias, ⟨s, gap₃, ⟨s, as', ⟨s, gap₂, ⟨s, star, ⟨s, gap₁,
      ⟨s, word, ⟨rfl, hstart⟩, hword, rfl⟩, hgap₁, rfl⟩, hstar, rfl⟩, hgap₂, rfl⟩, has, rfl⟩,
      hgap₃, rfl⟩, halias, rfl⟩,
      ⟨s, quoted, ⟨s, gap₅, ⟨gap₄, from', hgap₄, hfrom, rfl⟩, hgap₅, rfl⟩, hquoted, rfl⟩, rfl⟩
    obtain rfl := describes_literal.1 hword
    obtain rfl := describes_literal.1 hstar
    obtain rfl := describes_literal.1 has
    obtain rfl := describes_literal.1 hfrom
    obtain ⟨quote, hquote, rfl⟩ := describes_inQuotes.1 hquoted
    exact ⟨hstart, gap₁, gap₂, gap₃, moduleAlias, gap₄, gap₅, quote, by simp, hgap₁, hgap₂,
      describes_oneOrMore.1 hgap₃, describes_oneOrMore.1 halias, describes_oneOrMore.1 hgap₄,
      hgap₅, hquote⟩
  · rintro ⟨hstart, gap₁, gap₂, gap₃, moduleAlias, gap₄, gap₅, quote, rfl, hgap₁, hgap₂, hgap₃,
      halias, hgap₄, hgap₅, hquote⟩
    exact ⟨_, _, ⟨_, _, ⟨_, _, ⟨_, _, ⟨_, _, ⟨_, _, ⟨_, _, ⟨_, _, ⟨rfl, hstart⟩,
      describes_literal.2 rfl, rfl⟩, hgap₁, rfl⟩, describes_literal.2 rfl, rfl⟩, hgap₂, rfl⟩,
      describes_literal.2 rfl, rfl⟩, describes_oneOrMore.2 hgap₃, rfl⟩,
      describes_oneOrMore.2 halias, rfl⟩,
      ⟨_, _, ⟨_, _, ⟨_, _, describes_oneOrMore.2 hgap₄, describes_literal.2 rfl, rfl⟩, hgap₅, rfl⟩,
        describes_inQuotes.2 ⟨quote, hquote, rfl⟩, rfl⟩, by simp⟩

theorem describes_aliasedImport {specifier : String} {behind stretch : List Char} :
    (aliasedImport specifier).Describes behind stretch ↔
      (aliasedHead specifier ++ statementEnd).Describes behind stretch :=
  describes_append_assoc

theorem occurs_aliasedImport {specifier : String} {text : List Char} :
    (aliasedImport specifier).Occurs text ↔ Holds (IsAliasedImport specifier) text := by
  have regrouped : (aliasedImport specifier).Occurs text
      ↔ (aliasedHead specifier ++ statementEnd).Occurs text :=
    exists_congr fun _ => exists_congr fun _ => exists_congr fun _ =>
      and_congr_right fun _ => describes_aliasedImport
  rw [regrouped, occurs_append_iff describes_statementEnd_nil]
  exact occurs_iff_holds (fun _ _ => describes_aliasedHead) text

theorem occurs_listedClass {className : String} {text : List Char} :
    (listedClass className).Occurs text ↔ Holds (IsListing className) text := by
  rw [listedClass, occurs_append_iff fun _ => by simp]
  refine occurs_iff_holds (fun behind stretch => ?_) text
  constructor
  · rintro ⟨s, comma, ⟨s, gap, ⟨s, word, ⟨rfl, hstart⟩, hword, rfl⟩, hgap, rfl⟩, hcomma, rfl⟩
    obtain rfl := describes_literal.1 hword
    obtain rfl := describes_literal.1 hcomma
    exact ⟨hstart, gap, rfl, hgap⟩
  · rintro ⟨hstart, gap, rfl, hgap⟩
    exact ⟨_, _, ⟨_, _, ⟨_, _, ⟨rfl, hstart⟩, describes_literal.2 rfl, rfl⟩, hgap, rfl⟩,
      describes_literal.2 rfl, rfl⟩

theorem isSolid_namedStatement (keyword specifier : String) :
    (namedStatement keyword specifier).IsSolid :=
  ((isSolid_inQuotes specifier).append_right _).append_left _

theorem isSolid_aliasedImport (specifier : String) : (aliasedImport specifier).IsSolid :=
  ((isSolid_oneOrMore isNameChar).append_right _).append_left _

theorem isSolid_listedClass (className : String) : (listedClass className).IsSolid :=
  ((isSolid_literal (by decide)).append_right _).append_left _

/-! ## One run -/

/-- What a rewrite leaves of a text: a part of it, and the text as it stands if and only if nothing
that the rewrite looks for was found. -/
structure Leaves (found : Prop) (content result : String) : Prop where
  sublist : result.toList.Sublist content.toList
  eq_iff : result = content ↔ ¬ found

theorem leaves_withoutModules [WorkingFolder] (barrel content : String) (modules : List String) :
    Leaves (∃ module ∈ modules, ∃ keyword ∈ ["import", "export"],
        Holds (IsNamedStatement keyword (specifierOf barrel module)) content.toList)
      content (withoutModules barrel content modules) := by
  -- The two nested loops are one over all the patterns.
  let patterns := modules.flatMap fun module =>
    ["import", "export"].map fun keyword => namedStatement keyword (specifierOf barrel module)
  have hresult : (withoutModules barrel content modules).toList =
      patterns.foldl (fun text pattern => pattern.removeAll text) content.toList := by
    rw [withoutModules, String.toList_ofList, List.foldl_flatMap]
    simp only [List.foldl_map]
    rfl
  have hsolid : ∀ p ∈ patterns, p.IsSolid := by
    intro p hp
    obtain ⟨module, -, hp⟩ := List.mem_flatMap.1 hp
    obtain ⟨keyword, -, rfl⟩ := List.mem_map.1 hp
    exact isSolid_namedStatement keyword _
  refine ⟨hresult ▸ foldl_removeAll_sublist patterns _, ?_⟩
  rw [← String.toList_inj, hresult, foldl_removeAll_eq_self hsolid]
  constructor
  · rintro h ⟨module, hmodule, keyword, hkeyword, hholds⟩
    exact h _ (List.mem_flatMap.2 ⟨module, hmodule, List.mem_map.2 ⟨keyword, hkeyword, rfl⟩⟩)
      (occurs_namedStatement.2 hholds)
  · intro h p hp hoccurs
    obtain ⟨module, hmodule, hp⟩ := List.mem_flatMap.1 hp
    obtain ⟨keyword, hkeyword, rfl⟩ := List.mem_map.1 hp
    exact h ⟨module, hmodule, keyword, hkeyword, occurs_namedStatement.1 hoccurs⟩

theorem leaves_of_removeImport [WorkingFolder] {file module content result : String}
    {more : List Char → List Char → List Char}
    (hmore : ∀ moduleAlias rest, (more moduleAlias rest).Sublist rest)
    (hresult : result = match removeImport file module content.toList with
      | some (rest, moduleAlias) => String.ofList (more moduleAlias rest)
      | none => content) :
    Leaves (Holds (IsAliasedImport (specifierOf file module)) content.toList) content result := by
  have hsolid := isSolid_aliasedImport (specifierOf file module)
  rw [← occurs_aliasedImport]
  rw [removeImport] at hresult
  cases hfind : (aliasedImport (specifierOf file module)).find? content.toList with
  | none =>
    rw [hfind] at hresult
    subst hresult
    exact ⟨List.Sublist.refl _, iff_of_true rfl ((hsolid.find?_eq_none _).1 hfind)⟩
  | some found =>
    rw [hfind] at hresult
    obtain ⟨hoccurs, hsub, shorter⟩ := hsolid.of_find?_eq_some hfind
    have hsub' := hmore (aliasAt found.1) (found.1.behind.reverse ++ found.2.ahead)
    have hchars : result.toList = _ := congrArg String.toList hresult |>.trans String.toList_ofList
    refine ⟨hchars ▸ hsub'.trans hsub, iff_of_false (fun heq => ?_) (not_not_intro hoccurs)⟩
    have hle := hsub'.length_le
    rw [← hchars, heq] at hle
    omega

theorem leaves_withoutComponentFactory [WorkingFolder] (file content module : String) :
    Leaves (Holds (IsAliasedImport (specifierOf file module)) content.toList)
      content (withoutComponentFactory file content module) :=
  leaves_of_removeImport (fun _ _ => foldl_removeAll_sublist _ _) rfl

theorem leaves_withoutController [WorkingFolder] (file content module : String) :
    Leaves (Holds (IsAliasedImport (specifierOf file module)) content.toList)
      content (withoutController file content module) :=
  leaves_of_removeImport (fun _ _ => foldl_removeAll_sublist _ _) rfl

theorem leaves_withoutClass (content className : String) (config : BuildConfig) :
    Leaves (∃ anchor, Text.indexOf? config.frameworkRootMethod.toList content.toList = some anchor
        ∧ Holds (IsListing className) (content.toList.drop anchor))
      content (withoutClass content className config) := by
  have hsolid := isSolid_listedClass className
  rw [withoutClass]
  cases hanchor : Text.indexOf? config.frameworkRootMethod.toList content.toList with
  | none => exact ⟨List.Sublist.refl _, iff_of_true rfl (by simp)⟩
  | some anchor =>
    have cut : content.toList.take anchor ++ content.toList.drop anchor = content.toList :=
      List.take_append_drop anchor _
    constructor
    · rw [String.toList_ofList]
      have hsub := (hsolid.removeFirst_sublist (content.toList.drop anchor)).append_left
        (content.toList.take anchor)
      rwa [cut] at hsub
    · have same : String.ofList (content.toList.take anchor
            ++ (listedClass className).removeFirst (content.toList.drop anchor)) = content ↔
          (listedClass className).removeFirst (content.toList.drop anchor)
            = content.toList.drop anchor := by
        conv => lhs; rw [← String.toList_inj, String.toList_ofList]; rhs; rw [← cut]
        exact List.append_cancel_left_eq .. |>.to_iff
      rw [same, hsolid.removeFirst_eq_self, occurs_listedClass]
      simp

/-- A rewrite of the framework's barrel or of the compiled root factory, and what it removes. -/
inductive Rewrite where
  | statements (barrel : String) (modules : List String)
  | componentFactory (file module : String)
  | controller (file module : String)
  | listing (className : String) (config : BuildConfig)

namespace Rewrite

/-- The text that a rewrite leaves of a text. -/
def apply [WorkingFolder] : Rewrite → String → String
  | statements barrel modules, content => withoutModules barrel content modules
  | componentFactory file module, content => withoutComponentFactory file content module
  | controller file module, content => withoutController file content module
  | listing className config, content => withoutClass content className config

/-- A text holds what a rewrite looks for: a statement of one of the modules, an import of the
module, or the class somewhere behind the root method. -/
def Finds [WorkingFolder] : Rewrite → String → Prop
  | statements barrel modules, content =>
    ∃ module ∈ modules, ∃ keyword ∈ ["import", "export"],
      Holds (IsNamedStatement keyword (specifierOf barrel module)) content.toList
  | componentFactory file module, content | controller file module, content =>
    Holds (IsAliasedImport (specifierOf file module)) content.toList
  | listing className config, content =>
    ∃ anchor, Text.indexOf? config.frameworkRootMethod.toList content.toList = some anchor
      ∧ Holds (IsListing className) (content.toList.drop anchor)

theorem leaves [WorkingFolder] (r : Rewrite) (content : String) :
    Leaves (r.Finds content) content (r.apply content) := by
  cases r with
  | statements barrel modules => exact leaves_withoutModules barrel content modules
  | componentFactory file module => exact leaves_withoutComponentFactory file content module
  | controller file module => exact leaves_withoutController file content module
  | listing className config => exact leaves_withoutClass content className config

/-- A run that finds something shortens the text. -/
theorem length_apply_lt [WorkingFolder] {r : Rewrite} {content : String} (h : r.Finds content) :
    (r.apply content).length < content.length := by
  have hsub := (r.leaves content).sublist
  have hle := hsub.length_le
  have hne : (r.apply content).toList.length ≠ content.toList.length := fun heq =>
    (r.leaves content).eq_iff.1 (String.toList_inj.1 (hsub.eq_of_length heq)) h
  rw [String.length_toList, String.length_toList] at hle hne
  omega

/-! ## Run after run -/

/-- The text that is left after a number of runs. -/
def repeated [WorkingFolder] (r : Rewrite) : Nat → String → String
  | 0, content => content
  | runs + 1, content => r.repeated runs (r.apply content)

/-- Where nothing is found, no number of runs changes anything. -/
theorem repeated_eq_self [WorkingFolder] {r : Rewrite} {content : String} (h : ¬ r.Finds content)
    (runs : Nat) :
    r.repeated runs content = content := by
  induction runs with
  | zero => rfl
  | succ runs ih => rw [repeated, (r.leaves content).eq_iff.2 h, ih]

theorem repeated_add [WorkingFolder] (r : Rewrite) (runs more : Nat) (content : String) :
    r.repeated (runs + more) content = r.repeated more (r.repeated runs content) := by
  induction runs generalizing content with
  | zero => rw [Nat.zero_add]; rfl
  | succ runs ih => rw [Nat.succ_add]; exact ih (r.apply content)

/-- At most as many runs as there are characters leave nothing to be found. -/
theorem exists_repeated_not_finds [WorkingFolder] (r : Rewrite) (content : String) :
    ∃ runs ≤ content.length, ¬ r.Finds (r.repeated runs content) := by
  by_cases h : r.Finds content
  · have shorter := length_apply_lt h
    obtain ⟨runs, hruns, hnot⟩ := exists_repeated_not_finds r (r.apply content)
    exact ⟨runs + 1, by omega, hnot⟩
  · exact ⟨0, Nat.zero_le _, h⟩
termination_by content.length

end Rewrite

/-- A second run of a rewrite changes nothing if and only if the first one left nothing that the
rewrite looks for; and running on ends, within as many runs as the text has characters, in a text
that holds nothing of it and that no further run changes. -/
theorem rewrite_again [WorkingFolder] (r : Rewrite) (content : String) :
    (r.apply (r.apply content) = r.apply content ↔ ¬ r.Finds (r.apply content))
      ∧ ∃ runs ≤ content.length, ¬ r.Finds (r.repeated runs content)
        ∧ ∀ more, r.repeated (runs + more) content = r.repeated runs content := by
  refine ⟨(r.leaves _).eq_iff, ?_⟩
  obtain ⟨runs, hruns, hnot⟩ := r.exists_repeated_not_finds content
  refine ⟨runs, hruns, hnot, fun more => ?_⟩
  rw [Rewrite.repeated_add, Rewrite.repeated_eq_self hnot]

/-- A comment inside of a statement hides it until the statement in the comment is cut; of two
imports of a module and of two listings of a class one run takes one. -/
theorem rewrite_again_differs :
    let again (r : Rewrite) (content : String) := r.apply (r.apply content)
    let once (r : Rewrite) (content : String) := r.apply content
    let imports := "import * as a from './x';\nimport * as b from './x';\n"
    let barrel := Rewrite.statements "/app/index.js" ["/app/x.js"]
    let nested := "import \x7b A, /* import \x7b B \x7d from './x'; */ C \x7d from './x';\n"
    (once barrel nested = "import \x7b A, /* */ C \x7d from './x';\n" ∧ again barrel nested = "")
      ∧ (∀ r ∈ [Rewrite.componentFactory "/app/f.js" "/app/x.js",
          Rewrite.controller "/app/f.js" "/app/x.js"],
        once r imports = "import * as b from './x';\n" ∧ again r imports = "")
      ∧ ∀ config : BuildConfig, config.frameworkRootMethod = "forRoot" →
        once (.listing "Alert" config) "forRoot(Alert, App, Alert, Toast)"
            = "forRoot(App, Alert, Toast)"
          ∧ again (.listing "Alert" config) "forRoot(Alert, App, Alert, Toast)"
            = "forRoot(App, Toast)" := by
  refine ⟨by decide +kernel, by decide +kernel, fun config hconfig => ?_⟩
  simp only [Rewrite.apply, withoutClass, hconfig]
  decide +kernel

end RouteTrim.Purge
