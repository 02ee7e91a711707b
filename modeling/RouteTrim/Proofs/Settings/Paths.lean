import RouteTrim.Proofs.Path.Placed
import RouteTrim.Proofs.Settings.Build
import RouteTrim.Settings.Service
import RouteTrim.Yaml.Meaning

/-!
# The paths of a build configuration

The files of a project are looked up in graphs and stores by paths that a build configuration gives,
so these must be placed (`IsPlaced`). A setting is brought under the root directory in its normal
spelling, if it is given at all: an empty one stays as it is, and where a path is put together from
it, that path has no root either (`isPlaced_entryPoint_iff`). The files of a service are put
together from its name and are never brought to the normal spelling, so they have it only if the
name leads straight on (`IsStraight`, `hasPlaces_ofNames_iff`).

`isPlaced_buildConfig` says for each path of every configuration that is made under an absolute root
whether it is placed; `buildConfig_misplaces` shows some that are not.
-/

set_option autoImplicit false

namespace RouteTrim.Settings

open RouteTrim.Path
open RouteTrim.Text (backslash split)

theorem isPlaced_resolvePath_iff {rootDir : String} (absolute : isAbsolute rootDir = true)
    (value : Value) : IsPlaced (resolvePath rootDir value) ↔ value.isTruthy = true := by
  unfold resolvePath
  split
  · next given =>
    refine iff_of_true ?_ given
    dsimp only
    split
    · next rooted =>
      have placed := isPlaced_normalize rooted
      rwa [normalize_normalize] at placed
    · have filled : rootDir ≠ "" := fun empty => absurd absolute (by rw [empty]; decide)
      exact isPlaced_normalize ((isAbsolute_join_iff filled).2 (.inr absolute))
  · next absent => exact iff_of_false (by decide) absent

theorem resolvePath_absent {rootDir : String} {value : Value} (absent : ¬ value.isTruthy = true) :
    resolvePath rootDir value = "" :=
  if_neg absent

/-- The barrel is in the folder of the framework unless it has a place of its own. -/
theorem isPlaced_entryPoint_iff {rootDir : String} (absolute : isAbsolute rootDir = true)
    (entryPoint framework : Value) :
    IsPlaced (if (resolvePath rootDir entryPoint).isEmpty
        then join (resolvePath rootDir framework) "index.js" else resolvePath rootDir entryPoint) ↔
      entryPoint.isTruthy = true ∨ framework.isTruthy = true := by
  by_cases own : entryPoint.isTruthy = true
  · have placed := (isPlaced_resolvePath_iff absolute entryPoint).2 own
    rw [if_neg (by simpa using placed.filled)]
    exact iff_of_true placed (.inl own)
  · rw [resolvePath_absent own, if_pos (by decide), or_iff_right own]
    by_cases given : framework.isTruthy = true
    · have placed := (isPlaced_resolvePath_iff absolute framework).2 given
      exact iff_of_true ((isPlaced_join_iff placed (by decide) (by decide)).2 (by decide)) given
    · rw [resolvePath_absent given]
      exact iff_of_false (by decide) given

/-! ## The files of a service -/

/-- What makes the name of a file of anything that it is put behind. -/
structure IsEnding (ending : List Char) : Prop where
  long : 2 < ending.length
  slashless : '/' ∉ ending
  plain : backslash ∉ ending

instance (ending : List Char) : Decidable (IsEnding ending) :=
  decidable_of_iff (2 < ending.length ∧ '/' ∉ ending ∧ backslash ∉ ending)
    ⟨fun h => ⟨h.1, h.2.1, h.2.2⟩, fun h => ⟨h.long, h.slashless, h.plain⟩⟩

theorem IsEnding.ne_nil {ending : List Char} (h : IsEnding ending) : ending ≠ [] :=
  List.ne_nil_of_length_pos (Nat.zero_lt_of_lt h.long)

theorem IsEnding.head?_append {ending rest : List Char} (h : IsEnding ending)
    (head : rest.head? ≠ some '/') : (rest ++ ending).head? ≠ some '/' := by
  cases rest with
  | nil => exact fun slash => h.slashless (List.mem_of_head? slash)
  | cons c rest => exact head

theorem IsEnding.isPlain_append_iff {ending last : List Char} (h : IsEnding ending)
    (slashless : '/' ∉ last) : IsPlain (last ++ ending) ↔ backslash ∉ last := by
  have long : ∀ s : Segment, s.length ≤ 2 → last ++ ending ≠ s := by
    rintro s short rfl
    have := h.long
    simp at short
    omega
  have isName : IsName (last ++ ending) :=
    ⟨⟨long [] (by decide), long here (by decide), by simp [slashless, h.slashless]⟩,
      long up (by decide)⟩
  simp [IsPlain, isName, h.plain]

/-- A name leads straight on: there are plain names between its slashes. Nothing needs to stand
behind the last slash; behind the slashes of a root anything may, as the file's name goes on
there. -/
def IsStraight (name : String) : Prop :=
  ∃ anchor rest front last, name.toList = Anchor.text anchor ++ rest ∧ rest.head? ≠ some '/' ∧
    split '/' rest = front ++ [last] ∧ (∀ s ∈ front, IsPlain s) ∧ backslash ∉ last ∧
    (anchor = .relative → last = [] ∨ IsName last)

/-- The file of a service in the folder of the framework's components. -/
def servicePath (components name ending : String) : String :=
  join (join components name) (name ++ ending)

section

variable {components name ending : String}

/-- A straight name behind the slashes of a root, or behind none, is told by its own parts. -/
theorem isStraight_iff {anchor : Anchor} {rest : List Char} {front : List Segment} {last : Segment}
    (spelled : name.toList = anchor.text ++ rest) (head : rest.head? ≠ some '/')
    (parts : split '/' rest = front ++ [last]) : IsStraight name ↔
      (∀ s ∈ front, IsPlain s) ∧ backslash ∉ last
          ∧ (anchor = .relative → last = [] ∨ IsName last) := by
  constructor
  · rintro ⟨other, others, before, final, same, otherHead, hsplit, hbefore, hfinal, hrelative⟩
    have anchored : other = anchor := by
      rw [← ofPath_text_append other otherHead, ← same, spelled, ofPath_text_append anchor head]
    subst anchored
    obtain rfl : rest = others := List.append_cancel_left (spelled.symm.trans same)
    obtain ⟨rfl, ends⟩ := List.append_inj' (parts.symm.trans hsplit) rfl
    obtain ⟨rfl, -⟩ := List.cons.inj ends
    exact ⟨hbefore, hfinal, hrelative⟩
  · rintro ⟨hfront, hlast, hrelative⟩
    exact ⟨anchor, rest, front, last, spelled, head, parts, hfront, hlast, hrelative⟩

theorem isPlaced_servicePath_rooted (rooted : isAbsolute name = true) (h : IsEnding ending.toList) :
    IsPlaced (servicePath components name ending) ↔ IsStraight name := by
  have head : name.toList.head? = some '/' := beq_iff_eq.1 rooted
  have filled : name.toList ≠ [] := fun empty => by simp [empty] at head
  have spelled : (servicePath components name ending).toList = name.toList ++ ending.toList := by
    have continued : (name.toList ++ ending.toList).head? = some '/' := by
      rwa [List.head?_append_of_ne_nil _ filled]
    rw [servicePath, join, String.toList_ofList, String.toList_append, joinChars_rooted _ continued]
  constructor
  · intro placed
    obtain ⟨anchor, names, away, plain, same⟩ := isPlaced_iff.1 placed
    have steps : ∀ s ∈ names, IsStep s := fun s hs => (plain s hs).1.1
    obtain ⟨rest, hname, hrest⟩ : ∃ rest, name.toList = anchor.text ++ rest ∧
        Text.joinWith ['/'] names = rest ++ ending.toList := by
      rcases List.append_eq_append_iff.1 (spelled.symm.trans same) with
        ⟨slashes, hanchor, hending⟩ | found
      · cases slashes with
        | nil => exact ⟨[], by simpa using hanchor.symm, by simpa using hending.symm⟩
        | cons c slashes =>
          have slash : c = '/' := Anchor.eq_slash (show c ∈ anchor.text by rw [hanchor]; simp)
          exact absurd (by rw [hending, slash]; simp) h.slashless
      · exact found
    have below : rest.head? ≠ some '/' := by
      have inner := head_joinWith steps
      rw [hrest] at inner
      cases rest with
      | nil => simp
      | cons c rest => exact inner
    obtain ⟨front, last, parts, slashless⟩ := Text.exists_split '/' rest
    have whole : names = front ++ [last ++ ending.toList] := by
      have ne : names ≠ [] := by
        rintro rfl
        exact h.ne_nil (List.append_eq_nil_iff.1 hrest.symm).2
      rw [← Text.split_joinWith ne fun s hs => (steps s hs).2.2, hrest,
        Text.split_append_of_split parts, Text.split_of_not_mem (by simp [slashless, h.slashless])]
    rw [whole, List.forall_mem_append, List.forall_mem_singleton,
      h.isPlain_append_iff slashless] at plain
    exact (isStraight_iff hname below parts).2 ⟨plain.1, plain.2,
      fun relative => absurd relative away⟩
  · rintro ⟨anchor, rest, front, last, same, below, parts, hfront, hlast, -⟩
    have away : anchor ≠ .relative := by
      rw [isAbsolute_iff, same, ofPath_text_append anchor below] at rooted
      exact rooted
    have slashless : '/' ∉ last := Text.not_mem_of_mem_split (s := rest) (by rw [parts]; simp)
    rw [same, List.append_assoc] at spelled
    rw [isPlaced_rooted_iff away spelled (by simp [h.ne_nil]) (h.head?_append below),
      Text.split_append_of_split parts, Text.split_of_not_mem (by simp [slashless, h.slashless]),
      List.forall_mem_append, List.forall_mem_singleton, h.isPlain_append_iff slashless]
    exact ⟨hfront, hlast⟩

/-- Any other name leads to a file below the components. -/
theorem isPlaced_servicePath_relative (placed : IsPlaced components) (named : name ≠ "")
    (relative : isAbsolute name = false) (h : IsEnding ending.toList) :
    IsPlaced (servicePath components name ending) ↔ IsStraight name := by
  have filled : name.toList ≠ [] := fun empty => named (String.toList_injective empty)
  have head : name.toList.head? ≠ some '/' := fun slash => by
    rw [isAbsolute, slash] at relative
    exact absurd relative (by decide)
  have continued : (name ++ ending).toList.head? ≠ some '/' := by
    rwa [String.toList_append, List.head?_append_of_ne_nil _ filled]
  have below : servicePath components name ending
      = join components (String.ofList (joinChars name.toList (name ++ ending).toList)) := by
    refine String.toList_injective ?_
    simp only [servicePath, join, String.toList_ofList]
    exact joinChars_assoc _ filled continued
  obtain ⟨front, last, parts, slashless⟩ := Text.exists_split '/' name.toList
  have file : split '/' (name ++ ending).toList = front ++ [last ++ ending.toList] := by
    rw [String.toList_append, Text.split_append_of_split parts,
      Text.split_of_not_mem (by simp [slashless, h.slashless])]
  have whole : split '/' (joinChars name.toList (name ++ ending).toList)
      = (if last = [] then front else front ++ [last]) ++ (front ++ [last ++ ending.toList]) := by
    rw [joinChars_relative _ continued, opened]
    by_cases bare : last = []
    · have slash := (Text.getLast?_eq_separator_iff filled parts).2 bare
      rw [if_pos (by simp [slash]), if_pos bare, Text.split_append_of_split parts,
        bare, List.nil_append, file, bare]
    · have slash := mt (Text.getLast?_eq_separator_iff filled parts).1 bare
      rw [if_neg (by simp [slash, filled]), if_neg bare, List.append_assoc, List.singleton_append,
        Text.split_append, parts, file]
  rw [below, isPlaced_join_iff placed, String.toList_ofList, whole,
    isStraight_iff (show name.toList = Anchor.text .relative ++ name.toList from rfl) head parts]
  · rw [List.forall_mem_append, List.forall_mem_append, List.forall_mem_singleton,
      h.isPlain_append_iff slashless]
    by_cases bare : last = []
    · simp [bare]
    · rw [if_neg bare, List.forall_mem_append, List.forall_mem_singleton]
      simp only [IsPlain, bare, false_or, forall_const]
      tauto
  · intro empty
    have opened := (String.ofList_eq_empty_iff.1 empty)
    rw [joinChars_relative _ continued] at opened
    simp [filled] at opened
  · rwa [String.toList_ofList, joinChars_relative _ continued, head?_opened filled]

end

theorem readProvider_eq_ok {frameworkDir : String} {entry : Value} {provider : Provider}
    (h : readProvider frameworkDir entry = .ok provider) : ∃ name className,
      name ≠ "" ∧ provider = .ofNames frameworkDir name className := by
  unfold readProvider at h
  dsimp only at h
  split at h
  all_goals
    dsimp only at h
    split at h
    · exact absurd h (by simp)
    · next named =>
      rw [Bool.not_eq_true, Bool.or_eq_false_iff] at named
      exact ⟨_, _, by simpa using named.1, (Except.ok.inj h).symm⟩

/-- Whether a service has all its files where they can be found. -/
def HasPlaces (provider : Provider) : Prop :=
  IsPlaced provider.controllerPath ∧ IsPlaced provider.componentPath ∧
    IsPlaced provider.componentFactoryPath

/-- The files of a service can be found if and only if its name leads straight on, from a root or
from the folder of a framework. -/
theorem hasPlaces_ofNames_iff {frameworkDir name className : String} (named : name ≠ "")
    (placed : IsPlaced frameworkDir ∨ frameworkDir = "") :
    HasPlaces (.ofNames frameworkDir name className) ↔
      IsStraight name ∧ (isAbsolute name = true ∨ IsPlaced frameworkDir) := by
  have file {ending : String} (h : IsEnding ending.toList) :
      IsPlaced (servicePath (join frameworkDir "components") name ending) ↔
        IsStraight name ∧ (isAbsolute name = true ∨ IsPlaced frameworkDir) := by
    by_cases rooted : isAbsolute name = true
    · rw [isPlaced_servicePath_rooted rooted h]
      simp [rooted]
    · rcases placed with placed | rfl
      · have components : IsPlaced (join frameworkDir "components") :=
          (isPlaced_join_iff placed (by decide) (by decide)).2 (by decide)
        rw [isPlaced_servicePath_relative components named (by simpa using rooted) h]
        simp [placed]
      · have bare : ¬ isAbsolute (servicePath (join "" "components") name ending) = true := by
          have continued : isAbsolute (name ++ ending) = isAbsolute name := by
            have filled : name.toList ≠ [] := fun empty => named (String.toList_injective empty)
            rw [isAbsolute, String.toList_append,
              List.head?_append_of_ne_nil _ filled, ← isAbsolute]
          rw [servicePath, isAbsolute_join_iff (join_ne_empty (by decide) _),
            isAbsolute_join_iff (by decide), continued]
          simp [rooted, (by decide : isAbsolute (join "" "components") = false)]
        exact iff_of_false (fun found => bare found.absolute)
          (by simp [rooted, (by decide : ¬ IsPlaced "")])
  rw [HasPlaces]
  have controller : (Provider.ofNames frameworkDir name className).controllerPath
    = servicePath (join frameworkDir "components") name "-controller.js" := rfl
  have component : (Provider.ofNames frameworkDir name className).componentPath
    = servicePath (join frameworkDir "components") name "-component.js" := rfl
  have factory : (Provider.ofNames frameworkDir name className).componentFactoryPath
    = servicePath (join frameworkDir "components") name "-component.ngfactory.js" := rfl
  rw [controller, component, factory, file (by decide), file (by decide),
    file (by decide), and_self, and_self]

/-! ## What is set -/

/-- **A path of a build configuration is placed if and only if its setting is given**: what is given
is brought under the root directory. The root descriptor must be given. The barrel has its place in
the folder of the framework unless it has its own. A service has its files there unless its name
starts at a root, and in either case they are placed only if the name leads straight on. -/
theorem isPlaced_buildConfig [WorkingFolder] [Yaml.Reader] {service : Service}
    {environment : Environment} {disk : Disk}
    {config : BuildConfig} (made : (service.buildConfig environment disk).result = .ok config)
    (absolute : isAbsolute config.rootDir = true) :
    ∃ settings, (service.settings false environment disk).result = .ok settings ∧
      IsPlaced config.rootDescriptorPath ∧
      (IsPlaced config.srcDir ↔ (settings.value .srcDir).isTruthy = true) ∧
      (IsPlaced config.appEntryPoint ↔ (settings.value .appEntryPoint).isTruthy = true) ∧
      (IsPlaced config.frameworkDir ↔ (settings.value .frameworkDir).isTruthy = true) ∧
      (IsPlaced config.frameworkEntryPoint ↔ (settings.value .frameworkEntryPoint).isTruthy = true ∨
        (settings.value .frameworkDir).isTruthy = true) ∧
      ∀ provider ∈ config.providers, HasPlaces provider ↔ IsStraight provider.name ∧
        (isAbsolute provider.name = true ∨ (settings.value .frameworkDir).isTruthy = true) := by
  obtain ⟨settings, inForce, built⟩ := bind_eq_ok.1 made
  obtain ⟨parts, given, entries, -, providers⟩ := exists_of_build built
  have resolved (key : Key) := isPlaced_resolvePath_iff absolute (settings.value key)
  have framework := resolved .frameworkDir
  rw [← parts.frameworkDir] at framework
  refine ⟨settings, inForce, ?_, ?_, ?_, framework, ?_, fun provider found => ?_⟩
  · rw [parts.rootDescriptorPath, resolved]
    exact given
  · rw [parts.srcDir, resolved]
  · rw [parts.appEntryPoint, resolved]
  · rw [parts.frameworkEntryPoint, parts.frameworkDir, isPlaced_entryPoint_iff absolute]
  · obtain ⟨entry, -, read⟩ := mem_of_mapM_eq_ok providers provider found
    obtain ⟨name, className, named, rfl⟩ := readProvider_eq_ok read
    have placed : IsPlaced config.frameworkDir ∨ config.frameworkDir = "" := by
      by_cases given : (settings.value .frameworkDir).isTruthy = true
      · exact .inl (framework.2 given)
      · exact .inr (parts.frameworkDir.trans (resolvePath_absent given))
    rw [hasPlaces_ofNames_iff named placed, framework]
    rfl

def appService (overrides : Layer) : Service :=
  { sources := { rootDir := some "/app", overrides } }

def ownCatalogue (name : String) : Value :=
  .list [.map [(.text "name", .text name), (.text "class_name", .text "OwnController")]]

/-- The name of a service may lead through folders. -/
theorem isPlaced_buildConfig_ownCatalogue : ∃ config,
    ((appService [(.text "providers", ownCatalogue "my/own")]).buildConfig .empty .empty).result
      = .ok config ∧ isAbsolute config.rootDir = true ∧
    IsPlaced config.rootDescriptorPath ∧ IsPlaced config.srcDir
      ∧ IsPlaced config.frameworkEntryPoint ∧
    ∃ provider ∈ config.providers, provider.name = "my/own" ∧ HasPlaces provider := by
  have evaluated :
      ((appService [(.text "providers", ownCatalogue "my/own")]).buildConfig .empty
        .empty).result.toOption.any (fun config => isAbsolute config.rootDir &&
          config.providers.any fun provider => provider.name == "my/own") = true ∧
      ((appService [(.text "providers", ownCatalogue "my/own")]).settings false .empty
        .empty).result.toOption.any (fun settings => (settings.value .srcDir).isTruthy &&
          (settings.value .frameworkDir).isTruthy) = true := by
    decide +kernel
  obtain ⟨config, found, holds⟩ := (Option.any_eq_true ..).1 evaluated.1
  rw [Bool.and_eq_true, List.any_eq_true] at holds
  obtain ⟨rooted, provider, listed, named⟩ := holds
  have made := toOption_eq_some.1 found
  obtain ⟨settings, inForce, descriptor, src, -, framework, barrel, services⟩ :=
    isPlaced_buildConfig made rooted
  have given := evaluated.2
  rw [inForce] at given
  obtain ⟨hsrc, hframework⟩ := Bool.and_eq_true_iff.1 given
  have straight : IsStraight provider.name := by
    rw [beq_iff_eq.1 named]
    have spelled : "my/own".toList = Anchor.text .relative ++ "my/own".toList := rfl
    have parts : split '/' "my/own".toList = ["my".toList] ++ ["own".toList] := by decide
    exact (isStraight_iff spelled (by decide) parts).2 (by decide)
  exact ⟨config, made, rooted, descriptor, src.2 hsrc, barrel.2 (.inr hframework), provider, listed,
    beq_iff_eq.1 named, (services provider listed).2 ⟨straight, .inr hframework⟩⟩

/-- **A setting that is not given has no place, and takes what lies below it along**, and a name
that does not lead straight on makes paths that no key is spelled like. -/
theorem buildConfig_misplaces :
    ((appService [(.text "src_dir", .text "")]).buildConfig .empty .empty).result.toOption.any
      (fun config => isAbsolute config.rootDir && config.srcDir == "") = true ∧
    ((appService [(.text "framework_dir", .text ""), (.text "providers", ownCatalogue "own")]).buildConfig
      .empty .empty).result.toOption.any (fun config => isAbsolute config.rootDir &&
        config.frameworkEntryPoint == "index.js" && config.providers.any fun provider =>
          provider.controllerPath == "components/own/own-controller.js") = true ∧
    ((appService [(.text "providers", ownCatalogue "./own")]).buildConfig .empty
      .empty).result.toOption.any (fun config => isAbsolute config.rootDir &&
        config.providers.any fun provider => provider.controllerPath
          == "/app/node_modules/ionic-angular/components/./own/./own-controller.js") = true ∧
    ¬ IsPlaced "" ∧ ¬ IsPlaced "index.js" ∧ ¬ IsPlaced "components/own/own-controller.js" ∧
    ¬ IsPlaced "/app/node_modules/ionic-angular/components/./own/./own-controller.js" := by
  refine ⟨by decide +kernel, by decide +kernel, by decide +kernel, by decide,
    by decide, by decide, ?_⟩
  decide +kernel

end RouteTrim.Settings
