import RouteTrim.Proofs.Graph.Pruning
import RouteTrim.Proofs.Purge.Reference

/-!
# A class in the list of the root method

Behind the root method the barrel lists the classes of the framework's services in brackets. A class
leaves that list with the comma behind it and the blanks around that comma, wherever the list stands
and however it is laid out (`withoutClass_nameList`). A class that ends its list without a comma
stays, since the rewrite only looks for names that a comma follows (`withoutClass_keeps_last`).
-/

set_option autoImplicit false

namespace RouteTrim.Purge

open Pattern
open RouteTrim.Text (isBlank)
open RouteTrim.Settings (BuildConfig)
open RouteTrim.ImportGraph (sampleConfig)

/-! ## Lists of names -/

/-- A name in a list and the blanks behind it. -/
structure ListName where
  name : List Char
  gap : List Char
  isName : IsName name
  isGap : IsGap gap

/-- The text of a name and of the blanks behind it. -/
def ListName.chars (n : ListName) : List Char :=
  n.name ++ n.gap

/-- A name with the comma and the blanks that follow it. -/
def followedChars : ListName × List Char → List Char
  | (n, gap) => n.chars ++ ',' :: gap

/-- A list of names in brackets. The names that a comma follows stand apart from the last one, which
has none; a list with a trailing comma, or without any names, has no such last one. -/
structure NameList where
  opening : List Char
  followed : List (ListName × List Char)
  last? : Option ListName
  isGap_opening : IsGap opening
  isGap_followed : ∀ f ∈ followed, IsGap f.2

namespace NameList

/-- The text of the last name and of the bracket behind it. -/
def closing (list : NameList) : List Char :=
  match list.last? with
  | some n => n.chars ++ [']']
  | none => [']']

/-- The text of a list. -/
def chars (list : NameList) : List Char :=
  ('[' :: list.opening) ++ (list.followed.flatMap followedChars ++ list.closing)

/-- The names of a list, in their order. -/
def names (list : NameList) : List (List Char) :=
  list.followed.map (·.1.name) ++ (list.last?.map ListName.name).toList

/-- A list without a name that a comma follows. -/
def without (list : NameList) (word : List Char) : NameList :=
  { list with
    followed := list.followed.filter fun f => f.1.name ≠ word
    isGap_followed := fun f hf => list.isGap_followed f (List.mem_filter.1 hf).1 }

theorem names_without (list : NameList) (word : List Char) :
    (list.without word).names
      = (list.followed.map (·.1.name)).filter (· ≠ word)
          ++ (list.last?.map ListName.name).toList := by
  rw [names, without, List.filter_map]
  rfl

/-- A list without one of its distinct names has all the others, in their order, and that one only
if it is the last one, without a comma. -/
theorem names_without_eq {list : NameList} {word : List Char} (distinct : list.names.Nodup) :
    (list.without word).names
      = list.names.filter fun name => name ≠ word ∨ list.last?.map ListName.name = some word := by
  rw [names_without, names, List.filter_append]
  by_cases hlast : list.last?.map ListName.name = some word
  · have absent : word ∉ list.followed.map (·.1.name) := fun mem =>
      (List.nodup_append.1 distinct).2.2 word mem word (by simp [hlast]) rfl
    have all : ∀ name ∈ list.followed.map (·.1.name), name ≠ word := fun name h e => absent (e ▸ h)
    rw [List.filter_eq_self.2 fun name h => decide_eq_true (all name h),
      List.filter_eq_self.2 fun name h => decide_eq_true (.inl (all name h)),
      List.filter_eq_self.2 fun name h => decide_eq_true (.inr hlast)]
  · have kept : ∀ name ∈ (list.last?.map ListName.name).toList, name ≠ word := fun name h e =>
      hlast (e ▸ Option.mem_toList.1 h)
    simp only [hlast, or_false]
    rw [List.filter_eq_self.2 fun name h => decide_eq_true (kept name h)]

end NameList

/-! ## Names that are skipped or cut -/

section Listed

variable {className : String} {behind rest : List Char}

theorem skips_listedClass_of_marks (hname : IsName className.toList) {piece : List Char}
    (marks : ∀ c ∈ piece, isNameChar c = false) :
    (listedClass className).Skips behind piece rest := by
  refine skips_of_head (fun behind stretch hs => ?_) marks behind
  obtain ⟨_, _, ⟨_, _, ⟨_, _, ⟨_, _, ⟨rfl, -⟩, hword, rfl⟩, -, rfl⟩, -, rfl⟩, -, rfl⟩ := hs
  obtain rfl := describes_literal.1 hword
  obtain ⟨c, word, same⟩ := List.exists_cons_of_ne_nil hname.1
  exact ⟨c, by simp [same], hname.2 c (by simp [same])⟩

theorem ListName.skips (n : ListName) (hname : IsName className.toList) {c : Char}
    (mark : isNameChar c = false ∧ isBlank c = false)
    (other : n.name ≠ className.toList ∨ c ≠ ',') :
    (listedClass className).Skips behind n.chars (c :: rest) := by
  refine Skips.append ?_
    (skips_listedClass_of_marks hname fun c hc => isNameChar_of_isBlank (n.isGap c hc))
  rintro front back hn hback stretch more same hs
  obtain ⟨_, gap', ⟨_, _, ⟨_, gap, ⟨_, _, ⟨rfl, start⟩, hword, rfl⟩, hgap, rfl⟩,
    hcomma, rfl⟩, -, rfl⟩ := hs
  obtain rfl := describes_literal.1 hword
  obtain rfl := describes_literal.1 hcomma
  rcases front.eq_nil_or_concat with rfl | ⟨front, d, rfl⟩
  · -- The two names are the same, and so is what follows the blanks behind them.
    obtain rfl : n.name = back := hn
    have tails {text : List Char} {d : Char} {gap : List Char} (hgap : IsGap gap)
        (hd : isNameChar d = false) : ∀ e ∈ (gap ++ d :: text).head?, isNameChar e = false := by
      cases gap with
      | nil => exact fun e he => Option.some.inj he ▸ hd
      | cons e gap => exact fun f hf =>
          Option.some.inj hf ▸ isNameChar_of_isBlank (hgap e (by simp))
    have same : n.name ++ (n.gap ++ c :: rest) = className.toList ++ (gap
        ++ ',' :: (gap' ++ more)) := by
      simpa using same
    have comma : isNameChar ',' = false := by decide
    have names := congrArg firstWord same
    have behindNames := congrArg behindWord same
    rw [← List.nil_append (n.name ++ _), ← List.nil_append (className.toList ++ _),
      firstWord_append isGap_nil n.isName (tails n.isGap mark.1),
      firstWord_append isGap_nil hname (tails hgap comma)] at names
    rw [← List.nil_append (n.name ++ _), ← List.nil_append (className.toList ++ _),
      behindWord_append isGap_nil n.isName (tails n.isGap mark.1),
      behindWord_append isGap_nil hname (tails hgap comma)] at behindNames
    obtain ⟨-, rfl, -⟩ := first_unique (p := fun c => ¬ isBlank c = true)
      (fun c hc => not_not_intro (n.isGap c hc)) (fun c hc => not_not_intro (hgap c hc))
      (by simp [mark.2]) (by decide) behindNames
    exact other.elim (fun ne => ne names) fun ne => ne rfl
  · have inside : isNameChar d = true := n.isName.2 d (hn ▸ by simp)
    have outside : continuesName d = false := start d (by simp)
    exact absurd outside (by simp [continuesName, inside])

theorem ListName.cuts {n : ListName} {gap : List Char} (own : n.name = className.toList)
    (start : ∀ c ∈ behind.head?, continuesName c = false) (hgap : IsGap gap)
    (next : ∀ c ∈ rest.head?, isBlank c = false) :
    (listedClass className).Cuts behind (followedChars (n, gap)) rest := by
  have takes : (listedClass className).Takes behind ([] ++ className.toList
    ++ n.gap ++ ",".toList ++ gap)
      rest :=
    .append (.append (.append (.append (takes_nameStart start _) (takes_literal className _ _))
      (takes_many n.isGap fun c hc => Option.some.inj hc ▸ by decide)) (takes_literal "," _ _))
        (takes_many hgap next)
  have same : followedChars (n, gap) = [] ++ className.toList ++ n.gap ++ ",".toList ++ gap := by
    rw [followedChars, ListName.chars, own]
    simp
  exact same ▸ takes.cuts (by simp)

end Listed

/-! ## The list of the root method -/

theorem removeFirst_of_cuts {pattern : Pattern} {front piece rest : List Char}
    (skips : pattern.Skips [] front (piece ++ rest))
    (cuts : pattern.Cuts front.reverse piece rest) :
    pattern.removeFirst (front ++ (piece ++ rest)) = front ++ rest := by
  have found : pattern.find? (front ++ (piece ++ rest))
      = some (⟨front.reverse, piece ++ rest⟩, ⟨piece.reverse ++ front.reverse, rest⟩) := by
    rw [find?, skips.findFrom, List.append_nil]
    exact cuts.findFrom
  rw [removeFirst, found]
  simp

theorem removeFirst_of_skips {pattern : Pattern} {text : List Char} (hsolid : pattern.IsSolid)
    (skips : pattern.Skips [] text []) : pattern.removeFirst text = text := by
  refine (hsolid.removeFirst_eq_self text).2 ?_
  rintro ⟨front, stretch, back, same, hs⟩
  have nonempty : stretch ++ back ≠ [] := fun h => hsolid _ ((List.append_eq_nil_iff.1 h).1 ▸ hs)
  exact skips front (stretch ++ back) (by simpa [Place.start] using same) nonempty stretch back (by simp) hs

section Row

variable {list : NameList} {className : String}

theorem skips_followed (hname : IsName className.toList) {followed : List (ListName × List Char)}
    (isGap : ∀ f ∈ followed, IsGap f.2) (others : ∀ f ∈ followed, f.1.name ≠ className.toList)
    (behind rest : List Char) :
    (listedClass className).Skips behind (followed.flatMap followedChars) rest := by
  refine skips_flatMap followedChars fun front f back same => ?_
  have mem : f ∈ followed := same ▸ by simp
  have marks : ∀ c ∈ ',' :: f.2, isNameChar c = false :=
    List.forall_mem_cons.2 ⟨by decide, fun c hc => isNameChar_of_isBlank (isGap f mem c hc)⟩
  exact .append (f.1.skips hname (by decide) (.inl (others f mem)))
    (skips_listedClass_of_marks hname marks)

theorem NameList.skips_closing (hname : IsName className.toList) (behind rest : List Char) :
    (listedClass className).Skips behind list.closing rest := by
  have bracket (behind : List Char) : (listedClass className).Skips behind [']'] rest :=
    skips_listedClass_of_marks hname (by decide)
  rw [closing]
  split
  · next n _ => exact .append (n.skips hname (by decide) (.inr (by decide))) (bracket _)
  · exact bracket behind

/-- Behind the opening bracket and the names in front, a name may start. -/
theorem NameList.start (list : NameList) (front : List (ListName × List Char))
    (isGap : ∀ f ∈ front, IsGap f.2)
    (before : List Char) :
    ∀ c ∈ (before ++ (('[' :: list.opening) ++ front.flatMap followedChars)).reverse.head?,
      continuesName c = false := by
  rcases front.eq_nil_or_concat with rfl | ⟨front, f, rfl⟩
  · simpa using start_behind_gap (by decide) list.isGap_opening before.reverse
  · let opened := before ++ (('[' :: list.opening) ++ front.flatMap followedChars)
    simpa [followedChars, opened] using start_behind_gap (by decide : continuesName ',' = false)
      (isGap f (by simp)) (opened ++ f.1.chars).reverse

theorem NameList.next (back : List (ListName × List Char)) (rest : List Char) :
    ∀ c ∈ (back.flatMap followedChars ++ (list.closing ++ rest)).head?, isBlank c = false := by
  cases back with
  | nil =>
    rw [closing]
    split
    · next n _ => simpa [ListName.chars] using n.isName.head_not_blank (n.gap ++ (']' :: rest))
    · exact fun c hc => Option.some.inj hc ▸ by decide
  | cons f back =>
    simpa [followedChars, ListName.chars] using f.1.isName.head_not_blank
      (f.1.gap ++ (',' :: (f.2 ++ (back.flatMap followedChars ++ (list.closing ++ rest)))))

/-- Nothing of a list up to its names is a listing of a class, nor is a text in front that does not
mention it. -/
theorem NameList.skips_opening (hname : IsName className.toList) {front : List Char}
    (unmentioned : ¬ Mentions className.toList front) (rest : List Char) :
    (listedClass className).Skips [] (front ++ ('[' :: list.opening)) rest := by
  have border : ∀ c ∈ ('[' :: (list.opening ++ rest)).head?, isNameChar c = false :=
    fun c hc => Option.some.inj hc ▸ by decide
  exact .append (skips_listedClass hname unmentioned border [])
    (skips_listedClass_of_marks hname (List.forall_mem_cons.2 ⟨by decide, fun c hc =>
      isNameChar_of_isBlank (list.isGap_opening c hc)⟩))

variable {front back : List Char}

theorem NameList.without_of_absent {word : List Char}
    (absent : ∀ f ∈ list.followed, f.1.name ≠ word) :
    list.without word = list := by
  cases list
  simp only [without, NameList.mk.injEq, List.filter_eq_self, decide_eq_true_eq, true_and, and_true]
  exact absent

theorem removeFirst_of_absent (hname : IsName className.toList)
    (unmentioned : ¬ Mentions className.toList front)
    (unmentioned' : ¬ Mentions className.toList back)
    (absent : ∀ f ∈ list.followed, f.1.name ≠ className.toList) :
    (listedClass className).removeFirst (front ++ (list.chars ++ back)) = front
      ++ (list.chars ++ back) := by
  have skips : (listedClass className).Skips [] (front ++ (list.chars ++ back)) [] := by
    have parts : front ++ (list.chars ++ back) = (front ++ '[' :: list.opening)
        ++ (list.followed.flatMap followedChars ++ (list.closing ++ back)) := by
        simp [NameList.chars]
    rw [parts]
    exact .append (list.skips_opening hname unmentioned _)
      (.append (skips_followed hname list.isGap_followed absent _ _)
        (.append (list.skips_closing hname _ _) (skips_listedClass hname unmentioned' (by simp) _)))
  exact removeFirst_of_skips (isSolid_listedClass className) skips

theorem removeFirst_of_listed {others others' : List (ListName × List Char)}
    {f : ListName × List Char}
    (unmentioned : ¬ Mentions className.toList front)
    (same : list.followed = others ++ f :: others')
    (own : f.1.name = className.toList) (absent : ∀ o ∈ others, o.1.name ≠ className.toList)
    (absent' : ∀ o ∈ others', o.1.name ≠ className.toList) :
    (listedClass className).removeFirst (front ++ (list.chars ++ back))
      = front ++ ((list.without className.toList).chars ++ back) := by
  have hname : IsName className.toList := own ▸ f.1.isName
  have gaps : ∀ o ∈ others ++ f :: others', IsGap o.2 := same ▸ list.isGap_followed
  let before := front ++ ('[' :: list.opening) ++ others.flatMap followedChars
  let after := others'.flatMap followedChars ++ (list.closing ++ back)
  have skips : (listedClass className).Skips [] before (followedChars f ++ after) :=
    .append (list.skips_opening hname unmentioned _)
      (skips_followed hname (fun o ho => gaps o (by simp [ho])) absent _ _)
  have start : ∀ c ∈ before.reverse.head?, continuesName c = false := by
    simpa [before] using list.start others (fun o ho => gaps o (by simp [ho])) front
  have cuts : (listedClass className).Cuts before.reverse (followedChars f) after :=
    ListName.cuts own start (gaps f (by simp)) (NameList.next others' back)
  have kept : (list.without className.toList).followed = others ++ others' := by
    have keep {row : List (ListName × List Char)} (h : ∀ o ∈ row, o.1.name ≠ className.toList) :
        row.filter (fun f => f.1.name ≠ className.toList) = row :=
      List.filter_eq_self.2 fun o ho => decide_eq_true (h o ho)
    show list.followed.filter _ = _
    rw [same, List.filter_append, List.filter_cons_of_neg (by simp [own]),
      keep absent, keep absent']
  calc (listedClass className).removeFirst (front ++ (list.chars ++ back))
    _ = (listedClass className).removeFirst (before ++ (followedChars f ++ after)) := by
      simp [before, after, NameList.chars, same]
    _ = before ++ after := removeFirst_of_cuts skips cuts
    _ = front ++ ((list.without className.toList).chars ++ back) := by
      rw [NameList.chars, kept]
      simp [before, after, NameList.without, NameList.closing]

theorem removeFirst_nameList (distinct : list.names.Nodup) (mem : className.toList ∈ list.names)
    (unmentioned : ¬ Mentions className.toList front)
    (unmentioned' : ¬ Mentions className.toList back) :
    (listedClass className).removeFirst (front ++ (list.chars ++ back))
      = front ++ ((list.without className.toList).chars ++ back) := by
  by_cases listed : ∃ f ∈ list.followed, f.1.name = className.toList
  · obtain ⟨f, hf, own⟩ := listed
    obtain ⟨others, others', same⟩ := List.append_of_mem hf
    have names : (others.map (·.1.name) ++ f.1.name :: (others'.map (·.1.name)
        ++ (list.last?.map ListName.name).toList)).Nodup := by
      simpa [NameList.names, same] using distinct
    obtain ⟨-, ofBack, apart⟩ := List.nodup_append.1 names
    refine removeFirst_of_listed unmentioned same own (fun o ho e => ?_) fun o ho e => ?_
    · exact apart o.1.name (List.mem_map_of_mem ho) f.1.name (by simp) (e.trans own.symm)
    · exact (List.nodup_cons.1 ofBack).1
        (List.mem_append_left _ (own.trans e.symm ▸ List.mem_map_of_mem ho))
  · have absent : ∀ f ∈ list.followed, f.1.name ≠ className.toList :=
      fun f hf own => listed ⟨f, hf, own⟩
    have hname : IsName className.toList := by
      rcases List.mem_append.1 mem with mem | mem
      · obtain ⟨f, hf, own⟩ := List.mem_map.1 mem
        exact absurd own (absent f hf)
      · obtain ⟨n, -, own⟩ := Option.map_eq_some_iff.1 (Option.mem_toList.1 mem)
        exact own ▸ n.isName
    rw [NameList.without_of_absent absent]
    exact removeFirst_of_absent hname unmentioned unmentioned' absent

/-- **A class that a barrel lists once** behind its root method goes from that list with the comma
and the blanks behind it, and nothing else changes. What is left is a list of the other names, in
their order; only a class that stands in the last place, without a comma, is still among them. -/
theorem withoutClass_nameList {before : List Char} {config : BuildConfig}
    (anchor : Text.indexOf? config.frameworkRootMethod.toList (before ++ (front ++ (list.chars ++ back)))
      = some before.length)
    (distinct : list.names.Nodup) (mem : className.toList ∈ list.names)
    (unmentioned : ¬ Mentions className.toList front)
    (unmentioned' : ¬ Mentions className.toList back) :
    withoutClass (String.ofList (before ++ (front ++ (list.chars ++ back)))) className config
        = String.ofList (before ++ (front ++ ((list.without className.toList).chars ++ back)))
      ∧ (list.without className.toList).names = list.names.filter fun name =>
        name ≠ className.toList ∨ list.last?.map ListName.name = some className.toList := by
  refine ⟨?_, NameList.names_without_eq distinct⟩
  rw [withoutClass, String.toList_ofList, anchor]
  show String.ofList (List.take before.length _ ++ (listedClass className).removeFirst
    (List.drop before.length _)) = _
  rw [List.take_left, List.drop_left, removeFirst_nameList distinct mem unmentioned unmentioned']

end Row

/-- A class on a line of its own, with the comma behind it. -/
def listedLine (name : String) (isName : IsName name.toList) : ListName × List Char :=
  (⟨name.toList, [], isName, isGap_nil⟩, "\n  ".toList)

def serviceList (followed : List (ListName × List Char)) (last? : Option ListName)
    (gaps : ∀ f ∈ followed, IsGap f.2) : NameList :=
  ⟨"\n  ".toList, followed, last?, by decide, gaps⟩

/-- The text between the import of a class and the list of the root method. -/
def rootMethod : List Char :=
  "forRoot() \x7b return ".toList

/-- A barrel that imports a class and returns a list from its root method. -/
def barrelText (list : NameList) : List Char :=
  "import \x7b Alert \x7d from './alert';\n".toList
    ++ (rootMethod ++ (list.chars ++ "; \x7d\n".toList))

theorem barrelText_unmentioned :
    ¬ Mentions "Alert".toList rootMethod ∧ ¬ Mentions "Alert".toList "; \x7d\n".toList :=
  ⟨not_mentions_of_absent (by decide +kernel), not_mentions_of_absent (by decide +kernel)⟩

/-- A class leaves a list with a trailing comma; a longer name that begins like it stays, and so
does the import in front of the root method. -/
theorem withoutClass_serviceList :
    let sheet := listedLine "ActionSheet" (by decide)
    let alert := listedLine "Alert" (by decide)
    let app := listedLine "AlertApp" (by decide)
    withoutClass (String.ofList (barrelText (serviceList [sheet, alert, app] none (by decide)))) "Alert"
        sampleConfig
      = String.ofList (barrelText (serviceList [sheet, app] none (by decide))) := by
  intro sheet alert app
  let list := serviceList [sheet, alert, app] none (by decide)
  have anchor : Text.indexOf? sampleConfig.frameworkRootMethod.toList (barrelText list)
      = some "import \x7b Alert \x7d from './alert';\n".toList.length := by decide +kernel
  have left : (list.without "Alert".toList).chars
      = (serviceList [sheet, app] none (by decide)).chars := by
    decide +kernel
  have purged := withoutClass_nameList anchor (by decide +kernel) (by decide +kernel)
    barrelText_unmentioned.1 barrelText_unmentioned.2
  rw [left] at purged
  exact purged.1

/-- The last class of a list stays if no comma follows it. -/
theorem withoutClass_keeps_last :
    let app := listedLine "App" (by decide)
    let alert : ListName := ⟨"Alert".toList, "\n".toList, by decide, by decide⟩
    let list := serviceList [app] (some alert) (by decide)
    (list.names.Nodup ∧ alert.name ∈ list.names ∧ ¬ Mentions alert.name rootMethod
        ∧ ¬ Mentions alert.name "; \x7d\n".toList)
      ∧ withoutClass (String.ofList (barrelText list)) "Alert" sampleConfig
        = String.ofList (barrelText list) := by
  intro app alert list
  exact ⟨⟨by decide +kernel, by decide +kernel, barrelText_unmentioned⟩, by decide +kernel⟩

end RouteTrim.Purge
