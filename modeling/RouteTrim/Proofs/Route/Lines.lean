import Mathlib.Algebra.GroupWithZero.Nat
import RouteTrim.Proofs.Path.Normal
import RouteTrim.Proofs.Route.Links

/-!
# The lines of a registry

A registry is laid out with one link a line, and a text is quoted as it is but for quotes and
backslashes. So a line feed in a text is a line feed in the registry: it cuts the line of its link
in two, and the literal that it stands in is none. This happens with every value that is written
over several lines, be it a template, a literal that goes on behind a backslash or an expression,
since the source text is what is kept (`projectLinks_breaks_line`).

`projectLinks_lines` says how many lines there are in general, and that nothing else goes wrong: if
the texts stand on one line each, so does each link, and the registry is a literal of the language.
-/

set_option autoImplicit false

namespace RouteTrim.Text

/-! ## Counting separators -/

theorem length_split (separator : Char) (s : List Char) :
    (split separator s).length = s.count separator + 1 := by
  induction s with
  | nil => rfl
  | cons c s ih =>
    rw [split]
    by_cases hc : c = separator
    · rw [if_pos hc, List.length_cons, ih, hc, List.count_cons_self]
    · rw [if_neg hc, List.count_cons_of_ne hc]
      cases hs : split separator s with
      | nil => exact absurd hs (split_ne_nil separator s)
      | cons part parts =>
        rw [hs] at ih
        exact ih

theorem length_split_joinWith (separator : Char) {parts : List (List Char)} (ne : parts ≠ []) :
    (split separator (joinWith [separator] parts)).length
      = parts.length + (parts.map fun part => part.count separator).sum := by
  induction parts with
  | nil => exact absurd rfl ne
  | cons part parts ih =>
    cases parts with
    | nil => simp [joinWith, length_split, Nat.add_comm]
    | cons next parts =>
      have rest := ih (by simp)
      rw [joinWith_cons _ _ (by simp), List.append_assoc, List.singleton_append, split_append,
        List.length_append, rest, length_split]
      simp only [List.length_cons, List.map_cons, List.sum_cons]
      omega

end RouteTrim.Text

namespace RouteTrim.Route

open RouteTrim.Path (WorkingFolder)
open RouteTrim.Settings (BuildConfig)
open RouteTrim.Text
open RouteTrim.Tree (Parser Source)
open RouteTrim.Tree.StringValue

/-! ## The layout -/

/-- The lines of some links: each link, with a comma behind it unless it is the last one. -/
def linkRows : List Link → List (List Char)
  | [] => []
  | [link] => [link.line]
  | link :: next :: links => (link.line ++ [',']) :: linkRows (next :: links)

/-- The lines that a registry is laid out in. -/
def registryRows (links : List Link) : List (List Char) :=
  "\x7b".toList :: "  links: [".toList :: (linkRows links ++ ["  ]".toList, "\x7d".toList])

theorem length_linkRows (links : List Link) : (linkRows links).length = links.length := by
  induction links using linkRows.induct with
  | case1 => rfl
  | case2 link => rfl
  | case3 link next links ih => rw [linkRows, List.length_cons, ih]; rfl

/-- The lines of links stand in front of others as the links do, with a comma between any two. -/
theorem joinWith_linkRows (link : Link) (links : List Link) {rows : List (List Char)}
    (ne : rows ≠ []) : joinWith ['\n'] (linkRows (link :: links) ++ rows)
      = joinWith [',', '\n'] ((link :: links).map Link.line) ++ '\n' :: joinWith ['\n'] rows := by
  induction links generalizing link with
  | nil =>
    rw [linkRows, List.singleton_append, joinWith_cons _ _ ne, List.append_assoc]
    rfl
  | cons next links ih =>
    have lines : (next :: links).map Link.line ≠ [] := by simp
    rw [linkRows, List.cons_append, joinWith_cons _ _ (by simp [ne]), ih next,
      List.map_cons (l := next :: links), joinWith_cons _ _ lines]
    simp only [List.append_assoc, List.cons_append, List.nil_append]

theorem registryChars_eq_rows (links : List Link) :
    registryChars links = joinWith ['\n'] (registryRows links) := by
  unfold registryChars registryRows linkLines
  cases links with
  | nil => rfl
  | cons link links =>
    rw [joinWith_cons _ _ (by simp), joinWith_cons _ _ (by simp),
      joinWith_linkRows link links (by simp)]
    simp [joinWith]

/-! ## Line feeds in texts -/

/-- The texts of a link that a project chooses freely. -/
def Link.texts (link : Link) : List String :=
  link.loadChildren :: link.name :: (link.segment.toList ++ link.history)

def Link.lineFeeds (link : Link) : Nat :=
  (link.texts.map fun text => text.toList.count '\n').sum

theorem count_joinWith {c : Char} {separator : List Char} (apart : separator.count c = 0)
    (parts : List (List Char)) :
    (joinWith separator parts).count c = (parts.map fun part => part.count c).sum := by
  induction parts with
  | nil => rfl
  | cons part parts ih =>
    cases parts with
    | nil => simp [joinWith]
    | cons next parts =>
      rw [joinWith_cons _ _ (by simp), List.count_append, List.count_append, ih, apart]
      rfl

theorem count_quote (s : String) : (quote s).count '\n' = s.toList.count '\n' := by
  have body (s : List Char) : (s.flatMap quoteChar).count '\n' = s.count '\n' := by
    induction s with
    | nil => rfl
    | cons c s ih =>
      rw [List.flatMap_cons, List.count_append, ih, List.count_cons, quoteChar]
      split
      · next special =>
        rcases special with rfl | rfl <;> simp [backslash, singleQuote]
      · simp [List.count_singleton, Nat.add_comm]
  have marks : ([singleQuote] : List Char).count '\n' = 0 := by decide
  rw [quote, ← List.singleton_append, List.append_assoc, List.count_append,
    List.count_append, marks, body]
  omega

theorem count_line {link : Link} (known : link.priority ∈ priorities) :
    link.line.count '\n' = link.lineFeeds := by
  have priority : link.priority.toList.count '\n' = 0 := by
    have both : ∀ text ∈ priorities, text.toList.count '\n' = 0 := by decide
    exact both _ known
  have history : (quoteList link.history).count '\n'
      = (link.history.map fun text => text.toList.count '\n').sum := by
    rw [quoteList, count_joinWith (by decide), List.map_map]
    exact congrArg List.sum (List.map_congr_left fun text _ => count_quote text)
  have segment : (segmentText link.segment).count '\n'
      = (link.segment.toList.map fun text => text.toList.count '\n').sum := by
    cases link.segment with
    | none => rfl
    | some text => simp [segmentText, count_quote]
  -- A line is cut at its texts, since what stands between them has no line feeds.
  have layout : link.line = "    \x7b loadChildren: ".toList ++ quote link.loadChildren
      ++ ", name: ".toList ++ quote link.name ++ ", segment: ".toList ++ segmentText link.segment
      ++ ", priority: ".toList ++ quote link.priority ++ ", defaultHistory: [".toList
      ++ quoteList link.history ++ "] \x7d".toList := by
    unfold Link.line Link.text
    cases link.segment <;> simp [segmentText]
  have between : ∀ text ∈ ["    \x7b loadChildren: ", ", name: ", ", segment: ", ", priority: ",
      ", defaultHistory: [", "] \x7d"], text.toList.count '\n' = 0 := by decide
  rw [List.forall_mem_cons, List.forall_mem_cons, List.forall_mem_cons, List.forall_mem_cons,
    List.forall_mem_cons, List.forall_mem_singleton] at between
  obtain ⟨opening, name, segmentKey, priorityKey, historyKey, closing⟩ := between
  rw [layout, Link.lineFeeds, Link.texts, List.map_cons, List.map_cons,
    List.map_append, List.sum_cons, List.sum_cons, List.sum_append]
  simp only [List.count_append]
  rw [opening, name, segmentKey, priorityKey, historyKey, closing, count_quote, count_quote,
    count_quote, history, segment, priority]
  omega

theorem lineFeeds_eq_zero {link : Link} :
    link.lineFeeds = 0 ↔ ∀ text ∈ link.texts, '\n' ∉ text.toList := by
  rw [Link.lineFeeds, List.sum_eq_zero_iff_forall_eq_nat, List.forall_mem_map]
  exact forall₂_congr fun text _ => List.count_eq_zero

theorem sum_linkRows {links : List Link} (known : ∀ link ∈ links, link.priority ∈ priorities) :
    ((linkRows links).map fun row => row.count '\n').sum = (links.map Link.lineFeeds).sum := by
  induction links using linkRows.induct with
  | case1 => rfl
  | case2 link =>
    rw [linkRows, List.map_singleton, List.map_singleton, count_line (known link (.head _))]
  | case3 link next links ih =>
    obtain ⟨first, rest⟩ := List.forall_mem_cons.1 known
    have comma : [','].count '\n' = 0 := by decide
    rw [linkRows, List.map_cons, List.sum_cons, ih rest, List.count_append, count_line first, comma,
      List.map_cons (l := next :: links), List.sum_cons, Nat.add_zero]

theorem sum_registryRows {links : List Link} (known : ∀ link ∈ links, link.priority ∈ priorities) :
    ((registryRows links).map fun row => row.count '\n').sum = (links.map Link.lineFeeds).sum := by
  rw [registryRows, List.map_cons, List.map_cons, List.map_append, List.sum_cons, List.sum_cons,
    List.sum_append, sum_linkRows known]
  simp

theorem length_registryRows (links : List Link) :
    (registryRows links).length = 4 + links.length := by
  rw [registryRows, List.length_cons, List.length_cons, List.length_append, length_linkRows]
  simp
  omega

theorem Link.oneLine_of_texts {link : Link} (known : link.priority ∈ priorities)
    (h : ∀ text ∈ link.texts, Route.OneLine text) : link.OneLine := by
  have both : ∀ text ∈ priorities, Route.OneLine text := by decide
  rw [Link.texts, List.forall_mem_cons, List.forall_mem_cons, List.forall_mem_append] at h
  obtain ⟨loadChildren, name, segment, history⟩ := h
  exact ⟨loadChildren, name, fun text given => segment text (Option.mem_toList.2 given),
    both _ known, history⟩

theorem priority_of_projectLinks [WorkingFolder] [Parser] {store : FileStore} {config : BuildConfig}
    {links : List Link}
    (found : projectLinks store config = .ok links) :
    ∀ link ∈ links, link.priority ∈ priorities := by
  intro link hlink
  obtain ⟨page, -, content, -, c, -, entry, read, resolved⟩ :=
    declaredBy_of_projectLinks found link hlink
  obtain ⟨descriptor, -, rfl⟩ := Entry.resolve_eq_ok.1 resolved
  exact priority_readEntry read

/-- **A registry has as many lines as its layout has if no text has a line feed**, and one more for
each line feed else. Then each line is a link as a whole. A text without line ends is quoted as a
literal, any other one is not, and a registry of such texts is a literal of the language. -/
theorem projectLinks_lines [WorkingFolder] [Parser] {store : FileStore} {config : BuildConfig}
    {links : List Link}
    (found : projectLinks store config = .ok links) :
    let lines := split '\n' (registryText links).toList
    lines.length = 4 + links.length + (links.map Link.lineFeeds).sum ∧
    (lines.length = 4 + links.length ↔ ∀ link ∈ links, ∀ text ∈ link.texts, '\n' ∉ text.toList) ∧
    (lines.length = 4 + links.length → lines = registryRows links) ∧
    (∀ text, (∃ value, evaluate? (quote text) = some value) ↔ OneLine text) ∧
    ((∀ link ∈ links, ∀ text ∈ link.texts, OneLine text) →
      (registryWriting links).Valid ∧ (registryWriting links).chars
          = (registryText links).toList) := by
  have known := priority_of_projectLinks found
  have rows := sum_registryRows known
  have ne : registryRows links ≠ [] := by simp [registryRows]
  dsimp only
  rw [registryText, String.toList_ofList, registryChars_eq_rows, length_split_joinWith '\n' ne, rows,
    length_registryRows, Nat.add_eq_left, List.sum_eq_zero_iff_forall_eq_nat, List.forall_mem_map]
  refine ⟨rfl, forall₂_congr fun link _ => lineFeeds_eq_zero, fun whole => ?_, fun text => ?_,
    fun oneLine => ⟨?_, ?_⟩⟩
  · -- The rows have the line feeds of the texts and no others.
    have none : ((registryRows links).map fun row => row.count '\n').sum = 0 := by
      rw [rows, List.sum_eq_zero_iff_forall_eq_nat]
      exact List.forall_mem_map.2 whole
    rw [List.sum_eq_zero_iff_forall_eq_nat, List.forall_mem_map] at none
    exact split_joinWith ne fun row hrow => List.count_eq_zero.1 (none row hrow)
  · simp [evaluate?_quote]
  · exact valid_registryWriting fun link hlink =>
      Link.oneLine_of_texts (known link hlink) (oneLine link hlink)
  · rw [chars_registryWriting, registryChars_eq_rows]

theorem projectLinks_lines_shop :
    let links := [homeLink, ordersLink, itemLink]
    projectLinks shopProject ImportGraph.sampleConfig = .ok links ∧
      split '\n' (registryText links).toList = registryRows links ∧
      (registryWriting links).Valid := by
  intro links
  obtain ⟨-, count, rows, -, valid⟩ := projectLinks_lines projectLinks_shopProject
  have oneLine : ∀ link ∈ links, ∀ text ∈ link.texts, OneLine text := by decide
  have whole : ∀ link ∈ links, ∀ text ∈ link.texts, '\n' ∉ text.toList := by decide
  exact ⟨projectLinks_shopProject, rows (count.2 whole), (valid oneLine).1⟩

/-- A page whose name goes over two lines, and its descriptor. -/
def brokenProject : FileStore :=
  .ofList [("/app/src/home.ts", "@IonicPage(\x7b name: `Ho\nme` \x7d) class HomePage \x7b\x7d"),
    ("/app/src/home.module.ts", "@NgModule(\x7b\x7d) class HomePageModule \x7b\x7d")]

def brokenLink : Link :=
  { homeLink with name := "Ho\nme", declaration := "@IonicPage(\x7b name: `Ho\nme` \x7d)" }

/-- **A name over two lines cuts the line of its link**, and what stands for it is no literal. -/
theorem projectLinks_breaks_line :
    projectLinks brokenProject ImportGraph.sampleConfig = .ok [brokenLink] ∧
      (split '\n' (registryText [brokenLink]).toList).length = 6 ∧
      evaluate? (quote brokenLink.name) = none :=
  ⟨toOption_eq_some.1 (by decide +kernel), by decide +kernel, by decide +kernel⟩

end RouteTrim.Route
