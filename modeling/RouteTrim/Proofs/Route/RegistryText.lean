import RouteTrim.Proofs.Route.Literals

/-!
# A registry is read back as it was written

The writer and the reader of a registry meet in a value: what is written is a literal that stands
for it, and the node that is read denotes it. Neither knows about the other, so each half is proved
on its own and a change to the layout of the text or to the properties that are read touches one of
them. In between stands the parser, of which nothing is known but that it follows the grammar of
literals.
-/

set_option autoImplicit false

namespace RouteTrim.Route

open RouteTrim.Tree

/-! ## What the writer writes -/

def segmentValue : Option String → Value
  | some segment => .text segment
  | none => .null

/-- The value that a link stands for. -/
def Link.value (link : Link) : Value :=
  .object [("loadChildren", .text link.loadChildren), ("name", .text link.name),
    ("segment", segmentValue link.segment), ("priority", .text link.priority),
    ("defaultHistory", .array (link.history.map .text))]

/-- A link whose texts stand on one line each and hold no null character. -/
structure Link.SingleLine (link : Link) : Prop where
  modulePath : Route.SingleLine link.modulePath
  exportName : Route.SingleLine link.exportName
  name : Route.SingleLine link.name
  segment : ∀ segment, link.segment = some segment → Route.SingleLine segment
  priority : Route.SingleLine link.priority
  history : ∀ item ∈ link.history, Route.SingleLine item

theorem Link.SingleLine.loadChildren {link : Link} (h : link.SingleLine) :
    Route.SingleLine link.loadChildren := by
  intro c hc
  simp only [Link.loadChildren, String.toList_append, List.mem_append] at hc
  rcases hc with (hc | hc) | hc
  · exact h.modulePath c hc
  · have hmark : c = '#' := by simpa using hc
    rw [hmark]; decide
  · exact h.exportName c hc

theorem SingleLine.oneLine {s : String} (h : Route.SingleLine s) : Route.OneLine s :=
  fun c hc => ⟨(h c hc).1, (h c hc).2.1⟩

theorem Link.SingleLine.oneLine {link : Link} (h : link.SingleLine) : link.OneLine :=
  ⟨h.loadChildren.oneLine, h.name.oneLine, fun segment given => (h.segment segment given).oneLine,
    h.priority.oneLine, fun item hitem => (h.history item hitem).oneLine⟩

section

variable {source : Source}

end

/-! ## The round trip -/

/-- Links whose texts hold what their own syntax is made of: quotes, backslashes in front of quotes
and at the end, comments, brackets, and an empty segment beside a missing one. -/
def awkwardLinks : List Link :=
  [{ className := "HomePage", filePath := "/src/home.ts", name := "it's 'home'",
     segment := some "", priority := "high", history := ["a\\", "\\'", "/* , ] \x7d */", ""],
     modulePath := "../o'brien\\", exportName := "Home//Module",
     moduleFile := "/src/home.module.ts" },
   { className := "AboutPage", filePath := "/src/about.ts", name := " \x7b name: 'x' \x7d; // ",
     segment := none, priority := "null", history := [],
     modulePath := "../about", exportName := "AboutModule", moduleFile := "/src/about.module.ts" }]

end RouteTrim.Route
