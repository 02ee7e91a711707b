import RouteTrim.Proofs.Tree.Expression

/-!
# Lists in brackets

The text of a list is its items with commas between them and blanks of any kind around the items.
If every item is read from its own text as the tree that it has at its offset, the list is read item
by item, and its nodes are these trees, each as far behind the last one as the texts say.
-/

set_option autoImplicit false

namespace RouteTrim.Tree

open RouteTrim.Text (joinWith)
open Parse

/-! ## What follows a value -/

def EndsValue (s : List Char) : Prop :=
  ∃ gap mark rest, s = gap ++ mark :: rest ∧ gap.all isSpacing = true ∧
    mark ∈ [',', ']', '\x7d', ';']

theorem EndsValue.of_mark {mark : Char} (h : mark ∈ [',', ']', '\x7d', ';']) (rest : List Char) :
    EndsValue (mark :: rest) :=
  ⟨[], mark, rest, rfl, rfl, h⟩

theorem EndsValue.closes {s : List Char} (h : EndsValue s) (offset : Nat) :
    (Cursor.before offset s).Closes := by
  obtain ⟨gap, mark, rest, rfl, hgap, hmark⟩ := h
  obtain ⟨halone, hclosing⟩ : standsAlone mark = true ∧
      String.singleton mark ∈ closingMarks := by
    simp only [List.mem_cons, List.not_mem_nil, or_false] at hmark
    rcases hmark with rfl | rfl | rfl | rfl <;> decide
  exact ⟨_, hclosing, Cursor.token_of_mark (Cursor.front_before_mark hgap halone rest) halone⟩

theorem EndsValue.endsWord {s : List Char} (h : EndsValue s) : endsWord s = true := by
  obtain ⟨gap, mark, rest, rfl, hgap, hmark⟩ := h
  cases gap with
  | nil =>
    obtain ⟨hpart, hbackslash⟩ : isNamePart mark = false ∧ mark ≠ Text.backslash := by
      simp only [List.mem_cons, List.not_mem_nil, or_false] at hmark
      rcases hmark with rfl | rfl | rfl | rfl <;> decide
    simp [Tree.endsWord, hpart, hbackslash]
  | cons c gap =>
    simp only [List.all_cons, Bool.and_eq_true] at hgap
    have hpart : isNamePart c = false := by
      cases hpart : isNamePart c with
      | false => rfl
      | true => exact absurd hgap.1 (by simp [isSpacing_of_isNamePart hpart])
    have hbackslash : c ≠ Text.backslash := by
      rintro rfl
      exact absurd hgap.1 (by decide)
    simp [Tree.endsWord, hpart, hbackslash]

/-! ## Items -/

/-- `item` reads the text `t` wherever a value may stand, as the tree that it has at each offset. -/
structure ReadsItem (item : Parse Node) (tree : Nat → Node) (t : List Char) : Prop where
  /-- An item has characters. -/
  length_pos : 0 < t.length
  /-- It starts with its first character. -/
  settled : ∀ s, settled (t ++ s) = true
  /-- Its first token neither ends the list nor parts it. -/
  token_ne : ∀ {c : Cursor} {offset : Nat} {s : List Char}, c.front = .before offset (t ++ s) →
    EndsValue s → ∀ token ∈ [Token.mark ",", .mark "]", .mark "\x7d", .finish], c.token ≠ token
  /-- It is read up to its end. -/
  reads : ∀ {c : Cursor} {offset : Nat} {s : List Char}, c.front = .before offset (t ++ s) →
    EndsValue s → item c = some (tree offset, .before (offset + t.length) s)

theorem remaining_of_front {c : Cursor} {offset : Nat} {s : List Char}
    (h : c.front = .before offset s) : s.length ≤ c.remaining := by
  have := c.remaining_front_le
  rwa [h, Cursor.remaining_before] at this

/-- The marks that close a list or an object. -/
def closers : List Char :=
  [']', '\x7d']

section

variable {item : Parse Node} {tree : Nat → Node} {t : List Char} {close : Char} {c : Cursor}
  {offset : Nat}

theorem closers_spec (hclose : close ∈ closers) :
    standsAlone close = true ∧ String.singleton close ≠ "," ∧
      close ∈ [',', ']', '\x7d', ';'] ∧
      Token.mark (String.singleton close)
        ∈ [Token.mark ",", .mark "]", .mark "\x7d", .finish] := by
  simp only [closers, List.mem_cons, List.not_mem_nil, or_false] at hclose
  rcases hclose with rfl | rfl <;> decide

theorem Parse.Items.of_readsItem (entry : ReadsItem item tree t) (hclose : close ∈ closers)
    {s : List Char} (ends : EndsValue s) (hc : c.front = .before offset (t ++ s))
    {nodes : List Node} {d : Cursor}
    (behind : Items (String.singleton close) item (.before (offset + t.length) s) nodes d) :
    Items (String.singleton close) item c (tree offset :: nodes) d := by
  obtain ⟨-, -, -, hmember⟩ := closers_spec hclose
  have other := entry.token_ne hc ends
  have shorter : (Cursor.before (offset + t.length) s).remaining < c.remaining := by
    have whole := remaining_of_front hc
    have some_ := entry.length_pos
    rw [Cursor.remaining_before]
    rw [List.length_append] at whole
    omega
  exact .item (other _ hmember) (other _ (by simp)) (other _ (by simp)) (entry.reads hc ends) shorter
    behind

theorem Parse.Items.of_close (hclose : close ∈ closers) {trail : List Char}
    (htrail : trail.all isSpacing = true) (rest : List Char) :
    Items (String.singleton close) item (.before offset (trail ++ close :: rest)) []
      (.before offset (trail ++ close :: rest)) := by
  obtain ⟨halone, -, -, -⟩ := closers_spec hclose
  exact .done (Cursor.token_of_mark (Cursor.front_before_mark htrail halone rest) halone)

theorem Parse.Items.of_comma (hclose : close ∈ closers) {s : List Char} {nodes : List Node}
    {d : Cursor}
    (list : Items (String.singleton close) item (.before (offset + 1) s) nodes d) :
    Items (String.singleton close) item (.before offset (',' :: s)) nodes d := by
  obtain ⟨-, hcomma, -, -⟩ := closers_spec hclose
  have hfront : Cursor.front (.before offset (',' :: s)) = .before offset (',' :: s) :=
    Cursor.front_before_of_settled (settled_of_standsAlone (by decide) s) offset
  have hbehind := Cursor.behind_of_mark hfront (by decide)
  refine .comma (Cursor.token_of_mark hfront (by decide)) hcomma ?_ ?_
  · simp [hbehind]
  · rw [hbehind]; exact list

end

/-! ## Lists -/

/-- The text between the brackets of a list: blanks only if it has no items. -/
def listText (lead sep trail : List Char) : List (List Char) → List Char
  | [] => trail
  | t :: texts => lead ++ joinWith (',' :: sep) (t :: texts) ++ trail

section

variable {β : Type} {item : Parse Node} {text : β → List Char}
    {tree : β → Nat → Node} {close : Char}
  {sep trail : List Char}

/-- The trees of items from an offset on, with a gap between any two of their texts. -/
def nodesFrom (text : β → List Char) (tree : β → Nat → Node) : Nat → Nat → List β → List Node
  | _, _, [] => []
  | offset, gap, entry :: entries =>
    tree entry offset :: nodesFrom text tree (offset + (text entry).length + gap) gap entries

/-- The text of a nonempty list starts where its first item does. -/
theorem settled_joined (sep : List Char) {first : β} (entries : List β)
    (hfirst : ∀ s, settled (text first ++ s) = true) (s : List Char) :
    settled (joinWith (',' :: sep) ((first :: entries).map text) ++ s) = true := by
  cases entries with
  | nil => exact hfirst s
  | cons second entries =>
    simp only [List.map_cons, joinWith, List.append_assoc]
    exact hfirst _

/-- **The items of a nonempty list are read one by one up to its closing mark.** -/
theorem items_of_joined (hclose : close ∈ closers) (hsep : sep.all isSpacing = true)
    (htrail : trail.all isSpacing = true) (rest : List Char) {first : β} {entries : List β}
    (hread : ∀ entry ∈ first :: entries, ReadsItem item (tree entry) (text entry)) {c : Cursor}
    {offset : Nat}
    (hc : c.front = .before offset
      (joinWith (',' :: sep) ((first :: entries).map text) ++ (trail ++ close :: rest))) :
    Items (String.singleton close) item c
      (nodesFrom text tree offset (1 + sep.length) (first :: entries))
      (.before (offset + (joinWith (',' :: sep) ((first :: entries).map text)).length)
        (trail ++ close :: rest)) := by
  obtain ⟨-, -, hending, -⟩ := closers_spec hclose
  induction entries generalizing first c offset with
  | nil =>
    have ends : EndsValue (trail ++ close :: rest) := ⟨trail, close, rest, rfl, htrail, hending⟩
    exact .of_readsItem (hread first (List.mem_cons_self ..)) hclose ends hc
      (.of_close hclose htrail rest)
  | cons second entries ih =>
    have later : ∀ entry ∈ second :: entries, ReadsItem item (tree entry) (text entry) :=
      fun entry hentry => hread entry (List.mem_cons_of_mem first hentry)
    have settles := settled_joined sep entries
      (later second (List.mem_cons_self ..)).settled (trail ++ close :: rest)
    -- The list behind the first comma, as the induction hypothesis sees it.
    have split : joinWith (',' :: sep) ((first :: second :: entries).map text)
        = text first ++ ',' :: (sep ++ joinWith (',' :: sep) ((second :: entries).map text)) := by
      simp [joinWith]
    have gap : offset + (text first).length + (1 + sep.length)
        = offset + (text first).length + 1 + sep.length := by omega
    have stop : offset + (text first
          ++ ',' :: (sep ++ joinWith (',' :: sep) ((second :: entries).map text))).length
        = offset + (text first).length + 1 + sep.length
          + (joinWith (',' :: sep) ((second :: entries).map text)).length := by
      simp only [List.length_append, List.length_cons]
      omega
    rw [split] at hc ⊢
    rw [List.append_assoc, List.cons_append, List.append_assoc] at hc
    rw [nodesFrom, gap, stop]
    refine .of_readsItem (hread first (List.mem_cons_self ..)) hclose (.of_mark (by simp) _) hc ?_
    exact .of_comma hclose (ih later (Cursor.front_before hsep settles _))

/-- **A list is read from its text, whatever blanks stand between its items.** -/
theorem listUntil_listText (hclose : close ∈ closers) {lead : List Char}
    (hlead : lead.all isSpacing = true) (hsep : sep.all isSpacing = true)
    (htrail : trail.all isSpacing = true) (rest : List Char) {entries : List β}
    (hread : ∀ entry ∈ entries, ReadsItem item (tree entry) (text entry)) (offset : Nat) :
    listUntil (String.singleton close) item
        (.before offset (listText lead sep trail (entries.map text) ++ close :: rest))
      = some (nodesFrom text tree (offset + lead.length) (1 + sep.length) entries,
        .before (offset + (listText lead sep trail (entries.map text)).length + 1) rest) := by
  obtain ⟨halone, -, -, -⟩ := closers_spec hclose
  have behind (offset : Nat) : Cursor.behind (.before offset (trail ++ close :: rest))
      = .before (offset + trail.length + 1) rest :=
    Cursor.behind_of_mark (Cursor.front_before_mark htrail halone rest) halone
  cases entries with
  | nil =>
    have none_left : Items (String.singleton close) item (.before offset (trail ++ close :: rest))
        [] (.before offset (trail ++ close :: rest)) := .of_close hclose htrail rest
    have list := listUntil_of_items none_left
    rwa [behind] at list
  | cons first entries =>
    have settles := settled_joined sep entries
      (hread first (List.mem_cons_self ..)).settled (trail ++ close :: rest)
    have split : listText lead sep trail ((first :: entries).map text)
        = lead ++ (joinWith (',' :: sep) ((first :: entries).map text) ++ trail) := by
      simp [listText]
    rw [split, List.append_assoc, List.append_assoc]
    have list := listUntil_of_items (items_of_joined hclose hsep htrail rest hread
      (Cursor.front_before hlead settles offset))
    rw [list, behind]
    congr 3
    simp only [List.length_append]
    omega

end

/-! ## Brackets -/

def bracketText (opening close : Char) (lead sep trail : List Char) (texts : List (List Char)) :
    List Char :=
  opening :: (listText lead sep trail texts ++ [close])

theorem bracketText_append (opening close : Char) (lead sep trail : List Char)
    (texts : List (List Char)) (s : List Char) :
    bracketText opening close lead sep trail texts ++ s
      = opening :: (listText lead sep trail texts ++ close :: s) := by
  simp [bracketText]

theorem length_le_joinWith (sep : List Char) {t : List Char} {texts : List (List Char)}
    (h : t ∈ texts) :
    t.length ≤ (joinWith sep texts).length := by
  induction texts with
  | nil => exact absurd h (by simp)
  | cons first texts ih =>
    cases texts with
    | nil => rw [List.mem_singleton.mp h]; exact Nat.le_refl _
    | cons second texts =>
      simp only [joinWith, List.length_append]
      rcases List.mem_cons.mp h with rfl | hrest
      · omega
      · have := ih hrest
        omega

theorem length_lt_bracketText {opening close : Char} {lead sep trail t : List Char}
    {texts : List (List Char)} (h : t ∈ texts) :
    t.length < (bracketText opening close lead sep trail texts).length := by
  cases texts with
  | nil => exact absurd h (by simp)
  | cons first texts =>
    have := length_le_joinWith (',' :: sep) h
    simp only [bracketText, listText, List.length_cons, List.length_append] at *
    omega

def bracketed (opening closing : String) (kind : Kind) (item : Parse Node) : Parse Node := do
  let start ← tokenStart
  mark opening
  let items ← listUntil closing item
  node kind start items

theorem primary_of_bracket {g : Grammar} {c : Cursor} (h : c.token = .mark "[") :
    Primary.primary g c = bracketed "[" "]" .array (Signature.spreadable g) c := by
  unfold Primary.primary
  rw [bind_of_eq_some (peek_apply c), h]
  rfl

theorem primary_of_brace {g : Grammar} {c : Cursor} (h : c.token = .mark "\x7b") :
    Primary.primary g c = bracketed "\x7b" "\x7d" .object (Primary.objectMember g) c := by
  unfold Primary.primary
  rw [bind_of_eq_some (peek_apply c), h]
  rfl

/-- **A list in brackets is a node that covers its text, over the nodes of its items.** -/
theorem bracketed_bracketText {β : Type} {item : Parse Node} {text : β → List Char}
    {tree : β → Nat → Node} {opening close : Char} (hopening : standsAlone opening = true)
    (hclose : close ∈ closers) {lead sep trail : List Char} (hlead : lead.all isSpacing = true)
    (hsep : sep.all isSpacing = true) (htrail : trail.all isSpacing = true) (kind : Kind)
    {entries : List β} (hread : ∀ entry ∈ entries, ReadsItem item (tree entry) (text entry))
    {c : Cursor} {offset : Nat} {s : List Char}
    (hc : c.front = .before offset
      (bracketText opening close lead sep trail (entries.map text) ++ s)) :
    bracketed (String.singleton opening) (String.singleton close) kind item c
      = some (.mk kind .plain
          ⟨offset, (bracketText opening close lead sep trail (entries.map text)).length⟩
          (nodesFrom text tree (offset + 1 + lead.length) (1 + sep.length) entries),
        .before (offset + (bracketText opening close lead sep trail (entries.map text)).length) s) := by
  have hlength : offset + (bracketText opening close lead sep trail (entries.map text)).length
      = offset + 1 + (listText lead sep trail (entries.map text)).length + 1 := by
    simp only [bracketText, List.length_cons, List.length_append, List.length_nil]
    omega
  rw [bracketText_append] at hc
  have list := listUntil_listText hclose hlead hsep htrail s hread (offset + 1)
  rw [← hlength] at list
  unfold bracketed
  rw [bind_of_eq_some (tokenStart_apply c), bind_apply, mark_apply,
    if_pos (Cursor.token_of_mark hc hopening)]
  show (listUntil _ item >>= _) c.behind = _
  rw [Cursor.behind_of_mark hc hopening, bind_of_eq_some list, node_apply, hc]
  simp only [Cursor.before_offset, Nat.add_sub_cancel_left]

/-! ## Members of objects -/

theorem skipModifiers_of_colon {c : Cursor} {word : String} (modifiers : List String)
    (hword : c.token = .word word) (hcolon : c.behind.token = .mark ":") :
    Signature.skipModifiers modifiers (fun token => !TypeExpr.endsMemberName token) c
      = some ((), c) := by
  unfold Signature.skipModifiers
  refine bind_of_eq_some (d := c) (a := []) (many_of_none ?_)
  rw [bind_of_eq_some (peek_apply c), hword]
  show (peekSecond >>= _) c = _
  rw [bind_of_eq_some (peekSecond_apply c), hcolon]
  have hends : TypeExpr.endsMemberName (.mark ":") = true := by decide
  simp [hends, pure_apply]

theorem endsWord_colon (s : List Char) : endsWord (':' :: s) = true := by
  have hcolon : isNamePart ':' = false ∧ ':' ≠ Text.backslash := by decide
  simp [endsWord, hcolon]

theorem propertyName_of_word {g : Grammar} {c : Cursor} {word : String}
    (hword : c.token = .word word) :
    Literal.propertyName g c = leaf .propertyIdentifier c := by
  unfold Literal.propertyName
  rw [bind_of_eq_some (peek_apply c), hword]

/-- **A word with a value behind its colon is a property of that name.** -/
theorem objectMember_of_pair {g : Grammar} {key t s : List Char} {value : Node} {c : Cursor}
    {offset : Nat} (hkey : isWord key = true)
    (hc : c.front = .before offset (key ++ ':' :: ' ' :: (t ++ s)))
    (hvalue : g.expression (.before (offset + key.length + 1) (' ' :: (t ++ s)))
      = some (value, .before (offset + key.length + 2 + t.length) s)) :
    Primary.objectMember g c = some (.mk .pair .plain ⟨offset, key.length + 2 + t.length⟩
        [.mk .propertyIdentifier .key ⟨offset, key.length⟩ [], value.withRole .value],
      .before (offset + (key.length + 2 + t.length)) s) := by
  have ends := endsWord_colon (' ' :: (t ++ s))
  have htoken := Cursor.token_of_word hc hkey ends
  have hbehind := Cursor.behind_of_word hc hkey ends
  have hfront : c.behind.front = .before (offset + key.length) (':' :: ' ' :: (t ++ s)) := by
    rw [hbehind]
    exact Cursor.front_before_of_settled (settled_of_standsAlone (by decide) _) _
  have hcolon : c.behind.token = .mark ":" := Cursor.token_of_mark hfront (by decide)
  have hnext : c.behind.behind = .before (offset + key.length + 1) (' ' :: (t ++ s)) :=
    Cursor.behind_of_mark hfront (by decide)
  unfold Primary.objectMember
  rw [bind_of_eq_some (tokenStart_apply c), bind_apply, acceptMark_apply, htoken]
  simp only [reduceCtorEq, if_false]
  show (Signature.skipModifiers _ _ >>= _) c = _
  rw [bind_of_eq_some (skipModifiers_of_colon _ htoken hcolon), bind_apply, acceptMark_apply,
    htoken]
  simp only [reduceCtorEq, if_false]
  show (peek >>= _) c = _
  rw [bind_of_eq_some (peek_apply c), htoken]
  rw [bind_of_eq_some ((propertyName_of_word htoken).trans (leaf_apply _ c))]
  simp only [Bool.false_eq_true, if_false]
  rw [bind_of_eq_some (peek_apply c.behind), hcolon]
  show (mark ":" >>= _) c.behind = _
  rw [bind_apply, mark_apply, if_pos hcolon, hnext]
  show (g.expression >>= _) _ = _
  rw [bind_of_eq_some hvalue, node_apply, hbehind, hc]
  have hstop : offset + key.length + 2 + t.length = offset + (key.length + 2 + t.length) := by
    omega
  simp only [Node.withRole, Cursor.before_offset, hstop, Nat.add_sub_cancel_left]

end RouteTrim.Tree
