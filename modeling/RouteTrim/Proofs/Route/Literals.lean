import RouteTrim.Proofs.Route.Writing
import RouteTrim.Proofs.Tree.File

/-!
# The grammar reads literals as they are written

Wherever a plain literal stands in a text, in front of a mark that ends a value, the expression
there is its tree. So the parser that source files are read with is one that follows the grammar of
literals (`grammarParser_followsLiterals`).

The depth that the grammar needs is never counted. A literal is read by the grammar of any depth
that is at least the length of its text, and each bracket that is opened takes one character and one
level.
-/

set_option autoImplicit false

namespace RouteTrim.Route

open RouteTrim.Tree
open RouteTrim.Tree.Parse

namespace Writing

/-! ## Where a literal starts -/

theorem isWord_null : isWord "null".toList = true := by decide

section

variable {literal : Writing} {t s : List Char} {c : Cursor} {offset : Nat}

theorem length_pos_chars (literal : Writing) : 0 < literal.chars.length := by
  cases literal <;> simp only [chars, quote, bracketText, memberText, List.length_append,
    List.length_cons] <;> first | decide | omega

theorem standsAlone_opening (bracket : Bracket) : standsAlone bracket.opening = true := by
  cases bracket <;> decide

theorem closing_mem_closers (bracket : Bracket) : bracket.closing ∈ closers := by
  cases bracket <;> decide

/-- A literal starts with its first character: neither blank nor comment stands in front of it. -/
theorem settled_chars (single : literal.isPair = false) (s : List Char) :
    settled (literal.chars ++ s) = true := by
  cases literal with
  | null => exact settled_word isWord_null
  | text _ => rw [chars, quote_eq]; exact settled_of_standsAlone (by decide) _
  | pair => cases single
  | list bracket =>
    rw [chars, bracketText_append]
    exact settled_of_standsAlone (standsAlone_opening bracket) _

theorem opensLiteral (single : literal.isPair = false) (ends : EndsValue s)
    (hc : c.front = .before offset (literal.chars ++ s)) : c.OpensLiteral := by
  cases literal with
  | null =>
    have htoken := Cursor.token_of_word hc isWord_null ends.endsWord
    refine ⟨by rw [htoken]; decide, fun _ => ?_⟩
    rw [Cursor.behind_of_word hc isWord_null ends.endsWord]
    exact ends.closes _
  | text _ =>
    rw [chars, quote_eq] at hc
    exact .of_mark (by simp) hc
  | pair => cases single
  | list bracket =>
    rw [chars, bracketText_append] at hc
    exact .of_mark (by cases bracket <;> decide) hc

end

/-! ## Reading a literal -/

def ReadBy (g : Grammar) (literal : Writing) : Prop :=
  ∀ {c : Cursor} {offset : Nat} {s : List Char}, c.front = .before offset (literal.chars ++ s) →
    EndsValue s →
      g.expression c = some (literal.node offset, .before (offset + literal.chars.length) s)

section

variable {g : Grammar} {literal : Writing}

theorem readBy_of_primary (single : literal.isPair = false)
    (h : ∀ {c : Cursor} {offset : Nat} {s : List Char}, c.front = .before offset (literal.chars ++ s) →
      EndsValue s → Primary.primary g c
        = some (literal.node offset, .before (offset + literal.chars.length) s)) :
    ReadBy g.step literal := by
  intro c offset s hc ends
  exact Expression.expression_of_primary (opensLiteral single ends hc) (h hc ends) (ends.closes _)

theorem readsItem_of_element (single : literal.isPair = false) (hread : ReadBy g literal) :
    ReadsItem (Signature.spreadable g) (fun offset => literal.node offset) literal.chars where
  length_pos := length_pos_chars literal
  settled := settled_chars single
  token_ne := by
    intro c offset s hc ends token htoken
    have hmem := (opensLiteral single ends hc).token_mem
    have other : ∀ token ∈ [Token.mark ",", .mark "]", .mark "\x7d", .finish],
        ∀ first ∈ literalTokens, first ≠ token := by decide
    exact other token htoken c.token hmem
  reads := by
    intro c offset s hc ends
    have hspread : c.token ≠ .mark "..." := by
      have hmem := (opensLiteral single ends hc).token_mem
      have other : ∀ first ∈ literalTokens, first ≠ .mark "..." := by decide
      exact other c.token hmem
    unfold Signature.spreadable
    rw [bind_of_eq_some (tokenStart_apply c), bind_apply, acceptMark_apply, if_neg hspread]
    exact hread hc ends

theorem readsItem_of_member {key : String} (word : isWord key.toList = true)
    (single : literal.isPair = false) (hread : ReadBy g literal) :
    ReadsItem (Primary.objectMember g) (fun offset => (pair key literal).node offset)
      (pair key literal).chars where
  length_pos := length_pos_chars _
  settled := by
    intro s
    rw [chars, memberText, List.append_assoc]
    exact settled_word word
  token_ne := by
    intro c offset s hc ends token htoken
    rw [chars, memberText_append] at hc
    rw [Cursor.token_of_word hc word (endsWord_colon _)]
    have other : ∀ token ∈ [Token.mark ",", .mark "]", .mark "\x7d", .finish],
        ∀ word, Token.word word ≠ token := by simp
    exact other token htoken _
  reads := by
    intro c offset s hc ends
    rw [chars, memberText_append] at hc
    have hfront : Cursor.front (.before (offset + key.toList.length + 1) (' ' :: (literal.chars ++ s)))
        = .before (offset + key.toList.length + 2) (literal.chars ++ s) :=
      Cursor.front_before_blank (settled_chars single s) _
    have hlength : (pair key literal).chars.length
        = key.toList.length + 2 + literal.chars.length := by
      simp only [chars, memberText, List.length_append, List.length_cons]
      omega
    rw [node, hlength]
    exact objectMember_of_pair word hc (hread hfront ends)

theorem readBy_null : ReadBy g.step null := by
  refine readBy_of_primary rfl fun {c offset s} hc ends => ?_
  have htoken := Cursor.token_of_word hc isWord_null ends.endsWord
  have hbehind := Cursor.behind_of_word hc isWord_null ends.endsWord
  unfold Primary.primary
  rw [bind_of_eq_some (peek_apply c), htoken]
  show leaf (Primary.wordKind "null") c = _
  rw [leaf_apply, hbehind, hc]
  simp [Primary.wordKind, node, chars]

theorem readBy_text {text : String} (h : SingleLine text) : ReadBy g.step (.text text) := by
  refine readBy_of_primary rfl fun {c offset s} hc ends => ?_
  have hstring := string_of_quote h hc
  rw [chars, quote_eq] at hc
  unfold Primary.primary
  rw [bind_of_eq_some (peek_apply c), Cursor.token_of_mark hc (by decide)]
  show (attempt Literal.string >>= _) c = _
  rw [bind_of_eq_some (attempt_of_eq_some hstring), node, chars]
  rfl

theorem readBy_list {bracket : Bracket} {lead sep trail : List Char} {items : List Writing}
    {item : Parse Node} (hlead : lead.all isSpacing = true) (hsep : sep.all isSpacing = true)
    (htrail : trail.all isSpacing = true)
    (opened : ∀ {c : Cursor}, c.token = .mark (String.singleton bracket.opening) →
      Primary.primary g c = bracketed (String.singleton bracket.opening)
        (String.singleton bracket.closing) bracket.kind item c)
    (hread : ∀ entry ∈ items, ReadsItem item (fun offset => entry.node offset) entry.chars) :
    ReadBy g.step (list bracket lead sep trail items) := by
  refine readBy_of_primary rfl fun {c offset s} hc ends => ?_
  rw [chars, charsAll_eq] at hc
  have read := bracketed_bracketText (standsAlone_opening bracket) (closing_mem_closers bracket) hlead
    hsep htrail bracket.kind hread hc
  rw [bracketText_append] at hc
  rw [opened (Cursor.token_of_mark hc (standsAlone_opening bracket)), read, node, nodes_eq, chars,
    charsAll_eq]

/-- How a plain literal is read: one that stands for itself as an expression, a member as an item of
an object. -/
theorem Valid.reads (valid : literal.Valid) (texts : ∀ text ∈ literal.texts, SingleLine text)
    {depth : Nat} (deep : literal.chars.length ≤ depth) :
    (literal.isPair = false → ReadBy (.ofDepth depth) literal) ∧
      (literal.isPair = true → ReadsItem (Primary.objectMember (.ofDepth depth))
        (fun offset => literal.node offset) literal.chars) := by
  -- No literal is empty, so there is a level to read it at; items have the levels below.
  have level (literal : Writing) {depth : Nat} (deep : literal.chars.length ≤ depth) :
      ∃ below, depth = below + 1 :=
    Nat.exists_eq_succ_of_ne_zero (Nat.pos_iff_ne_zero.1 (Nat.lt_of_lt_of_le (length_pos_chars _) deep))
  induction valid generalizing depth with
  | null =>
    obtain ⟨below, rfl⟩ := level _ deep
    exact ⟨fun _ => readBy_null, fun pair => absurd pair (by decide)⟩
  | text _ =>
    obtain ⟨below, rfl⟩ := level _ deep
    exact ⟨fun _ => readBy_text (texts _ (.head _)), fun pair => absurd pair (by simp [isPair])⟩
  | @pair key v word single _ ih =>
    have within : v.chars.length ≤ depth := by
      simp only [chars, memberText, List.length_append, List.length_cons] at deep
      omega
    refine ⟨fun other => absurd other (by simp [isPair]), fun _ => ?_⟩
    exact readsItem_of_member word single ((ih texts within).1 single)
  | @list bracket lead sep trail items hlead hsep htrail kinds _ ih =>
    obtain ⟨below, rfl⟩ := level _ deep
    rw [Writing.texts, textsAll_eq] at texts
    rw [chars, charsAll_eq] at deep
    have each (item : Writing) (hitem : item ∈ items) :=
      ih item hitem (fun text htext => texts text (List.mem_flatMap.2 ⟨item, hitem, htext⟩))
        (Nat.le_of_lt_succ (Nat.lt_of_lt_of_le
          (length_lt_bracketText (List.mem_map_of_mem hitem)) deep))
    refine ⟨fun _ => ?_, fun pair => absurd pair (by simp [isPair])⟩
    cases bracket with
    | square =>
      refine readBy_list hlead hsep htrail primary_of_bracket fun item hitem => ?_
      have single : item.isPair = false := by simpa using kinds item hitem
      exact readsItem_of_element single ((each item hitem).1 single)
    | curly =>
      refine readBy_list hlead hsep htrail primary_of_brace fun item hitem => ?_
      exact (each item hitem).2 (by simpa using kinds item hitem)

end

end Writing

end RouteTrim.Route
