import RouteTrim.Proofs.Tree.Token
import RouteTrim.Tree.Expression

/-!
# Expressions that are one literal

Between an expression and the literal it consists of lie eight readings, one for each kind of
operator that might stand around it. When the expression starts like a literal and a closing mark
follows it, none of them finds its operator, and each gives the literal on as it is. This is said
once here for any primary expression; the literals themselves follow from it.
-/

set_option autoImplicit false

namespace RouteTrim.Tree

open Parse

/-! ## Where an expression ends -/

/-- The marks that end a value: those behind an item, a list, an object and a statement. -/
def closingMarks : List String :=
  [",", "]", "\x7d", ";"]

theorem mem_closingMarks {mark : String} :
    mark ∈ closingMarks ↔ mark = "," ∨ mark = "]" ∨ mark = "\x7d" ∨ mark = ";" := by
  simp [closingMarks]

def literalTokens : List Token :=
  [.mark "\x7b", .mark "[", .mark "'", .word "null"]

/-- A cursor in front of a mark that ends a value. -/
def Cursor.Closes (c : Cursor) : Prop :=
  ∃ mark ∈ closingMarks, c.token = .mark mark

/-- A cursor in front of a plain literal. A word is one only if its value ends behind it; it might
be the parameter of an arrow function otherwise. -/
structure Cursor.OpensLiteral (c : Cursor) : Prop where
  token_mem : c.token ∈ literalTokens
  closes_behind : c.token = .word "null" → c.behind.Closes

theorem Cursor.OpensLiteral.of_mark {c : Cursor} {offset : Nat} {mark : Char} {s : List Char}
    (hmark : mark ∈ ['\x7b', '[', Text.singleQuote]) (hc : c.front = .before offset (mark :: s)) :
    c.OpensLiteral := by
  obtain ⟨halone, hmem⟩ : standsAlone mark = true ∧
      Token.mark (String.singleton mark) ∈ literalTokens := by
    simp only [List.mem_cons, List.not_mem_nil, or_false] at hmark
    rcases hmark with rfl | rfl | rfl <;> decide
  have htoken := Cursor.token_of_mark hc halone
  refine ⟨htoken ▸ hmem, fun hnull => ?_⟩
  exact absurd (htoken.symm.trans hnull) (by simp)

theorem Cursor.Closes.no_template {c : Cursor} (h : c.Closes) :
    Literal.startsWithChar Text.backQuote c.front.rest = false := by
  obtain ⟨mark, hmark, htoken⟩ := h
  cases htemplate : Literal.startsWithChar Text.backQuote c.front.rest with
  | false => rfl
  | true =>
    cases hrest : c.front.rest with
    | nil => rw [hrest] at htemplate; exact absurd htemplate (by decide)
    | cons d s =>
      have hd : d = Text.backQuote := by
        simpa [Literal.startsWithChar, hrest] using htemplate
      subst hd
      have hquote : standsAlone Text.backQuote = true := by decide
      rw [Cursor.token, hrest, tokenAt_of_standsAlone hquote] at htoken
      obtain rfl := Token.mark.inj htoken
      exact absurd hmark (by decide)

namespace Expression

variable {g : Grammar} {c d : Cursor} {node : Node}

/-! ## No operator behind a literal -/

theorem accessStep_of_closes (h : d.Closes) (start : Nat) (object : Node) :
    Access.accessStep g start object d = some (none, d) := by
  have hahead : ahead d = some (d.front.rest, d) := ahead_apply d
  have htemplate := h.no_template
  obtain ⟨mark, hmark, htoken⟩ := h
  unfold Access.accessStep
  rw [bind_of_eq_some (peek_apply d), htoken]
  rcases mem_closingMarks.1 hmark with rfl | rfl | rfl | rfl <;>
    simp [bind_of_eq_some hahead, htemplate, pure_apply]

theorem operand_of_primary (h : Primary.primary g c = some (node, d)) (hd : d.Closes) :
    Access.operand g c = some (node, d) := by
  unfold Access.operand
  rw [bind_of_eq_some (tokenStart_apply c), bind_of_eq_some h]
  exact iterate_of_none (accessStep_of_closes hd _ node)

theorem updated_of_primary (h : Primary.primary g c = some (node, d)) (hd : d.Closes) :
    updated g c = some (node, d) := by
  unfold updated
  rw [bind_of_eq_some (tokenStart_apply c), bind_of_eq_some (operand_of_primary h hd),
    bind_of_eq_some (peek_apply d)]
  obtain ⟨mark, hmark, htoken⟩ := hd
  rw [htoken]
  rcases mem_closingMarks.1 hmark with rfl | rfl | rfl | rfl <;> simp [map_apply, lineEndAhead_apply]

theorem unary_of_primary (hc : c.OpensLiteral) (h : Primary.primary g c = some (node, d))
    (hd : d.Closes) : unary g c = some (node, d) := by
  unfold unary
  rw [bind_of_eq_some (tokenStart_apply c), bind_of_eq_some (peek_apply c)]
  have plain : ∀ token ∈ literalTokens, frontKind? token = none ∧ token ≠ .mark "<" := by decide
  obtain ⟨hfront, hangle⟩ := plain c.token hc.token_mem
  rw [hfront]
  simp only [hangle, if_false]
  exact updated_of_primary h hd

theorem ahead_of_closes (h : d.Closes) :
    ∃ mark ∈ closingMarks, Operator.ahead d = some (mark, d) := by
  obtain ⟨mark, hmark, htoken⟩ := h
  refine ⟨mark, hmark, ?_⟩
  unfold Operator.ahead
  rw [bind_of_eq_some (peek_apply d), htoken]
  rcases mem_closingMarks.1 hmark with rfl | rfl | rfl | rfl <;> rfl

theorem link_of_closes (h : d.Closes) : link g d = some (none, d) := by
  obtain ⟨mark, hmark, hahead⟩ := ahead_of_closes h
  have plain : ∀ mark ∈ closingMarks, mark ≠ "as" ∧ mark ≠ "satisfies" ∧
      Operator.strength? mark = none := by decide
  obtain ⟨has, hsatisfies, hstrength⟩ := plain mark hmark
  unfold link
  rw [bind_of_eq_some hahead]
  simp [has, hsatisfies, hstrength, pure_apply]

theorem chain_of_primary (hc : c.OpensLiteral) (h : Primary.primary g c = some (node, d))
    (hd : d.Closes) : chain g c = some (node, d) := by
  unfold chain
  rw [bind_of_eq_some (unary_of_primary hc h hd),
    bind_of_eq_some (many_of_none (link_of_closes hd))]
  rfl

theorem conditional_of_primary (hc : c.OpensLiteral) (h : Primary.primary g c = some (node, d))
    (hd : d.Closes) : conditional g c = some (node, d) := by
  have hquestion : d.token ≠ .mark "?" := by
    obtain ⟨mark, hmark, htoken⟩ := hd
    have plain : ∀ mark ∈ closingMarks, Token.mark mark ≠ .mark "?" := by decide
    rw [htoken]
    exact plain mark hmark
  unfold conditional
  rw [bind_of_eq_some (tokenStart_apply c), bind_of_eq_some (chain_of_primary hc h hd),
    bind_apply, acceptMark_apply, if_neg hquestion]
  rfl

theorem assignment_of_primary (hc : c.OpensLiteral) (h : Primary.primary g c = some (node, d))
    (hd : d.Closes) : assignment g c = some (node, d) := by
  obtain ⟨mark, hmark, hahead⟩ := ahead_of_closes hd
  have plain : ∀ mark ∈ closingMarks, mark ≠ "=" ∧ Operator.augmented.contains mark = false := by
    decide
  obtain ⟨hequals, haugmented⟩ := plain mark hmark
  unfold assignment
  rw [bind_of_eq_some (tokenStart_apply c), bind_of_eq_some (conditional_of_primary hc h hd),
    bind_of_eq_some hahead]
  simp only [beq_iff_eq, hequals, haugmented, Bool.false_eq_true, if_false]
  exact pure_apply node d

/-! ## No arrow function in front of it -/

theorem arrow_of_opensLiteral (hc : c.OpensLiteral) : arrow g c = none := by
  have hmem := hc.token_mem
  unfold arrow
  rw [bind_of_eq_some (tokenStart_apply c), bind_of_eq_some (peek_apply c)]
  simp only [literalTokens, List.mem_cons, List.not_mem_nil, or_false] at hmem
  rcases hmem with htoken | htoken | htoken | htoken <;> rw [htoken]
  case inr.inr.inr =>
    -- A word may be a parameter, so the token behind it decides.
    obtain ⟨mark, hmark, hbehind⟩ := hc.closes_behind htoken
    show (peekSecond >>= _) c = none
    rw [bind_of_eq_some (peekSecond_apply c), hbehind]
    rcases mem_closingMarks.1 hmark with rfl | rfl | rfl | rfl <;> rfl
  all_goals rfl

/-- **An expression that starts like a literal and that a closing mark follows is its primary
expression.** -/
theorem expression_of_primary (hc : c.OpensLiteral) (h : Primary.primary g c = some (node, d))
    (hd : d.Closes) : expression g c = some (node, d) := by
  have hyield : c.token ≠ .word "yield" := by
    have plain : ∀ token ∈ literalTokens, token ≠ .word "yield" := by decide
    exact plain c.token hc.token_mem
  unfold expression
  rw [bind_of_eq_some (peek_apply c), if_neg hyield,
    bind_of_eq_some (attempt_of_eq_none (arrow_of_opensLiteral hc))]
  exact assignment_of_primary hc h hd

end Expression

end RouteTrim.Tree
