import RouteTrim.Tree.Cursor

/-!
# Cursors by their next token

Every reading asks a cursor for little more than three things: where its next token starts, which
token that is, and where the cursor stands behind it. `front`, `token` and `behind` are these
three, and the primitives of `Parse` become equations about them, so that a reading is followed
token by token and never looks at characters.

A repetition is told by its run (`Repeats`): the fuel of `many` is one more than the characters
ahead, and a run in which every step reads a character ends before the fuel does.
-/

set_option autoImplicit false

namespace RouteTrim.Tree

namespace Cursor

/-- The cursor in front of its next token. -/
def front (c : Cursor) : Cursor :=
  c.settle.1

def token (c : Cursor) : Token :=
  (tokenAt c.front.rest).1

def behind (c : Cursor) : Cursor :=
  c.front.advance (tokenAt c.front.rest).2

end Cursor

namespace Parse

variable {α β : Type}

/-! ## The primitives -/

theorem pure_apply (a : α) (c : Cursor) : (pure a : Parse α) c = some (a, c) := rfl

/-- A sequence fails with its first reading and goes on behind it otherwise. -/
theorem bind_apply (p : Parse α) (f : α → Parse β) (c : Cursor) :
    (p >>= f) c = (p c).bind fun read => f read.1 read.2 := rfl

theorem bind_of_eq_some {p : Parse α} {f : α → Parse β} {c d : Cursor} {a : α}
    (h : p c = some (a, d)) : (p >>= f) c = f a d := by
  rw [bind_apply, h]; rfl

theorem map_apply (f : α → β) (p : Parse α) (c : Cursor) :
    (f <$> p) c = (p c).map fun read => (f read.1, read.2) := by
  show (p c).bind _ = _
  cases p c <;> rfl

theorem tokenStart_apply (c : Cursor) : tokenStart c = some (c.front.offset, c) := rfl

theorem enter_apply (c : Cursor) : enter c = some (c.front.offset, c.front) := rfl

theorem peek_apply (c : Cursor) : peek c = some (c.token, c) := rfl

theorem peekSecond_apply (c : Cursor) : peekSecond c = some (c.behind.token, c) := rfl

theorem next_apply (c : Cursor) : next c = some (c.token, c.behind) := rfl

theorem ahead_apply (c : Cursor) : ahead c = some (c.front.rest, c) := rfl

theorem characters_apply (c : Cursor) : characters c = some (c.rest, c) := rfl

theorem skip_apply (n : Nat) (c : Cursor) : skip n c = some ((), c.advance n) := rfl

theorem node_apply (kind : Kind) (start : Nat) (children : List Node) (c : Cursor) :
    node kind start children c
      = some (.mk kind .plain ⟨start, c.offset - start⟩ children, c) := rfl

theorem lineEndAhead_apply (c : Cursor) : lineEndAhead c = some (c.settle.2, c) := rfl

theorem accept_apply (token : Token) (c : Cursor) :
    accept token c = if c.token = token then some (true, c.behind) else some (false, c) := by
  unfold accept
  rw [bind_of_eq_some (peek_apply c)]
  by_cases h : c.token = token
  · rw [if_pos h, if_pos h]; rfl
  · rw [if_neg h, if_neg h]; rfl

theorem acceptMark_apply (text : String) (c : Cursor) :
    acceptMark text c
      = if c.token = .mark text then some (true, c.behind) else some (false, c) :=
  accept_apply _ c

theorem mark_apply (text : String) (c : Cursor) :
    mark text c = if c.token = .mark text then some ((), c.behind) else none := by
  unfold mark
  rw [bind_apply, acceptMark_apply]
  by_cases h : c.token = .mark text
  · rw [if_pos h, if_pos h]; rfl
  · rw [if_neg h, if_neg h]; rfl

theorem attempt_of_eq_some {p : Parse α} {c d : Cursor} {a : α} (h : p c = some (a, d)) :
    attempt p c = some (some a, d) := by
  unfold attempt; rw [h]

theorem attempt_of_eq_none {p : Parse α} {c : Cursor} (h : p c = none) :
    attempt p c = some (none, c) := by
  unfold attempt; rw [h]

/-- The next token as a node covers that token and nothing in front of it. -/
theorem leaf_apply (kind : Kind) (c : Cursor) :
    leaf kind c
      = some (.mk kind .plain ⟨c.front.offset, c.behind.offset - c.front.offset⟩ [], c.behind) :=
  rfl

/-! ## Repetitions -/

/-- The run of a repetition: its steps give values and read on until one gives nothing. -/
inductive Repeats (step : Parse (Option α)) : Cursor → List α → Cursor → Prop where
  | stop {c d : Cursor} : step c = some (none, d) → Repeats step c [] d
  | more {c c' d : Cursor} {a : α} {values : List α} : step c = some (some a, c') →
      c'.remaining < c.remaining → Repeats step c' values d → Repeats step c (a :: values) d

theorem repeatStep_of_repeats {step : Parse (Option α)} {c d : Cursor} {values : List α}
    (run : Repeats step c values d) :
    ∀ {fuel : Nat}, c.remaining < fuel → repeatStep step fuel c = some (values, d) := by
  -- Each step leaves fewer characters and one unit less of fuel, so the bound is kept.
  induction run with
  | stop last =>
    intro fuel enough
    cases fuel with
    | zero => exact absurd enough (Nat.not_lt_zero _)
    | succ fuel => unfold repeatStep; rw [bind_of_eq_some last]; rfl
  | more first fewer _ ih =>
    intro fuel enough
    cases fuel with
    | zero => exact absurd enough (Nat.not_lt_zero _)
    | succ fuel =>
      unfold repeatStep
      rw [bind_of_eq_some first]
      show (repeatStep step fuel >>= _) _ = _
      rw [bind_of_eq_some (ih (by omega))]; rfl

/-- **The fuel of a repetition is enough for its run.** -/
theorem many_of_repeats {step : Parse (Option α)} {c d : Cursor} {values : List α}
    (run : Repeats step c values d) : many step c = some (values, d) :=
  repeatStep_of_repeats run (Nat.lt_succ_self _)

theorem many_of_none {step : Parse (Option α)} {c d : Cursor} (h : step c = some (none, d)) :
    many step c = some ([], d) :=
  many_of_repeats (.stop h)

theorem iterate_of_none {step : α → Parse (Option α)} {a : α} {c d : Cursor}
    (h : step a c = some (none, d)) : iterate step a c = some (a, d) := by
  unfold iterate iterateStep
  rw [bind_of_eq_some h]; rfl

/-! ## Lists up to a closing mark -/

/-- The items between a cursor and a closing mark, with commas anywhere between them. -/
inductive Items (close : String) (item : Parse α) : Cursor → List α → Cursor → Prop where
  | done {c : Cursor} : c.token = .mark close → Items close item c [] c
  | comma {c d : Cursor} {items : List α} : c.token = .mark "," → close ≠ "," →
      c.behind.remaining < c.remaining → Items close item c.behind items d →
      Items close item c items d
  | item {c c' d : Cursor} {a : α} {items : List α} : c.token ≠ .mark close →
      c.token ≠ .mark "," → c.token ≠ .finish → item c = some (a, c') →
      c'.remaining < c.remaining → Items close item c' items d →
      Items close item c (a :: items) d

def listStep (close : String) (item : Parse α) : Parse (Option (Option α)) := do
  match ← peek with
  | .mark text =>
    if text == close then return none
    else if text == "," then
      let _ ← next
      return some none
    else return some (some (← item))
  | .finish => return none
  | _ => return some (some (← item))

theorem listUntil_eq (close : String) (item : Parse α) :
    listUntil close item = (do
      let items ← many (listStep close item)
      mark close
      return items.filterMap id) := rfl

theorem listStep_close {close : String} {item : Parse α} {c : Cursor}
    (h : c.token = .mark close) : listStep close item c = some (none, c) := by
  unfold listStep
  rw [bind_of_eq_some (peek_apply c), h]
  simp [pure_apply]

theorem listStep_comma {close : String} {item : Parse α} {c : Cursor}
    (h : c.token = .mark ",") (hclose : close ≠ ",") :
    listStep close item c = some (some none, c.behind) := by
  unfold listStep
  rw [bind_of_eq_some (peek_apply c), h]
  have open_ : ("," == close) = false := by simpa using hclose.symm
  simp only [open_, Bool.false_eq_true, if_false, beq_self_eq_true, if_true]
  rw [bind_of_eq_some (next_apply c)]; rfl

theorem listStep_item {close : String} {item : Parse α} {c d : Cursor} {a : α}
    (hclose : c.token ≠ .mark close) (hcomma : c.token ≠ .mark ",")
    (hfinish : c.token ≠ .finish) (h : item c = some (a, d)) :
    listStep close item c = some (some (some a), d) := by
  unfold listStep
  rw [bind_of_eq_some (peek_apply c)]
  cases htoken : c.token with
  | finish => exact absurd htoken hfinish
  | mark text =>
    have hne : ¬ text = close := fun e => hclose (e ▸ htoken)
    have hcomma : ¬ text = "," := fun e => hcomma (e ▸ htoken)
    simp only [beq_iff_eq, hne, hcomma, if_false]
    rw [bind_of_eq_some h]; rfl
  | word text => exact (bind_of_eq_some h).trans rfl
  | number => exact (bind_of_eq_some h).trans rfl

theorem repeats_of_items {close : String} {item : Parse α} {c d : Cursor} {items : List α}
    (list : Items close item c items d) :
    ∃ steps, Repeats (listStep close item) c steps d ∧ steps.filterMap id = items := by
  induction list with
  | done h => exact ⟨[], .stop (listStep_close h), rfl⟩
  | comma h hclose fewer _ ih =>
    obtain ⟨steps, run, found⟩ := ih
    exact ⟨none :: steps, .more (listStep_comma h hclose) fewer run, by simpa using found⟩
  | item hclose hcomma hfinish first fewer _ ih =>
    obtain ⟨steps, run, found⟩ := ih
    exact ⟨some _ :: steps, .more (listStep_item hclose hcomma hfinish first) fewer run,
      by simpa using found⟩

theorem Items.token_eq {close : String} {item : Parse α} {c d : Cursor} {items : List α}
    (list : Items close item c items d) : d.token = .mark close := by
  induction list with
  | done h => exact h
  | comma _ _ _ _ ih => exact ih
  | item _ _ _ _ _ _ ih => exact ih

/-- **A list is read up to its closing mark, with the items between the commas.** -/
theorem listUntil_of_items {close : String} {item : Parse α} {c d : Cursor} {items : List α}
    (list : Items close item c items d) :
    listUntil close item c = some (items, d.behind) := by
  obtain ⟨steps, run, rfl⟩ := repeats_of_items list
  rw [listUntil_eq, bind_of_eq_some (many_of_repeats run)]
  show (mark close >>= _) d = _
  rw [bind_apply, mark_apply, if_pos list.token_eq]; rfl

end Parse

end RouteTrim.Tree
