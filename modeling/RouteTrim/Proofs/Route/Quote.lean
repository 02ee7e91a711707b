import RouteTrim.Proofs.Tree.Token
import RouteTrim.Route.Registry
import RouteTrim.Route.RegistryReader
import RouteTrim.Tree.Literal

/-!
# A quoted text is read as the text it quotes

The writer puts a backslash in front of each quote and backslash; the reader cuts what stands
between the quotes into runs of plain characters and escapes, and drops the backslash of an escape.
The pieces of a quoted text are computed here by recursion on the text itself (`quotedPieces`), with
the length of the run that is still open as an argument: the reader closes a run only when it meets
an escape or the end, so nothing can be said about a piece before the run it belongs to is known.
-/

set_option autoImplicit false

namespace RouteTrim.Route

open RouteTrim.Text (backslash singleQuote doubleQuote)
open RouteTrim.Tree
open RouteTrim.Tree.Parse

/-- A text that stands on one line and holds no null character: what a string literal may contain
outside of its escapes. -/
def SingleLine (s : String) : Prop :=
  ∀ c ∈ s.toList, c ≠ '\r' ∧ c ≠ '\n' ∧ c.toNat ≠ 0

instance (s : String) : Decidable (SingleLine s) :=
  List.decidableBAll (fun c => c ≠ '\r' ∧ c ≠ '\n' ∧ c.toNat ≠ 0) s.toList

theorem SingleLine.breaksString {s : String} (h : SingleLine s) :
    ∀ c ∈ s.toList, Literal.breaksString c = false := by
  intro c hc
  obtain ⟨hreturn, hline, hnull⟩ := h c hc
  simp [Literal.breaksString, hreturn, hline, hnull]

/-! ## What pieces stand for -/

/-- The text that pieces of a literal stand for: an escape loses its backslash. -/
def decode : List Piece → List Char → List Char
  | [], _ => []
  | .plain n :: pieces, s => s.take n ++ decode pieces (s.drop n)
  | .escape n :: pieces, s => (s.take n).drop 1 ++ decode pieces (s.drop n)

theorem flatMap_pieceText (source : Source) (pieces : List Piece) (start : Nat) :
    (Literal.pieceNodes start pieces).flatMap (pieceText source)
      = decode pieces (source.text.drop start) := by
  induction pieces generalizing start with
  | nil => rfl
  | cons piece pieces ih =>
    have ih := ih (start + piece.length)
    rw [← List.drop_drop] at ih
    unfold Literal.pieceNodes
    rw [List.flatMap_cons, ih]
    cases piece <;> rfl

theorem decode_plainThen (n : Nat) (pieces : List Piece) (s : List Char) :
    decode (plainThen n pieces) s = s.take n ++ decode pieces (s.drop n) := by
  unfold plainThen
  split
  · next h => subst h; simp
  · rfl

/-! ## The pieces of a quoted text -/

/-- The pieces of a text behind its opening quote, with `run` plain characters in front of it. -/
def quotedPieces : Nat → List Char → List Piece
  | run, [] => plainThen run []
  | run, c :: s =>
    if c = backslash ∨ c = singleQuote then plainThen run (.escape 2 :: quotedPieces 0 s)
    else quotedPieces (run + 1) s

theorem escapeLength_of_quoted {c : Char} (h : c = backslash ∨ c = singleQuote) (s : List Char) :
    escapeLength (c :: s) = 1 := by
  rcases h with rfl | rfl <;> rfl

/-- **The reader cuts a quoted text into its pieces and stops at the closing quote.** -/
theorem piecesUntil_quoted {s : List Char} (h : ∀ c ∈ s, Literal.breaksString c = false)
    (run : Nat) (rest : List Char) :
    piecesUntil (Literal.stopsString singleQuote) run 0 0
        (s.flatMap quoteChar ++ singleQuote :: rest)
      = (quotedPieces run s, singleQuote :: rest) := by
  induction s generalizing run with
  | nil =>
    have stops : Literal.stopsString singleQuote (singleQuote :: rest) = true := by
      simp [Literal.stopsString]
    simp [piecesUntil, quotedPieces, stops]
  | cons c s ih =>
    have ih := ih fun d hd => h d (List.mem_cons_of_mem c hd)
    rw [List.flatMap_cons, List.append_assoc, quotedPieces]
    by_cases hc : c = backslash ∨ c = singleQuote
    · have goes : ∀ tail, Literal.stopsString singleQuote (backslash :: tail) = false := by
        intro tail; rfl
      rw [quoteChar, if_pos hc, if_pos hc]
      simp [piecesUntil, goes, escapeLength_of_quoted hc, ih]
    · obtain ⟨hbackslash, hquote⟩ := not_or.mp hc
      have goes : ∀ tail, Literal.stopsString singleQuote (c :: tail) = false := by
        intro tail
        simp [Literal.stopsString, hquote, h c (List.mem_cons_self ..)]
      rw [quoteChar, if_neg hc, if_neg hc]
      simp [piecesUntil, goes, hbackslash, ih]

theorem coveredLength_cons (piece : Piece) (pieces : List Piece) :
    Literal.coveredLength (piece :: pieces) = piece.length + Literal.coveredLength pieces := rfl

theorem coveredLength_plainThen (n : Nat) (pieces : List Piece) :
    Literal.coveredLength (plainThen n pieces) = n + Literal.coveredLength pieces := by
  unfold plainThen
  split
  · next h => subst h; simp
  · simp [coveredLength_cons, Piece.length]

theorem coveredLength_quotedPieces (run : Nat) (s : List Char) :
    Literal.coveredLength (quotedPieces run s) = run + (s.flatMap quoteChar).length := by
  induction s generalizing run with
  | nil => rw [quotedPieces, coveredLength_plainThen]; rfl
  | cons c s ih =>
    rw [quotedPieces, List.flatMap_cons, List.length_append, quoteChar]
    split
    · rw [coveredLength_plainThen, coveredLength_cons, ih]
      simp [Piece.length]
    · rw [ih]
      simp only [List.length_cons, List.length_nil]
      omega

/-- **The pieces of a quoted text stand for the text.** -/
theorem decode_quotedPieces (plain s rest : List Char) :
    decode (quotedPieces plain.length s) (plain ++ (s.flatMap quoteChar ++ rest)) = plain ++ s := by
  -- The open run grows by a plain character and starts anew behind an escape.
  induction s generalizing plain with
  | nil => simp [quotedPieces, decode_plainThen, decode]
  | cons c s ih =>
    rw [quotedPieces, List.flatMap_cons, quoteChar]
    split
    · have again := ih []
      simp only [List.length_nil, List.nil_append] at again
      rw [decode_plainThen, List.take_left, List.drop_left]
      simp [decode, again]
    · have again := ih (plain ++ [c])
      rw [List.length_append, List.length_singleton] at again
      simpa using again

/-! ## The literal -/

theorem quote_eq (s : String) (rest : List Char) :
    quote s ++ rest = singleQuote :: (s.toList.flatMap quoteChar ++ singleQuote :: rest) := by
  simp [quote]

theorem pieces_of_quoted {s : List Char} (h : ∀ c ∈ s, Literal.breaksString c = false)
    (offset : Nat) (rest : List Char) :
    Literal.pieces (Literal.stopsString singleQuote)
        (.before offset (s.flatMap quoteChar ++ singleQuote :: rest))
      = some (Literal.pieceNodes offset (quotedPieces 0 s),
        .before (offset + (s.flatMap quoteChar).length) (singleQuote :: rest)) := by
  have covered := coveredLength_quotedPieces 0 s
  rw [Nat.zero_add] at covered
  simp [Literal.pieces, Cursor.before, piecesUntil_quoted h, covered, Nat.add_assoc]

/-- **A quoted text is read as a string literal over its pieces.** -/
theorem string_of_quote {s : String} (h : SingleLine s) {c : Cursor} {offset : Nat}
    {rest : List Char} (hc : c.front = .before offset (quote s ++ rest)) :
    Literal.string c
      = some (.mk .string .plain ⟨offset, (quote s).length⟩
          (Literal.pieceNodes (offset + 1) (quotedPieces 0 s.toList)),
        .before (offset + (quote s).length) rest) := by
  have hlength : (quote s).length = (s.toList.flatMap quoteChar).length + 2 := by
    simp [quote]
  rw [quote_eq] at hc
  -- The reader looks ahead twice, and nothing may be skipped the second time.
  have again : c.front.front = c.front := by
    rw [hc]
    exact Cursor.front_before_of_settled (settled_of_standsAlone (by decide) _) offset
  have opened : c.front.advance 1
      = .before (offset + 1) (s.toList.flatMap quoteChar ++ singleQuote :: rest) := by
    rw [hc]; exact Cursor.advance_before offset [singleQuote] _
  have closed : Cursor.advance (.before (offset + 1 + (s.toList.flatMap quoteChar).length)
      (singleQuote :: rest)) 1 = .before (offset + (quote s).length) rest := by
    rw [hlength]
    refine (Cursor.advance_before _ [singleQuote] rest).trans ?_
    congr 1
    simp only [List.length_singleton]
    omega
  unfold Literal.string
  rw [bind_of_eq_some (enter_apply c), bind_of_eq_some (ahead_apply _), again, hc]
  simp only [Cursor.before_rest, List.head?_cons, true_or, if_true]
  rw [← hc, bind_of_eq_some (skip_apply 1 _), opened,
    bind_of_eq_some (pieces_of_quoted h.breaksString _ _),
    bind_of_eq_some (characters_apply _)]
  simp only [Literal.startsWithChar, Cursor.before_rest, List.head?_cons, beq_self_eq_true,
    Bool.not_true, Bool.false_eq_true, if_false]
  rw [bind_of_eq_some (skip_apply 1 _), closed, node_apply, hc]
  simp

end RouteTrim.Route
