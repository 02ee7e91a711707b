import RouteTrim.Proofs.Tree.Cursor

/-!
# Tokens in a known text

What a cursor meets when the characters ahead of it are known: blanks are passed over, a mark that
no longer mark starts with is a token of its own, and a word goes as far as its characters do.
`Cursor.before` is the cursor of which the offset and the characters ahead are known, and a text is
read by asking it for `front`, `token` and `behind` again and again.
-/

set_option autoImplicit false

namespace RouteTrim.Tree

open RouteTrim.Text (backslash dropLeading? startsWith)

/-! ## Blanks -/

/-- Whether a text starts with something that is neither blank nor comment. -/
def settled : List Char → Bool
  | [] => true
  | c :: _ => !isSpacing c && c != '/'

theorem skipTrivia_settled {s : List Char} (h : settled s = true) (n : Nat) (b : Bool) :
    skipTrivia .between n b s = (⟨n, b⟩, s) := by
  unfold skipTrivia
  split <;> simp_all [settled]

theorem skipTrivia_blank {c : Char} (h : isSpacing c = true) (n : Nat) (b : Bool)
    (s : List Char) :
    skipTrivia .between n b (c :: s) = skipTrivia .between (n + 1) (b || isLineEnd c) s := by
  have hslash : c ≠ '/' := by
    rintro rfl
    exact absurd h (by decide)
  rw [skipTrivia.eq_def]
  split <;> simp_all

/-- Blanks are passed over one by one. -/
theorem skipTrivia_gap {gap s : List Char} (hgap : gap.all isSpacing = true)
    (hs : settled s = true) (n : Nat) (b : Bool) :
    ∃ lineEnd, skipTrivia .between n b (gap ++ s) = (⟨n + gap.length, lineEnd⟩, s) := by
  induction gap generalizing n b with
  | nil => exact ⟨b, skipTrivia_settled hs n b⟩
  | cons c gap ih =>
    simp only [List.all_cons, Bool.and_eq_true] at hgap
    obtain ⟨hc, hgap⟩ := hgap
    obtain ⟨lineEnd, h⟩ := ih hgap (n + 1) (b || isLineEnd c)
    refine ⟨lineEnd, ?_⟩
    rw [List.cons_append, skipTrivia_blank hc, h, List.length_cons, Nat.add_assoc, Nat.add_comm 1]

/-! ## Marks -/

/-- A mark that is a token of its own whatever follows it. -/
def standsAlone (c : Char) : Bool :=
  marks.contains c && c != '.' && c != backslash && c != '/'
    && longMarks.all fun mark => mark.toList.head?.any fun first => first != c

theorem markAt_of_standsAlone {c : Char} (h : standsAlone c = true) (s : List Char) :
    markAt c s = String.singleton c := by
  have none_longer : longMarks.find? (fun mark => startsWith mark.toList (c :: s)) = none := by
    rw [List.find?_eq_none]
    intro mark hmark hstarts
    simp only [standsAlone, Bool.and_eq_true, List.all_eq_true] at h
    have other := h.2 mark hmark
    obtain ⟨rest, hrest⟩ := Text.startsWith_iff.mp hstarts
    cases htext : mark.toList with
    | nil => rw [htext] at other; exact absurd other (by simp)
    | cons first text =>
      rw [htext] at hrest other
      obtain ⟨rfl, -⟩ := List.cons.inj hrest
      exact absurd other (by simp)
  unfold markAt
  rw [none_longer]

theorem mark_classes {c : Char} (h : marks.contains c = true) :
    isNamePart c = false ∧ c.isDigit = false ∧ isSpacing c = false := by
  have hall : (marks.all fun c => !isNamePart c && !c.isDigit && !isSpacing c) = true := by decide
  have hmark := List.all_eq_true.1 hall c (by simpa using h)
  simp only [Bool.and_eq_true, Bool.not_eq_true'] at hmark
  exact ⟨hmark.1.1, hmark.1.2, hmark.2⟩

/-- No identifier starts at a character that is neither part of one nor a backslash. -/
theorem nameEscape?_eq_none {c : Char} (h : c ≠ backslash) (s : List Char) :
    nameEscape? (c :: s) = none := by
  unfold nameEscape?
  split <;> simp_all

theorem startsName_of_mark {c : Char} (h : marks.contains c = true) (hslash : c ≠ backslash)
    (s : List Char) : startsName (c :: s) = false := by
  simp only [startsName, isNameStart, (mark_classes h).1, nameEscape?_eq_none hslash,
    Bool.false_and, Option.isSome_none, Bool.or_self]

theorem tokenAt_of_standsAlone {c : Char} (h : standsAlone c = true) (s : List Char) :
    tokenAt (c :: s) = (.mark (String.singleton c), 1) := by
  have hparts := h
  simp only [standsAlone, Bool.and_eq_true, bne_iff_ne] at hparts
  obtain ⟨⟨⟨⟨hmark, hpoint⟩, hbackslash⟩, -⟩, -⟩ := hparts
  have number : (c.isDigit || (c == '.' && s.head?.any Char.isDigit)) = false := by
    rw [(mark_classes hmark).2.1, beq_false_of_ne hpoint]; rfl
  unfold tokenAt
  simp only [number, startsName_of_mark hmark hbackslash, Bool.false_eq_true, if_false,
    markAt_of_standsAlone h]
  simp

theorem settled_of_standsAlone {c : Char} (h : standsAlone c = true) (s : List Char) :
    settled (c :: s) = true := by
  simp only [standsAlone, Bool.and_eq_true, bne_iff_ne] at h
  obtain ⟨⟨⟨⟨hmark, -⟩, -⟩, hslash⟩, -⟩ := h
  simp [settled, (mark_classes hmark).2.2, hslash]

/-! ## Words -/

/-- The characters of a word: parts of a name, the first of them no digit. -/
def isWord (w : List Char) : Bool :=
  w.all isNamePart && w.head?.any fun c => !c.isDigit && c != '.'

def endsWord : List Char → Bool
  | [] => true
  | c :: _ => !isNamePart c && c != backslash

theorem nameLength_word {w s : List Char} (hw : w.all isNamePart = true)
    (hs : endsWord s = true) : nameLength 0 (w ++ s) = w.length := by
  induction w with
  | nil =>
    cases s with
    | nil => rfl
    | cons c s =>
      simp only [endsWord, Bool.and_eq_true, Bool.not_eq_true', bne_iff_ne] at hs
      simp [nameLength, hs.1, nameEscape?_eq_none hs.2]
  | cons c w ih =>
    simp only [List.all_cons, Bool.and_eq_true] at hw
    rw [List.cons_append, nameLength, if_pos hw.1, ih hw.2, List.length_cons, Nat.add_comm]

theorem tokenAt_word {w s : List Char} (hw : isWord w = true) (hs : endsWord s = true) :
    tokenAt (w ++ s) = (.word (String.ofList w), w.length) := by
  simp only [isWord, Bool.and_eq_true] at hw
  obtain ⟨hpart, hhead⟩ := hw
  have hlength := nameLength_word hpart hs
  cases w with
  | nil => exact absurd hhead (by simp)
  | cons c w =>
    simp only [List.head?_cons, Option.any_some, Bool.and_eq_true, Bool.not_eq_true',
      bne_iff_ne] at hhead
    obtain ⟨hdigit, hpoint⟩ := hhead
    have number : (c.isDigit || (c == '.' && (w ++ s).head?.any Char.isDigit)) = false := by
      rw [hdigit, beq_false_of_ne hpoint]; rfl
    have hstart : startsName (c :: (w ++ s)) = true := by
      simp only [List.all_cons, Bool.and_eq_true] at hpart
      simp [startsName, isNameStart, hpart.1, hdigit]
    rw [List.cons_append] at hlength ⊢
    unfold tokenAt
    simp only [number, Bool.false_eq_true, if_false, hstart, if_true, hlength]
    rw [← List.cons_append, List.take_left]

theorem isSpacing_of_isNamePart {c : Char} (h : isNamePart c = true) : isSpacing c = false := by
  cases hspacing : isSpacing c with
  | false => rfl
  | true =>
    simp only [isNamePart, hspacing, Bool.not_true, Bool.and_false, Bool.false_and, Bool.or_false,
      Bool.or_eq_true, beq_iff_eq] at h
    rcases h with (h | rfl) | rfl
    · have upper : c.isUpper = decide (65 ≤ c.val ∧ c.val ≤ 90) := rfl
      have lower : c.isLower = (decide (97 ≤ c.val) && decide (c.val ≤ 122)) := rfl
      have alphanumeric : c.isAlphanum = ((c.isUpper || c.isLower) || c.isDigit) := rfl
      rw [alphanumeric, upper, lower] at h
      simp [isSpacing, Char.isDigit, UInt32.le_iff_toNat_le] at hspacing h
      omega
    · exact absurd hspacing (by decide)
    · exact absurd hspacing (by decide)

theorem settled_word {w s : List Char} (hw : isWord w = true) : settled (w ++ s) = true := by
  simp only [isWord, Bool.and_eq_true] at hw
  obtain ⟨hpart, hhead⟩ := hw
  cases w with
  | nil => exact absurd hhead (by simp)
  | cons c w =>
    simp only [List.all_cons, Bool.and_eq_true] at hpart
    have hslash : c ≠ '/' := by
      rintro rfl
      exact absurd hpart.1 (by decide)
    simp [settled, isSpacing_of_isNamePart hpart.1, hslash]

/-! ## Cursors in a known text -/

namespace Cursor

/-- The cursor at an offset, with a known rest of its file ahead. -/
def before (offset : Nat) (rest : List Char) : Cursor :=
  ⟨offset + rest.length, offset, rest⟩

@[simp] theorem before_offset (offset : Nat) (rest : List Char) :
    (before offset rest).offset = offset := rfl

@[simp] theorem before_rest (offset : Nat) (rest : List Char) :
    (before offset rest).rest = rest := rfl

@[simp] theorem remaining_before (offset : Nat) (rest : List Char) :
    (before offset rest).remaining = rest.length :=
  Nat.add_sub_cancel_left offset rest.length

theorem advance_before (offset : Nat) (t rest : List Char) :
    (before offset (t ++ rest)).advance t.length = before (offset + t.length) rest := by
  simp [before, advance, Nat.add_assoc]

/-- Blanks ahead of a cursor do not count. -/
theorem front_before {gap s : List Char} (hgap : gap.all isSpacing = true)
    (hs : settled s = true) (offset : Nat) :
    (before offset (gap ++ s)).front = before (offset + gap.length) s := by
  obtain ⟨lineEnd, h⟩ := skipTrivia_gap hgap hs 0 false
  simp [front, settle, before, h, Nat.add_assoc]

theorem front_before_of_settled {s : List Char} (hs : settled s = true) (offset : Nat) :
    (before offset s).front = before offset s :=
  front_before (rfl : ([] : List Char).all isSpacing = true) hs offset

theorem front_before_blank {s : List Char} (hs : settled s = true) (offset : Nat) :
    (before offset (' ' :: s)).front = before (offset + 1) s :=
  front_before (by decide : [' '].all isSpacing = true) hs offset

theorem remaining_front_le (c : Cursor) : c.front.remaining ≤ c.remaining := by
  simp only [front, settle, remaining]
  omega

section

variable {c : Cursor} {offset : Nat}

theorem token_of_mark {m : Char} {s : List Char} (h : c.front = before offset (m :: s))
    (hm : standsAlone m = true) : c.token = .mark (String.singleton m) := by
  simp [token, h, tokenAt_of_standsAlone hm]

theorem behind_of_mark {m : Char} {s : List Char} (h : c.front = before offset (m :: s))
    (hm : standsAlone m = true) : c.behind = before (offset + 1) s := by
  simp only [behind, h, before_rest, tokenAt_of_standsAlone hm]
  exact advance_before offset [m] s

theorem token_of_word {w s : List Char} (h : c.front = before offset (w ++ s))
    (hw : isWord w = true) (hs : endsWord s = true) : c.token = .word (String.ofList w) := by
  simp [token, h, tokenAt_word hw hs]

theorem behind_of_word {w s : List Char} (h : c.front = before offset (w ++ s))
    (hw : isWord w = true) (hs : endsWord s = true) :
    c.behind = before (offset + w.length) s := by
  simp only [behind, h, before_rest, tokenAt_word hw hs]
  exact advance_before offset w s

theorem front_before_mark {gap : List Char} (hgap : gap.all isSpacing = true) {m : Char}
    (hm : standsAlone m = true) (s : List Char) :
    (before offset (gap ++ m :: s)).front = before (offset + gap.length) (m :: s) :=
  front_before hgap (settled_of_standsAlone hm s) offset

end

end Cursor

end RouteTrim.Tree
