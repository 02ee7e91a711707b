/-!
# Blanks and trimming

Blank characters are the ones Unicode marks as white space together with the four ASCII
information separators `U+001C … U+001F`. Zero-width characters (`U+200B`, the byte order mark
`U+FEFF`) are not blank, so trimming keeps them.
-/

set_option autoImplicit false

namespace RouteTrim.Text

/-- A blank: what trimming removes and what separates words. -/
def isBlank (c : Char) : Bool :=
  let code := c.toNat
  (9 ≤ code && code ≤ 13) || (28 ≤ code && code ≤ 32) || code == 0x85 || code == 0xA0
    || code == 0x1680 || (0x2000 ≤ code && code ≤ 0x200A) || code == 0x2028 || code == 0x2029
    || code == 0x202F || code == 0x205F || code == 0x3000

/-- The text without its trailing characters of a class. -/
def dropRightWhile (p : Char → Bool) (s : List Char) : List Char :=
  (s.reverse.dropWhile p).reverse

/-- The text without the blanks at its two ends. -/
def trim (s : List Char) : List Char :=
  dropRightWhile isBlank (s.dropWhile isBlank)

@[simp] theorem trim_nil : trim [] = [] := rfl

/-- Dropping from the right keeps a front part of the text. -/
theorem dropRightWhile_append (p : Char → Bool) (s : List Char) :
    ∃ t, s = dropRightWhile p s ++ t := by
  refine ⟨(s.reverse.takeWhile p).reverse, ?_⟩
  rw [dropRightWhile, ← List.reverse_append, List.takeWhile_append_dropWhile, List.reverse_reverse]

end RouteTrim.Text
