import RouteTrim.Text.Marks

/-!
# Text inside console markup

The console reads `[tag]` as markup when a small letter, `#`, `/` or `@` follows the bracket. A
text that must be shown as it is has every such tag escaped: the backslashes in front of it are
doubled and one more is added. A single backslash at the very end would escape what the console
prints next, so it is doubled too.
-/

set_option autoImplicit false

namespace RouteTrim.Text

/-- Whether the character behind a `[` makes a markup tag of it. -/
def opensTag (c : Char) : Bool :=
  c.isLower || c == '#' || c == '/' || c == '@'

/-- Whether a markup tag starts with the given text, its `[` taken off: a tag letter, then no
further `[` up to the closing `]`. -/
def isTagBody : List Char → Bool
  | [] => false
  | c :: s => opensTag c && (s.dropWhile fun d => d != '[' && d != ']').head? == some ']'

/-- Escapes every tag; `pending` counts the backslashes read and not yet written. -/
def escapeTags (pending : Nat) : List Char → List Char
  | [] => List.replicate pending backslash
  | c :: s =>
    if c = backslash then escapeTags (pending + 1) s
    else if c = '[' ∧ isTagBody s then
      List.replicate (2 * pending + 1) backslash ++ c :: escapeTags 0 s
    else List.replicate pending backslash ++ c :: escapeTags 0 s

def endsInLoneBackslash (s : List Char) : Bool :=
  (s.reverse.takeWhile (· == backslash)).length == 1

/-- The text as console markup that shows it unchanged. -/
def escapeMarkup (s : List Char) : List Char :=
  let escaped := escapeTags 0 s
  if endsInLoneBackslash escaped then escaped ++ [backslash] else escaped

end RouteTrim.Text
