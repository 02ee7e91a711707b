/-!
# Texts as bytes

Files hold bytes and edits may be given in byte offsets. A text's bytes are its UTF-8 encoding;
bytes that are no such encoding have no text. `splice` cuts at byte offsets, so it fails exactly
when a cut leaves a broken character behind.
-/

set_option autoImplicit false

namespace RouteTrim.Text.Utf8

/-- The text that the bytes encode. -/
def decode? (bytes : ByteArray) : Option String :=
  String.fromUTF8? bytes

/-- An offset brought into the range `0 … size`; a negative one counts from the end. -/
def clamp (size : Nat) (offset : Int) : Nat :=
  if offset < 0 then (size + offset).toNat else min offset.toNat size

/-- The bytes in front of `start`, the replacement, and the bytes from `stop` on, as a text. -/
def splice (text : String) (start stop : Int) (replacement : String) : Option String :=
  let bytes := text.toUTF8
  decode? <|
    bytes.extract 0 (clamp bytes.size start) ++ replacement.toUTF8
      ++ bytes.extract (clamp bytes.size stop) bytes.size

end RouteTrim.Text.Utf8
