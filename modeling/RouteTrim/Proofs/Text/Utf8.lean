import RouteTrim.Text.Utf8

/-!
# Splices that cut no character

A splice whose offsets are the sizes of whole texts puts its replacement between them.
-/

set_option autoImplicit false

namespace RouteTrim.Text.Utf8

/-- A text becomes another one by a splice at the bytes of its parts. -/
structure Spliced (content patched front old new back : String) : Prop where
  before : content.toUTF8 = front.toUTF8 ++ old.toUTF8 ++ back.toUTF8
  after : patched.toUTF8 = front.toUTF8 ++ new.toUTF8 ++ back.toUTF8
  splice : splice content front.utf8ByteSize (front ++ old).utf8ByteSize new = some patched

theorem clamp_natCast {size offset : Nat} (h : offset ≤ size) : clamp size offset = offset := by
  unfold clamp
  rw [if_neg (by omega)]
  omega

theorem decode?_toUTF8 (text : String) : decode? text.toUTF8 = some text := by
  unfold decode? String.fromUTF8?
  exact dif_pos text.isValidUTF8

theorem toUTF8_of_decode? {bytes : ByteArray} {text : String} (h : decode? bytes = some text) :
    text.toUTF8 = bytes := by
  unfold decode? String.fromUTF8? at h
  split at h
  · obtain rfl := Option.some.inj h
    rfl
  · exact absurd h (by simp)

theorem spliced_append (front old new back : String) :
    Spliced (front ++ old ++ back) (front ++ new ++ back) front old new back where
  before := by simp [String.toUTF8, String.toByteArray_append]
  after := by simp [String.toUTF8, String.toByteArray_append]
  splice := by
    have size : (front ++ old ++ back).toUTF8.size
        = (front ++ old).utf8ByteSize + back.utf8ByteSize := by
      simp [String.toUTF8, String.toByteArray_append]
    have inner : front.utf8ByteSize ≤ (front ++ old).utf8ByteSize := by
      simp
    have left : (front ++ old ++ back).toUTF8.extract 0 front.utf8ByteSize = front.toUTF8 := by
      simp only [String.toUTF8, String.toByteArray_append, ByteArray.append_assoc]
      exact ByteArray.extract_append_eq_left rfl
    have right : (front ++ old ++ back).toUTF8.extract (front ++ old).utf8ByteSize
        (front ++ old ++ back).toUTF8.size = back.toUTF8 := by
      simp only [String.toUTF8, String.toByteArray_append]
      exact ByteArray.extract_append_eq_right
        (by simp) (by simp)
    have whole : front.toUTF8 ++ new.toUTF8 ++ back.toUTF8 = (front ++ new ++ back).toUTF8 := by
      simp [String.toUTF8, String.toByteArray_append]
    unfold Utf8.splice
    simp only [clamp_natCast (Nat.le_trans inner (Nat.le.intro size.symm)),
      clamp_natCast (Nat.le.intro size.symm), left, right, whole, decode?_toUTF8]

end RouteTrim.Text.Utf8
