/-!
# Searching and cutting text

Substring search, splitting at a character and joining, on lists of characters. `split` and
`joinWith` undo each other, which is how the rest of the library moves between a text and its
parts.
-/

set_option autoImplicit false

namespace RouteTrim.Text

/-- What follows `needle` at the front of the text, if the text starts with it. -/
def dropLeading? : List Char → List Char → Option (List Char)
  | [], s => some s
  | _ :: _, [] => none
  | n :: needle, c :: s => if n = c then dropLeading? needle s else none

def startsWith (needle s : List Char) : Bool :=
  (dropLeading? needle s).isSome

def endsWith (needle s : List Char) : Bool :=
  startsWith needle.reverse s.reverse

/-- The number of characters in front of the first occurrence of `needle`. -/
def indexOf? (needle : List Char) : List Char → Option Nat
  | [] => if needle.isEmpty then some 0 else none
  | c :: s => if startsWith needle (c :: s) then some 0 else (indexOf? needle s).map (· + 1)

/-- Whether `needle` occurs somewhere in the text. -/
def occursIn (needle s : List Char) : Bool :=
  (indexOf? needle s).isSome

/-- The parts of the text between the separators; a text without one is its only part. -/
def split (separator : Char) : List Char → List (List Char)
  | [] => [[]]
  | c :: s =>
    if c = separator then [] :: split separator s
    else
      match split separator s with
      | [] => [[c]]
      | part :: parts => (c :: part) :: parts

/-- The parts with the separator text between neighbours. -/
def joinWith (separator : List Char) : List (List Char) → List Char
  | [] => []
  | [part] => part
  | part :: next :: parts => part ++ separator ++ joinWith separator (next :: parts)

/-- What follows the last occurrence of the separator; the whole text if there is none. -/
def afterLast (separator : Char) (s : List Char) : List Char :=
  (s.reverse.takeWhile (· != separator)).reverse

/-- The text up to and including the last occurrence of the separator; empty if there is none. -/
def throughLast (separator : Char) (s : List Char) : List Char :=
  (s.reverse.dropWhile (· != separator)).reverse

theorem dropLeading?_eq_some {needle s rest : List Char} :
    dropLeading? needle s = some rest ↔ s = needle ++ rest := by
  induction needle generalizing s with
  | nil => simp [dropLeading?, eq_comm]
  | cons n needle ih =>
    cases s with
    | nil => simp [dropLeading?]
    | cons c s =>
      by_cases h : n = c
      · subst h; simp [dropLeading?, ih]
      · simp only [dropLeading?, h, if_false, List.cons_append, List.cons.injEq, reduceCtorEq,
          false_iff]
        exact fun hc => h hc.1.symm

theorem startsWith_iff {needle s : List Char} :
    startsWith needle s = true ↔ ∃ rest, s = needle ++ rest := by
  simp [startsWith, Option.isSome_iff_exists, dropLeading?_eq_some]

theorem endsWith_iff {needle s : List Char} : endsWith needle s = true ↔ needle <:+ s := by
  rw [endsWith, startsWith_iff, ← List.reverse_prefix]
  exact exists_congr fun rest => eq_comm

theorem occursIn_iff {needle s : List Char} : occursIn needle s = true ↔ needle <:+: s := by
  rw [occursIn]
  induction s with
  | nil =>
    rw [indexOf?, List.infix_nil]
    cases needle <;> simp
  | cons c s ih =>
    rw [indexOf?, List.infix_cons_iff, ← ih]
    split
    · next h =>
      obtain ⟨rest, h⟩ := startsWith_iff.1 h
      simp [h]
    · next h =>
      have start : ¬ needle <+: c :: s := fun ⟨rest, hrest⟩ =>
        h (startsWith_iff.2 ⟨rest, hrest.symm⟩)
      simp [start]

theorem split_ne_nil (separator : Char) (s : List Char) : split separator s ≠ [] := by
  cases s with
  | nil => simp [split]
  | cons c s =>
    rw [split]; split
    · simp
    · split <;> simp

/-- Joining the parts with the separator gives the text back. -/
theorem joinWith_split (separator : Char) (s : List Char) :
    joinWith [separator] (split separator s) = s := by
  induction s with
  | nil => rfl
  | cons c s ih =>
    rw [split]
    cases hs : split separator s with
    | nil => exact absurd hs (split_ne_nil separator s)
    | cons part parts =>
      rw [hs] at ih
      split
      · next h => subst h; simp [joinWith, ih]
      · cases parts <;> simp_all [joinWith]

theorem throughLast_append_afterLast (separator : Char) (s : List Char) :
    throughLast separator s ++ afterLast separator s = s := by
  rw [throughLast, afterLast, ← List.reverse_append, List.takeWhile_append_dropWhile,
    List.reverse_reverse]

end RouteTrim.Text
