import Mathlib.Data.List.TakeWhile
import RouteTrim.Proofs.Json.Reader

/-!
# What is beyond the limits of a host

A host sets how many lists may stand in one another and how many digits an integer may have. Both
limits are met exactly: what reaches them is read, and one list more, or one digit more, is beyond
them (`read_nested`, `read_digits`). Neither text breaks a rule of JSON.

A surrogate without a partner is no fault at all. It is read as a character that stands for no other
one, so two names that differ in such surrogates stay two names (`eq_of_unitChar`).
-/

set_option autoImplicit false

namespace RouteTrim.Json

/-! ## Nested lists -/

/-- The brackets of lists that stand in one another. The innermost one is empty. -/
def brackets (n : Nat) : List Char :=
  List.replicate (n + 1) '[' ++ List.replicate (n + 1) ']'

def nested : Nat → Value
  | 0 => .list []
  | n + 1 => .list [nested n]

theorem mem_brackets {n : Nat} {c : Char} (h : c ∈ brackets n) : c = '[' ∨ c = ']' :=
  (List.mem_append.1 h).imp List.eq_of_mem_replicate List.eq_of_mem_replicate

theorem brackets_succ (n : Nat) (rest : List Char) :
    brackets (n + 1) ++ rest = '[' :: (brackets n ++ ']' :: rest) := by
  rw [brackets, brackets, List.replicate_succ, List.replicate_succ' (n := n + 1)]
  simp

section

variable [Host]

theorem value_brackets {fuel n : Nat} (enough : 2 * n < fuel) (level : Nat) (rest : List Char) :
    value fuel level (brackets n ++ rest)
      = if n < level then .ok (nested n, rest) else .error .beyondLimits := by
  induction n generalizing fuel level rest with
  | zero =>
    obtain ⟨fuel, rfl⟩ := Nat.exists_eq_add_one_of_ne_zero (Nat.ne_zero_of_lt enough)
    cases level <;> rfl
  | succ n ih =>
    obtain ⟨fuel, rfl⟩ : ∃ more, fuel = more + 1 + 1 := ⟨fuel - 2, by omega⟩
    rw [brackets_succ]
    cases level with
    | zero => rfl
    | succ level =>
      have inner := @ih fuel (by omega) level (']' :: rest)
      have list : items (fuel + 1) level (brackets n ++ ']' :: rest)
          = if n < level then .ok ([nested n], rest) else .error .beyondLimits := by
        rw [items, inner]
        split <;> rfl
      have whole : value (fuel + 1 + 1) (level + 1) ('[' :: (brackets n ++ ']' :: rest))
          = items (fuel + 1) level (brackets n ++ ']' :: rest)
            >>= fun found => .ok (.list found.1, found.2) := rfl
      rw [whole, list]
      by_cases h : n < level
      · rw [if_pos h, if_pos (Nat.succ_lt_succ h)]
        rfl
      · rw [if_neg h, if_neg fun more => h (Nat.lt_of_succ_lt_succ more)]
        rfl

/-- **Lists are read down to the depth of the host**, and one more is beyond its limits. -/
theorem read_nested (n : Nat) :
    read (String.ofList (brackets n))
      = if n < Host.depth then .ok (nested n) else .error .beyondLimits := by
  have start : skipSpace (brackets n) = brackets n := rfl
  have enough : 2 * n < (brackets n).length + 1 := by
    rw [brackets, List.length_append, List.length_replicate, List.length_replicate]
    omega
  have found := value_brackets enough Host.depth []
  rw [List.append_nil] at found
  rw [read, String.toList_ofList]
  dsimp only
  rw [start, found]
  split <;> rfl

end

/-! ## Long integers -/

/-- The digits of an integer, with no sign and no zero in front. -/
structure AreDigits (s : List Char) : Prop where
  digits : ∀ c ∈ s, c.isDigit = true
  first : ∃ c rest, s = c :: rest ∧ c ∈ "123456789".toList

section

variable {s : List Char}

theorem wholeDigits?_of_areDigits (h : AreDigits s) : wholeDigits? s = some (s, []) := by
  obtain ⟨c, rest, rfl, hc⟩ := h.first
  unfold wholeDigits?
  split
  · next zero =>
    obtain ⟨rfl, -⟩ := List.cons.inj zero
    exact absurd hc (by decide)
  · have all := List.takeWhile_eq_self_iff.2 h.digits
    have none := List.dropWhile_eq_nil_iff.2 h.digits
    simp [all, none]

variable [Host]

theorem number_of_areDigits (h : AreDigits s) :
    number false s = if s.length ≤ Host.digits then
      .ok (.int (Nat.ofDigitChars 10 s 0 : Nat), []) else .error Unread.beyondLimits := by
  rw [number, wholeDigits?_of_areDigits h]
  show (if Host.digits < s.length then Except.error Unread.beyondLimits
    else Except.ok (Value.int (Nat.ofDigitChars 10 s 0 : Nat), [])) = _
  by_cases short : s.length ≤ Host.digits
  · rw [if_pos short, if_neg (Nat.not_lt.2 short)]
  · rw [if_neg short, if_pos (Nat.not_le.1 short)]

/-- **An integer is read up to the host's number of digits**, and one more is beyond its limits. -/
theorem read_digits (h : AreDigits s) :
    read (String.ofList s) = if s.length ≤ Host.digits then
      .ok (.int (Nat.ofDigitChars 10 s 0 : Nat)) else .error .beyondLimits := by
  have own := number_of_areDigits h
  obtain ⟨c, rest, rfl, hc⟩ := h.first
  have scanned (fuel level : Nat) : skipSpace (c :: rest) = c :: rest ∧
      value (fuel + 1) level (c :: rest) = number false (c :: rest) := by
    simp only [String.reduceToList, List.mem_cons, List.not_mem_nil, or_false] at hc
    rcases hc with rfl | rfl | rfl | rfl | rfl | rfl | rfl | rfl | rfl <;> exact ⟨rfl, rfl⟩
  obtain ⟨start, found⟩ := scanned (c :: rest).length Host.depth
  rw [read, String.toList_ofList]
  dsimp only
  rw [start, found, own]
  split <;> rfl

/-! ## Surrogates without a partner -/

/-- Surrogates without a partner are read apart. -/
theorem eq_of_unitChar {unit other : Nat} (hunit : isSurrogate unit = true)
    (hother : isSurrogate other = true)
    (same : (unitChar unit []).1 = (unitChar other []).1) : unit = other := by
  have alone {unit : Nat} (h : isSurrogate unit = true) : (unitChar unit []).1
      = Host.standIn unit := by
    unfold unitChar
    split <;> rfl
  rw [alone hunit, alone hother] at same
  exact Host.apart hunit hother same

end

end RouteTrim.Json
