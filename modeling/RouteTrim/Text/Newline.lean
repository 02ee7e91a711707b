/-!
# Line ends

Text read from disk has one spelling of a line end: a carriage return, alone or with the line
feed behind it, becomes a line feed.
-/

set_option autoImplicit false

namespace RouteTrim.Text

/-- The text with every line end written as a line feed. -/
def unifyNewlines : List Char → List Char
  | [] => []
  | '\r' :: '\n' :: s => '\n' :: unifyNewlines s
  | c :: s => (if c = '\r' then '\n' else c) :: unifyNewlines s

/-- No carriage return is left. -/
theorem not_mem_unifyNewlines (s : List Char) : '\r' ∉ unifyNewlines s := by
  fun_induction unifyNewlines s with
  | case1 => simp
  | case2 s ih => simpa using ih
  | case3 c s _ ih =>
    by_cases h : c = '\r'
    · simpa [h] using ih
    · simp only [h, if_false, List.mem_cons, not_or]
      exact ⟨fun hc => h hc.symm, ih⟩

/-- A text without carriage returns is read as it is. -/
theorem unifyNewlines_eq_self {s : List Char} (h : '\r' ∉ s) : unifyNewlines s = s := by
  fun_induction unifyNewlines s with
  | case1 => rfl
  | case2 s ih => simp at h
  | case3 c s _ ih =>
    simp only [List.mem_cons, not_or] at h
    rw [if_neg (fun hc => h.1 hc.symm), ih h.2]

end RouteTrim.Text
