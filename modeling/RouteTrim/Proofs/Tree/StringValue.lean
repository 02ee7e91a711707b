import RouteTrim.Json.Reader
import RouteTrim.Text.Blank
import RouteTrim.Tree.Lexical

/-!
# What a string literal evaluates to

The engine that runs a file sees the value of a string literal, not its text. The value is a
sequence of UTF-16 code units, since an escape may write half of a surrogate pair. Only literals
between single or double quotes are evaluated here; a literal that the language refuses (a line end
in it, an escape without its digits, a code point beyond the last one) has no value.

How much a value says is measured by its `visible` units, the ones that are neither blank nor a
quote. An escape never has more of them than what stands behind its backslash, and the backslash is
visible itself. So the measure falls with every escape that is evaluated, and taking quotes and
outer blanks away leaves it alone: this is how a text is told from the value of its literal.
-/

set_option autoImplicit false

namespace RouteTrim.Tree.StringValue

open RouteTrim.Json (hexValue?)
open RouteTrim.Text (backslash doubleQuote dropRightWhile isBlank isQuote singleQuote trim)
open RouteTrim.Tree.escapeLength (isOctal)

/-! ## Code units -/

def units (code : Nat) : List Nat :=
  if code < 0x10000 then [code]
  else [0xD800 + (code - 0x10000) / 0x400, 0xDC00 + (code - 0x10000) % 0x400]

/-- The UTF-16 code units of a text. -/
def unitsOf (s : List Char) : List Nat :=
  s.flatMap fun c => units c.toNat

@[simp] theorem unitsOf_nil : unitsOf [] = [] := rfl

@[simp] theorem unitsOf_cons (c : Char) (s : List Char) :
    unitsOf (c :: s) = units c.toNat ++ unitsOf s := List.flatMap_cons

@[simp] theorem unitsOf_append (s t : List Char) : unitsOf (s ++ t) = unitsOf s ++ unitsOf t :=
  List.flatMap_append

/-! ## Escapes -/

def hexNumber? (digits : List Char) : Option Nat :=
  digits.foldlM (fun n c => (hexValue? c).map (16 * n + ·)) 0

/-- The code unit that a fixed number of hexadecimal digits write, and what follows them. -/
def fixedUnit? (width : Nat) (s : List Char) : Option (List Nat × List Char) :=
  if s.length < width then none
  else (hexNumber? (s.take width)).map fun unit => ([unit], s.drop width)

/-- The units of the code point that hexadecimal digits write up to the closing brace, and what
follows it. -/
def bracedUnits? (s : List Char) : Option (List Nat × List Char) :=
  let digits := s.takeWhile (· != '\x7d')
  match s.dropWhile (· != '\x7d') with
  | [] => none
  | _ :: rest =>
    if digits.isEmpty then none
    else
      match hexNumber? digits with
      | some code => if code ≤ 0x10FFFF then some (units code, rest) else none
      | none => none

/-- The octal digits of an escape that starts with one: three of them at most, and no number beyond
the last one of a byte. -/
def octalDigits (c : Char) (s : List Char) : List Char :=
  c :: (s.take (if c ≤ '3' then 2 else 1)).takeWhile isOctal

/-- The code unit of each escape that is a letter. -/
def letters : List (Char × Nat) :=
  [('b', 0x08), ('t', 0x09), ('n', 0x0A), ('v', 0x0B), ('f', 0x0C), ('r', 0x0D)]

/-- The units of the escape whose text behind the backslash is at the front, and what follows it.
An escaped line end stands for nothing, and a character without a meaning of its own for itself. -/
def escape? : List Char → Option (List Nat × List Char)
  | [] => none
  | c :: s =>
    if c = 'x' then fixedUnit? 2 s
    else if c = 'u' then
      match s with
      | '\x7b' :: s => bracedUnits? s
      | s => fixedUnit? 4 s
    else if isOctal c then
      let digits := octalDigits c s
      some ([digits.foldl (fun n d => 8 * n + (d.toNat - 48)) 0], s.drop (digits.length - 1))
    else if isLineEnd c then
      match c, s with
      | '\r', '\n' :: s => some ([], s)
      | _, s => some ([], s)
    else
      match letters.lookup c with
      | some unit => some ([unit], s)
      | none => some (units c.toNat, s)

/-! ## Visible units -/

/-- Whether a unit is neither blank nor a quote. -/
def isVisible (unit : Nat) : Bool :=
  !isBlank (Char.ofNat unit) && !isQuote (Char.ofNat unit)

/-- The number of visible units of a value. -/
def visible (value : List Nat) : Nat :=
  value.countP isVisible

@[simp] theorem visible_nil : visible [] = 0 := rfl

@[simp] theorem visible_append (v w : List Nat) : visible (v ++ w) = visible v + visible w :=
  List.countP_append

theorem visible_singleton_le (unit : Nat) : visible [unit] ≤ 1 :=
  List.countP_le_length

theorem visible_units_le (code : Nat) : visible (units code) ≤ 2 := by
  refine Nat.le_trans List.countP_le_length ?_
  unfold units
  split <;> simp

theorem units_of_lt {c : Char} (h : c.toNat < 0x10000) : units c.toNat = [c.toNat] :=
  if_pos h

theorem toNat_lt_of_isBlank {c : Char} (h : isBlank c = true) : c.toNat < 0x10000 := by
  simp only [isBlank, Bool.or_eq_true, Bool.and_eq_true, decide_eq_true_eq, beq_iff_eq] at h
  omega

theorem toNat_lt_of_isQuote {c : Char} (h : isQuote c = true) : c.toNat < 0x10000 := by
  simp only [isQuote, Bool.or_eq_true, beq_iff_eq] at h
  rcases h with (rfl | rfl) | rfl <;> decide

theorem visible_units_of_isBlank {c : Char} (h : isBlank c = true) :
    visible (units c.toNat) = 0 := by
  rw [units_of_lt (toNat_lt_of_isBlank h)]
  simp [visible, isVisible, Char.ofNat_toNat, h]

theorem visible_units_of_isQuote {c : Char} (h : isQuote c = true) :
    visible (units c.toNat) = 0 := by
  rw [units_of_lt (toNat_lt_of_isQuote h)]
  simp [visible, isVisible, Char.ofNat_toNat, h]

theorem visible_units_of_ascii {c : Char} (low : 32 < c.toNat) (high : c.toNat < 127)
    (unquoted : isQuote c = false) : visible (units c.toNat) = 1 := by
  have filled : isBlank c = false := by
    simp only [isBlank, Bool.or_eq_false_iff, Bool.and_eq_false_iff, decide_eq_false_iff_not,
      beq_eq_false_iff_ne]
    omega
  rw [units_of_lt (Nat.lt_trans high (by decide))]
  simp [visible, isVisible, Char.ofNat_toNat, filled, unquoted]

theorem visible_filter_isQuote (s : List Char) :
    visible (unitsOf (s.filter fun c => !isQuote c)) = visible (unitsOf s) := by
  induction s with
  | nil => rfl
  | cons c s ih =>
    cases quote : isQuote c with
    | true => simp [quote, ih, visible_units_of_isQuote quote]
    | false => simp [quote, ih]

theorem visible_dropWhile_isBlank (s : List Char) :
    visible (unitsOf (s.dropWhile isBlank)) = visible (unitsOf s) := by
  induction s with
  | nil => rfl
  | cons c s ih =>
    cases blank : isBlank c with
    | true => simp [blank, ih, visible_units_of_isBlank blank]
    | false => simp [blank]

theorem visible_reverse (s : List Char) :
    visible (unitsOf s.reverse) = visible (unitsOf s) :=
  ((List.reverse_perm s).flatMap_right fun c : Char => units c.toNat).countP_eq isVisible

/-- Blanks count for nothing. -/
theorem visible_trim (s : List Char) : visible (unitsOf (trim s)) = visible (unitsOf s) := by
  rw [trim, dropRightWhile, visible_reverse, visible_dropWhile_isBlank, visible_reverse,
    visible_dropWhile_isBlank]

/-! ## An escape is written with more than it says -/

/-- What an escape is written with is the front of the text behind its backslash. -/
def Spells (s rest : List Char) (value : List Nat) : Prop :=
  ∃ written, written ≠ [] ∧ s = written ++ rest ∧ visible value ≤ visible (unitsOf written)

theorem spells_one {c : Char} (hc : visible (units c.toNat) = 1) (unit n : Nat) (s : List Char) :
    Spells (c :: s) (s.drop n) [unit] := by
  refine ⟨c :: s.take n, by simp, by simp, ?_⟩
  have := visible_singleton_le unit
  rw [unitsOf_cons, visible_append]
  omega

theorem spells_fixedUnit? {c : Char} (hc : visible (units c.toNat) = 1) {width : Nat}
    {s rest : List Char} {value : List Nat} (h : fixedUnit? width s = some (value, rest)) :
    Spells (c :: s) rest value := by
  unfold fixedUnit? at h
  split at h
  · cases h
  · obtain ⟨unit, -, hunit⟩ := Option.map_eq_some_iff.1 h
    obtain ⟨rfl, rfl⟩ := Prod.mk.inj hunit
    exact spells_one hc unit width s

theorem spells_bracedUnits? {s rest : List Char} {value : List Nat}
    (h : bracedUnits? s = some (value, rest)) : Spells ('u' :: '\x7b' :: s) rest value := by
  have parts : s.takeWhile (· != '\x7d') ++ s.dropWhile (· != '\x7d') = s :=
    List.takeWhile_append_dropWhile
  simp only [bracedUnits?] at h
  split at h
  · cases h
  · next brace tail hdrop =>
    rw [hdrop] at parts
    split at h
    · cases h
    · split at h
      · next code _ =>
        split at h
        · obtain ⟨rfl, rfl⟩ := Prod.mk.inj (Option.some.inj h)
          refine ⟨['u', '\x7b'] ++ (s.takeWhile (· != '\x7d') ++ [brace]), by simp,
            by simp [parts], ?_⟩
          have front : visible (unitsOf ['u', '\x7b']) = 2 := by decide
          have := visible_units_le code
          rw [unitsOf_append, visible_append]
          omega
        · cases h
      · cases h

theorem visible_units_of_isOctal {c : Char} (h : isOctal c = true) :
    visible (units c.toNat) = 1 := by
  simp only [isOctal, Bool.and_eq_true, decide_eq_true_eq, Char.le_def, UInt32.le_iff_toNat_le] at h
  have low : 48 ≤ c.toNat := h.1
  have high : c.toNat ≤ 55 := h.2
  refine visible_units_of_ascii (by omega) (by omega) ?_
  cases quote : isQuote c with
  | false => rfl
  | true =>
    simp only [isQuote, Bool.or_eq_true, beq_iff_eq] at quote
    rcases quote with (rfl | rfl) | rfl <;> exact absurd h (by decide)

theorem visible_units_of_letters {c : Char} {unit : Nat} (h : letters.lookup c = some unit) :
    visible (units c.toNat) = 1 := by
  obtain ⟨front, back, hletters, -⟩ := List.lookup_eq_some_iff.1 h
  have all : ∀ letter ∈ letters, visible (units letter.1.toNat) = 1 := by decide
  exact all (c, unit) (by rw [hletters]; simp)

/-- **An escape says no more than what stands behind its backslash.** -/
theorem spells_escape? {s rest : List Char} {value : List Nat}
    (h : escape? s = some (value, rest)) : Spells s rest value := by
  cases s with
  | nil => cases h
  | cons c s =>
    simp only [escape?] at h
    split at h
    · next hx =>
      subst hx
      exact spells_fixedUnit? (by decide) h
    split at h
    · next hu =>
      subst hu
      split at h
      · exact spells_bracedUnits? h
      · exact spells_fixedUnit? (by decide) h
    split at h
    · next octal =>
      obtain ⟨rfl, rfl⟩ := Prod.mk.inj (Option.some.inj h)
      exact spells_one (visible_units_of_isOctal octal) ..
    split at h
    · -- A line end says nothing, so it does not matter that it is blank.
      split at h
      · obtain ⟨rfl, rfl⟩ := Prod.mk.inj (Option.some.inj h)
        exact ⟨['\r', '\n'], by simp, rfl, Nat.zero_le _⟩
      · obtain ⟨rfl, rfl⟩ := Prod.mk.inj (Option.some.inj h)
        exact ⟨[c], by simp, rfl, Nat.zero_le _⟩
    split at h
    · next unit letter =>
      obtain ⟨rfl, rfl⟩ := Prod.mk.inj (Option.some.inj h)
      exact spells_one (visible_units_of_letters letter) unit 0 s
    · -- Only here may a blank or a quote be escaped, and it stands for itself.
      obtain ⟨rfl, rfl⟩ := Prod.mk.inj (Option.some.inj h)
      exact ⟨[c], by simp, rfl, by simp⟩

theorem length_escape? {s rest : List Char} {value : List Nat}
    (h : escape? s = some (value, rest)) : rest.length < s.length := by
  obtain ⟨written, hne, rfl, -⟩ := spells_escape? h
  have := List.length_pos_iff.2 hne
  rw [List.length_append]
  omega

/-! ## Literals -/

/-- The units of a literal's text behind its opening quote; nothing may follow the closing one. -/
def bodyUnits? (quote : Char) : List Char → Option (List Nat)
  | [] => none
  | c :: s =>
    if c = quote then
      if s.isEmpty then some [] else none
    else if c = '\n' ∨ c = '\r' then none
    else if c = backslash then
      match _ : escape? s with
      | some (value, rest) => (bodyUnits? quote rest).map (value ++ ·)
      | none => none
    else (bodyUnits? quote s).map (units c.toNat ++ ·)
termination_by s => s.length
decreasing_by
  · have := length_escape? ‹_›
    simp only [List.length_cons]
    omega
  · simp

/-- The value of a string literal. -/
def evaluate? : List Char → Option (List Nat)
  | [] => none
  | quote :: s =>
    if quote = singleQuote ∨ quote = doubleQuote then bodyUnits? quote s else none

theorem evaluate?_eq_some {literal : List Char} {value : List Nat} :
    evaluate? literal = some value ↔ ∃ quote s, literal = quote :: s
      ∧ (quote = singleQuote ∨ quote = doubleQuote) ∧ bodyUnits? quote s = some value := by
  constructor
  · intro h
    cases literal with
    | nil => cases h
    | cons quote s =>
      rw [evaluate?] at h
      split at h
      · next marks => exact ⟨quote, s, rfl, marks, h⟩
      · cases h
  · rintro ⟨quote, s, rfl, marks, h⟩
    rw [evaluate?, if_pos marks, h]

@[simp] theorem bodyUnits?_close (quote : Char) : bodyUnits? quote [quote] = some [] := by
  rw [bodyUnits?]
  simp

theorem bodyUnits?_line {quote c : Char} (other : c ≠ quote) (line : c = '\n' ∨ c = '\r')
    (s : List Char) : bodyUnits? quote (c :: s) = none := by
  rw [bodyUnits?]
  simp [other, line]

theorem bodyUnits?_escape {quote : Char} (other : backslash ≠ quote) {s rest : List Char}
    {value : List Nat} (spelled : escape? s = some (value, rest)) :
    bodyUnits? quote (backslash :: s) = (bodyUnits? quote rest).map (value ++ ·) := by
  rw [bodyUnits?, if_neg other, if_neg (by decide), if_pos rfl]
  split
  · next value' rest' h =>
    obtain ⟨rfl, rfl⟩ := Prod.mk.inj (Option.some.inj (h.symm.trans spelled))
    rfl
  · next h => exact absurd (h.symm.trans spelled) (by simp)

theorem bodyUnits?_plain {quote c : Char} (other : c ≠ quote) (line : ¬(c = '\n' ∨ c = '\r'))
    (plain : c ≠ backslash) (s : List Char) :
    bodyUnits? quote (c :: s) = (bodyUnits? quote s).map (units c.toNat ++ ·) := by
  rw [bodyUnits?, if_neg other, if_neg line, if_neg plain]

/-- A value says at most what its literal's text does, and less if the text has an escape. -/
theorem visible_bodyUnits? {quote : Char} (hquote : quote ≠ backslash) (s : List Char)
    {value : List Nat} (h : bodyUnits? quote s = some value) :
    visible value ≤ visible (unitsOf s)
      ∧ (backslash ∈ s → visible value < visible (unitsOf s)) := by
  fun_induction bodyUnits? quote s generalizing value with
  | case1 => cases h
  | case2 s closed =>
    obtain rfl := List.isEmpty_iff.1 closed
    obtain rfl := Option.some.inj h
    exact ⟨Nat.zero_le _, fun escape => absurd (List.mem_singleton.1 escape).symm hquote⟩
  | case3 => cases h
  | case4 => cases h
  | case5 s spelled rest hescape _ _ ih =>
    -- What stands behind the backslash makes up for the value, so the backslash is left over.
    obtain ⟨tail, htail, rfl⟩ := Option.map_eq_some_iff.1 h
    obtain ⟨written, -, rfl, hwritten⟩ := spells_escape? hescape
    have sign : visible (units backslash.toNat) = 1 := by decide
    have := (ih htail).1
    rw [unitsOf_cons, unitsOf_append, visible_append, visible_append, visible_append, sign]
    exact ⟨by omega, fun _ => by omega⟩
  | case6 => cases h
  | case7 c s _ _ plain ih =>
    obtain ⟨tail, htail, rfl⟩ := Option.map_eq_some_iff.1 h
    obtain ⟨most, fewer⟩ := ih htail
    rw [unitsOf_cons, visible_append, visible_append]
    refine ⟨by omega, fun escape => ?_⟩
    have := fewer ((List.mem_cons.1 escape).resolve_left (Ne.symm plain))
    omega

/-- Without escapes a literal's text is its value. -/
theorem bodyUnits?_of_unescaped (quote : Char) (s : List Char) {value : List Nat}
    (h : bodyUnits? quote s = some value) (unescaped : backslash ∉ s) :
    ∃ body, s = body ++ [quote] ∧ value = unitsOf body ∧ ∀ c ∈ body, c ≠ '\n' ∧ c ≠ '\r' := by
  fun_induction bodyUnits? quote s generalizing value with
  | case1 => cases h
  | case2 s closed =>
    obtain rfl := List.isEmpty_iff.1 closed
    obtain rfl := Option.some.inj h
    exact ⟨[], rfl, rfl, List.forall_mem_nil _⟩
  | case3 => cases h
  | case4 => cases h
  | case5 => exact absurd List.mem_cons_self unescaped
  | case6 => cases h
  | case7 c s _ line _ ih =>
    obtain ⟨tail, htail, rfl⟩ := Option.map_eq_some_iff.1 h
    obtain ⟨body, rfl, rfl, oneLine⟩ := ih htail fun escape => unescaped (.tail _ escape)
    exact ⟨c :: body, rfl, (unitsOf_cons c body).symm,
      List.forall_mem_cons.2 ⟨not_or.1 line, oneLine⟩⟩

end RouteTrim.Tree.StringValue
