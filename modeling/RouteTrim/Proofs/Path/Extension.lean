import Mathlib.Data.List.TakeWhile
import RouteTrim.Proofs.Path.Normal

/-!
# Extensions of paths

A path is cut behind its last slash, and the name behind it in front of its last dot, unless that
dot is one of those that lead the name. So a name whose first other character stands in front of a
dot has an extension, and a file in a folder keeps that folder whatever its extension is replaced
by.
-/

set_option autoImplicit false

namespace RouteTrim.Text

/-! ## The last separator -/

section

variable {separator : Char} {front back s : List Char}

theorem afterLast_append (h : separator ∉ back) :
    afterLast separator (front ++ separator :: back) = back := by
  have whole : ∀ c ∈ back.reverse, (c != separator) = true := fun c hc =>
    bne_iff_ne.2 fun same => h (same ▸ List.mem_reverse.1 hc)
  rw [afterLast, List.reverse_append, List.reverse_cons, List.append_assoc,
    List.takeWhile_append_of_pos whole]
  simp

theorem throughLast_append (h : separator ∉ back) :
    throughLast separator (front ++ separator :: back) = front ++ [separator] := by
  have parts := throughLast_append_afterLast separator (front ++ separator :: back)
  rw [afterLast_append h] at parts
  exact List.append_cancel_right (parts.trans (List.append_cons ..))

theorem afterLast_of_not_mem (h : separator ∉ s) : afterLast separator s = s := by
  have whole : ∀ c ∈ s.reverse, (c != separator) = true := fun c hc =>
    bne_iff_ne.2 fun same => h (same ▸ List.mem_reverse.1 hc)
  rw [afterLast, List.takeWhile_eq_self_iff.2 whole, List.reverse_reverse]

theorem throughLast_of_not_mem (h : separator ∉ s) : throughLast separator s = [] := by
  have parts := throughLast_append_afterLast separator s
  rw [afterLast_of_not_mem h] at parts
  exact List.append_left_eq_self.1 parts

theorem exists_last (h : separator ∈ s) : ∃ front back, s = front ++ separator :: back ∧
    separator ∉ back := by
  obtain ⟨back, front, hs, absent⟩ := List.eq_append_cons_of_mem (List.mem_reverse.2 h)
  refine ⟨front.reverse, back.reverse, ?_, fun hmem => absent (List.mem_reverse.1 hmem)⟩
  have := congrArg List.reverse hs
  simpa using this

end

end RouteTrim.Text

namespace RouteTrim.Path

open RouteTrim.Text

theorem splitExtension_append (path : List Char) :
    (splitExtensionChars path).1 ++ (splitExtensionChars path).2 = path := by
  unfold splitExtensionChars
  dsimp only
  split
  · next dotted =>
    have word := List.takeWhile_append_dropWhile (p := (· == '.')) (l := afterLast '/' path)
    obtain ⟨front, back, hword, absent⟩ := exists_last (List.contains_iff_mem.1 dotted)
    rw [hword, throughLast_append absent, afterLast_append absent, List.dropLast_concat,
      List.append_assoc, ← hword, List.append_assoc, word]
    exact throughLast_append_afterLast '/' path
  · exact List.append_nil path

theorem splitExtension_file (folder : List Char) {name : List Char} (slashless : '/' ∉ name) :
    (splitExtensionChars (folder ++ '/' :: name)).1
      = folder ++ '/' :: (splitExtensionChars name).1 := by
  unfold splitExtensionChars
  rw [throughLast_append slashless, afterLast_append slashless, throughLast_of_not_mem slashless,
    afterLast_of_not_mem slashless]
  dsimp only
  split <;> simp

theorem visible_stem {name : List Char} (slashless : '/' ∉ name) (visible : ∃ c ∈ name, c ≠ '.') :
    ∃ c ∈ (splitExtensionChars name).1, c ≠ '.' := by
  unfold splitExtensionChars
  rw [throughLast_of_not_mem slashless, afterLast_of_not_mem slashless]
  dsimp only
  split
  · next dotted =>
    obtain ⟨front, back, hword, absent⟩ := exists_last (List.contains_iff_mem.1 dotted)
    rw [hword, throughLast_append absent, List.dropLast_concat]
    cases front with
    | nil =>
      -- The dots that lead the name are gone, so the last dot does not come first.
      have first := List.head?_dropWhile_not (· == '.') name
      rw [hword] at first
      exact absurd first (by simp)
    | cons c front =>
      have first := List.head?_dropWhile_not (· == '.') name
      rw [hword] at first
      exact ⟨c, by simp, by simpa using first⟩
  · exact visible

theorem splitExtension_name {stem extension : List Char}
    (slashless : '/' ∉ stem ++ '.' :: extension) (visible : ∃ c ∈ stem, c ≠ '.')
    (undotted : '.' ∉ extension) : (splitExtensionChars (stem ++ '.' :: extension)).1 = stem := by
  have more : ¬(stem.dropWhile (· == '.')).isEmpty = true := by
    simpa [List.dropWhile_eq_nil_iff] using visible
  have word : (stem ++ '.' :: extension).dropWhile (· == '.')
      = stem.dropWhile (· == '.') ++ '.' :: extension := by
    rw [List.dropWhile_append, if_neg more]
  have dots : (stem ++ '.' :: extension).takeWhile (· == '.') = stem.takeWhile (· == '.') := by
    have whole := List.takeWhile_append_dropWhile (p := (· == '.')) (l := stem ++ '.' :: extension)
    rw [word, ← List.append_assoc] at whole
    have own := List.takeWhile_append_dropWhile (p := (· == '.')) (l := stem)
    exact List.append_cancel_right ((List.append_cancel_right whole).trans own.symm)
  have dotted : (stem.dropWhile (· == '.') ++ '.' :: extension).contains '.' = true := by simp
  unfold splitExtensionChars
  rw [throughLast_of_not_mem slashless, afterLast_of_not_mem slashless]
  dsimp only
  rw [word, dots, if_pos dotted, throughLast_append undotted, List.dropLast_concat,
    List.nil_append, List.takeWhile_append_dropWhile]

theorem mem_changeExtension {path extension : String} {c : Char}
    (h : c ∈ (changeExtension path extension).toList) : c ∈ path.toList ∨ c ∈ extension.toList := by
  rw [changeExtension, String.toList_ofList, List.mem_append] at h
  refine h.imp_left fun stem => ?_
  rw [← splitExtension_append path.toList]
  exact List.mem_append_left _ stem

end RouteTrim.Path
