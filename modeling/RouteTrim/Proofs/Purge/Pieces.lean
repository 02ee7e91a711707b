import RouteTrim.Proofs.Purge.Stretch

/-!
# Cutting a text piece by piece

A text is often a row of pieces, such as statements on lines of their own. A pattern cuts it piece
by piece if it starts nowhere in some of them (`Skips`) and takes each of the others as a whole
(`Cuts`): what is left is then the row of the skipped pieces (`removeFrom_pieces`). To show that a
piece is skipped it is enough to know which stretches the pattern describes. To show that one is cut
the preferred end counts, so `Takes` follows the search, with one lemma for each kind of pattern.
-/

set_option autoImplicit false

namespace RouteTrim.Purge

/-- Two texts that are equal are equal up to the first character of a kind. -/
theorem first_unique {p : Char → Prop} {front front' back back' : List Char} {c c' : Char}
    (hfront : ∀ d ∈ front, ¬ p d) (hfront' : ∀ d ∈ front', ¬ p d) (hc : p c) (hc' : p c')
    (same : front ++ c :: back = front' ++ c' :: back') :
    front = front' ∧ c = c' ∧ back = back' := by
  induction front generalizing front' with
  | nil =>
    cases front' with
    | nil => exact ⟨rfl, List.cons.inj same⟩
    | cons d front' => exact absurd ((List.cons.inj same).1 ▸ hc) (hfront' d (by simp))
  | cons d front ih =>
    cases front' with
    | nil => exact absurd ((List.cons.inj same).1 ▸ hc') (hfront d (by simp))
    | cons d' front' =>
      obtain ⟨rfl, tails⟩ := List.cons.inj same
      have rest := ih (fun e he => hfront e (List.mem_cons_of_mem d he))
        (fun e he => hfront' e (List.mem_cons_of_mem d he)) tails
      exact ⟨congrArg (d :: ·) rest.1, rest.2⟩

/-- A word with a mark behind it that does not stand in it, and a text with a mark behind it that
does not stand in the word, cannot overlap. -/
theorem mark_in_front {c d : Char} {text word front more rest : List Char}
    (same : text ++ c :: more = front ++ (word ++ d :: rest)) (htext : d ∉ text) (hword : c ∉ word)
    (ne : c ≠ d) : ∃ back, front = text ++ c :: back ∧ more = back ++ (word ++ d :: rest) := by
  rcases List.append_eq_append_iff.1 same with ⟨m, rfl, hm⟩ | ⟨m, rfl, hm⟩
  · cases m with
    | cons e back =>
      obtain ⟨rfl, rfl⟩ := List.cons.inj hm
      exact ⟨back, rfl, rfl⟩
    | nil =>
      cases word with
      | nil => exact absurd (List.cons.inj hm).1 ne
      | cons e word => exact absurd (by simp [(List.cons.inj hm).1]) hword
  · rcases List.append_eq_append_iff.1 hm with ⟨k, rfl, hk⟩ | ⟨k, rfl, hk⟩
    · cases k with
      | nil => exact absurd (List.cons.inj hk).1.symm ne
      | cons e k => exact absurd (by simp [(List.cons.inj hk).1]) htext
    · cases k with
      | nil => exact absurd (List.cons.inj hk).1 ne
      | cons e k => exact absurd (by simp [(List.cons.inj hk).1]) hword

/-- What does not hold the last character of a text does not reach behind it. -/
theorem prefix_of_unclosed {mark : Char} {text word rest tail : List Char} (hword : mark ∉ word)
    (same : (text ++ [mark]) ++ rest = word ++ tail) :
    ∃ more, text = word ++ more ∧ tail = more ++ mark :: rest := by
  rw [List.append_assoc] at same
  rcases List.append_eq_append_iff.1 same with ⟨m, rfl, hm⟩ | ⟨m, rfl, rfl⟩
  · cases m with
    | nil => exact ⟨[], by simp, by simpa using hm.symm⟩
    | cons c m => exact absurd (by simp [(List.cons.inj hm).1]) hword
  · exact ⟨m, rfl, by simp⟩

theorem first_or_none (p : Char → Prop) (text : List Char) :
    (∀ c ∈ text, ¬ p c) ∨ ∃ front c back, text = front ++ c :: back
      ∧ (∀ d ∈ front, ¬ p d) ∧ p c := by
  induction text with
  | nil => exact .inl (by simp)
  | cons c text ih =>
    by_cases hc : p c
    · exact .inr ⟨[], c, text, rfl, by simp, hc⟩
    · rcases ih with none_ | ⟨front, d, back, rfl, hfront, hd⟩
      · exact .inl (List.forall_mem_cons.2 ⟨hc, none_⟩)
      · exact .inr ⟨c :: front, d, back, rfl, List.forall_mem_cons.2 ⟨hc, hfront⟩, hd⟩

namespace Pattern

-- What holds of all characters of a text, or of the one that may be there, is decided by looking at
-- those. For a finite type an instance that goes through all of its members may be in scope as
-- well.
section Decidable

variable {p : Char → Prop} [DecidablePred p]

scoped instance (priority := high) (text : List Char) : Decidable (∀ c ∈ text, p c) :=
  List.decidableBAll p text

scoped instance (priority := high) (o : Option Char) : Decidable (∀ c ∈ o, p c) :=
  Option.decidableForallMem o

scoped instance (priority := high) (o : Option Char) : Decidable (∃ c ∈ o, p c) :=
  Option.decidableExistsMem o

end Decidable

/-! ## Pieces that are skipped or cut -/

/-- Nothing that a pattern describes starts in a piece of text. -/
def Skips (pattern : Pattern) (behind piece rest : List Char) : Prop :=
  ∀ front back, piece = front ++ back → back ≠ [] → ∀ stretch more, back ++ rest = stretch ++ more →
    ¬ pattern.Describes (front.reverse ++ behind) stretch

/-- A pattern that starts in front of a piece of text ends behind it. -/
def Cuts (pattern : Pattern) (behind piece rest : List Char) : Prop :=
  pattern.end? ⟨behind, piece ++ rest⟩ = some ⟨piece.reverse ++ behind, rest⟩

theorem ends_eq_nil {pattern : Pattern} {behind ahead : List Char}
    (h : ∀ stretch more, ahead = stretch ++ more → ¬ pattern.Describes behind stretch) :
    pattern.ends ⟨behind, ahead⟩ = [] := by
  refine List.eq_nil_iff_forall_not_mem.2 fun last hlast => ?_
  obtain ⟨stretch, more, hahead, -, hs⟩ := mem_ends.1 hlast
  exact h stretch more hahead hs

theorem end?_eq_none {pattern : Pattern} {behind ahead : List Char}
    (h : ∀ stretch more, ahead = stretch ++ more → ¬ pattern.Describes behind stretch) :
    pattern.end? ⟨behind, ahead⟩ = none := by
  rw [end?, ends_eq_nil h]
  rfl

theorem Skips.nil (pattern : Pattern) (behind rest : List Char) : pattern.Skips behind [] rest :=
  fun _ _ hpiece hback => absurd (List.append_eq_nil_iff.1 hpiece.symm).2 hback

theorem Skips.end?_eq_none {pattern : Pattern} {behind piece rest : List Char} {c : Char}
    (h : pattern.Skips behind (c :: piece) rest) :
    pattern.end? ⟨behind, c :: piece ++ rest⟩ = none :=
  Pattern.end?_eq_none (h [] (c :: piece) rfl (by simp))

theorem Skips.tail {pattern : Pattern} {behind piece rest : List Char} {c : Char}
    (h : pattern.Skips behind (c :: piece) rest) : pattern.Skips (c :: behind) piece rest := by
  intro front back hpiece hback stretch more same
  have here := h (c :: front) back (congrArg (c :: ·) hpiece) hback stretch more same
  rwa [List.reverse_cons, List.append_assoc] at here

theorem Skips.removeFrom {pattern : Pattern} {behind piece rest : List Char}
    (h : pattern.Skips behind piece rest) :
    pattern.removeFrom ⟨behind, piece ++ rest⟩
      = piece ++ pattern.removeFrom ⟨piece.reverse ++ behind, rest⟩ := by
  induction piece generalizing behind with
  | nil => rfl
  | cons c piece ih =>
    have none_ := h.end?_eq_none
    rw [Pattern.removeFrom.eq_def]
    split
    · next last hlast => exact absurd (hlast.symm.trans none_) (by simp)
    · split
      · next hnil => exact absurd hnil (by simp)
      · next d ahead hcons =>
        obtain ⟨rfl, rfl⟩ := List.cons.inj hcons
        rw [List.reverse_cons, List.append_assoc]
        exact congrArg (c :: ·) (ih h.tail)

theorem Cuts.removeFrom {pattern : Pattern} {behind piece rest : List Char}
    (h : pattern.Cuts behind piece rest) :
    pattern.removeFrom ⟨behind, piece ++ rest⟩
      = pattern.removeFrom ⟨piece.reverse ++ behind, rest⟩ := by
  rw [Pattern.removeFrom.eq_def]
  split
  · next last hlast => rw [Option.some.inj (hlast.symm.trans h)]
  · next hnone => exact absurd (hnone.symm.trans h) (by simp)

theorem removeFrom_nil (pattern : Pattern) (behind : List Char) :
    pattern.removeFrom ⟨behind, []⟩ = [] :=
  List.sublist_nil.1 (removeFrom_sublist pattern ⟨behind, []⟩)

def Trims (pattern : Pattern) (behind text rest trimmed : List Char) : Prop :=
  pattern.removeFrom ⟨behind, text ++ rest⟩
    = trimmed ++ pattern.removeFrom ⟨text.reverse ++ behind, rest⟩

section Trims

variable {pattern : Pattern} {behind text text' rest trimmed trimmed' : List Char}

theorem trims_nil (pattern : Pattern) (behind rest : List Char) : pattern.Trims behind [] rest [] :=
  rfl

theorem Skips.trims (h : pattern.Skips behind text rest) : pattern.Trims behind text rest text :=
  h.removeFrom

theorem Cuts.trims (h : pattern.Cuts behind text rest) : pattern.Trims behind text rest [] :=
  h.removeFrom

theorem Trims.append (h : pattern.Trims behind text (text' ++ rest) trimmed)
    (h' : pattern.Trims (text.reverse ++ behind) text' rest trimmed') :
    pattern.Trims behind (text ++ text') rest (trimmed ++ trimmed') := by
  rw [Trims, List.append_assoc, h, h', List.append_assoc, List.reverse_append, List.append_assoc]

theorem Trims.removeAll
    (h : pattern.Trims [] text [] trimmed) : pattern.removeAll text = trimmed := by
  have all := h
  rw [Trims, removeFrom_nil, List.append_nil, List.append_nil] at all
  exact all

end Trims

/-- **What is left of a row of pieces** is the row of those that are skipped, if all the others are
cut. -/
theorem removeFrom_pieces {α : Type} {pattern : Pattern} (chars : α → List Char) (keep : α → Bool)
    {pieces : List α} {behind : List Char}
    (h : ∀ front piece back, pieces = front ++ piece :: back →
      if keep piece then
        pattern.Skips ((front.flatMap chars).reverse ++ behind) (chars piece) (back.flatMap chars)
      else
        pattern.Cuts ((front.flatMap chars).reverse ++ behind) (chars piece) (back.flatMap chars)) :
    pattern.removeFrom ⟨behind, pieces.flatMap chars⟩ = (pieces.filter keep).flatMap chars := by
  induction pieces generalizing behind with
  | nil => exact removeFrom_nil pattern behind
  | cons piece pieces ih =>
    have rest : pattern.removeFrom ⟨(chars piece).reverse ++ behind, pieces.flatMap chars⟩
        = (pieces.filter keep).flatMap chars := by
      refine ih fun front piece' back same => ?_
      have later := h (piece :: front) piece' back (congrArg (piece :: ·) same)
      rwa [List.flatMap_cons, List.reverse_append, List.append_assoc] at later
    have here := h [] piece pieces rfl
    rw [List.flatMap_cons, List.filter_cons]
    split at here
    · next hkeep =>
      rw [if_pos hkeep, List.flatMap_cons]
      exact here.removeFrom.trans (congrArg (chars piece ++ ·) rest)
    · next hkeep =>
      rw [if_neg hkeep]
      exact here.removeFrom.trans rest

theorem Skips.findFrom {pattern : Pattern} {behind piece rest : List Char}
    (h : pattern.Skips behind piece rest) :
    pattern.findFrom behind (piece ++ rest)
      = pattern.findFrom (piece.reverse ++ behind) rest := by
  induction piece generalizing behind with
  | nil => rfl
  | cons c piece ih =>
    have none_ := h.end?_eq_none
    rw [List.cons_append] at none_ ⊢
    rw [Pattern.findFrom, none_]
    simpa using ih h.tail

theorem Cuts.findFrom {pattern : Pattern} {behind piece rest : List Char}
    (h : pattern.Cuts behind piece rest) :
    pattern.findFrom behind (piece ++ rest)
      = some (⟨behind, piece ++ rest⟩, ⟨piece.reverse ++ behind, rest⟩) := by
  rw [Cuts] at h
  cases hahead : piece ++ rest with
  | nil => rw [hahead] at h; rw [Pattern.findFrom, h]; rfl
  | cons c ahead => rw [hahead] at h; rw [Pattern.findFrom, h]

theorem Skips.append {pattern : Pattern} {behind piece piece' rest : List Char}
    (h : pattern.Skips behind piece (piece' ++ rest))
    (h' : pattern.Skips (piece.reverse ++ behind) piece' rest) :
    pattern.Skips behind (piece ++ piece') rest := by
  intro front back same hback
  rcases List.append_eq_append_iff.1 same with ⟨more, rfl, rfl⟩ | ⟨more, rfl, rfl⟩
  · rw [List.reverse_append, List.append_assoc]
    exact h' more back rfl hback
  · rw [List.append_assoc]
    by_cases hmore : more = []
    · subst hmore
      rw [List.append_nil] at h'
      exact h' [] piece' rfl hback
    · exact h front more rfl hmore

/-- A text is skipped if it is skipped together with more text behind it. -/
theorem Skips.of_append {pattern : Pattern} {behind piece piece' rest : List Char}
    (h : pattern.Skips behind (piece ++ piece') rest) :
    pattern.Skips behind piece (piece' ++ rest) := by
  rintro front back rfl hback stretch more same
  exact h front (back ++ piece') (List.append_assoc ..) (by simp [hback]) stretch more
    (by rw [List.append_assoc, same])

/-- A row of pieces is skipped if each of them is. -/
theorem skips_flatMap {α : Type} {pattern : Pattern} (chars : α → List Char) {pieces : List α}
    {behind rest : List Char}
    (h : ∀ front piece back, pieces = front ++ piece :: back →
      pattern.Skips ((front.flatMap chars).reverse ++ behind) (chars piece)
        (back.flatMap chars ++ rest)) :
    pattern.Skips behind (pieces.flatMap chars) rest := by
  induction pieces generalizing behind with
  | nil => exact Skips.nil pattern behind rest
  | cons piece pieces ih =>
    rw [List.flatMap_cons]
    refine Skips.append (h [] piece pieces rfl) (ih fun front piece' back same => ?_)
    have later := h (piece :: front) piece' back (congrArg (piece :: ·) same)
    rwa [List.flatMap_cons, List.reverse_append, List.append_assoc] at later

/-! ## The first stretch -/

section First

variable {pattern : Pattern} {behind piece rest : List Char}

/-- What is skipped behind nothing is skipped behind any text. -/
theorem Skips.anywhere (h : pattern.Skips [] piece rest) (behind : List Char) :
    pattern.Skips behind piece rest := by
  intro front back same hback stretch more ahead hs
  refine h front back same hback stretch more ahead ?_
  rw [List.append_nil]
  exact hs.of_append

/-- What is skipped in front of a text is skipped in front of the beginning of that text. -/
theorem Skips.shorten {more : List Char} (h : pattern.Skips behind piece (rest ++ more)) :
    pattern.Skips behind piece rest := by
  intro front back same hback stretch tail ahead
  exact h front back same hback stretch (tail ++ more) (by rw [← List.append_assoc, ahead, List.append_assoc])

/-- What begins with something that is skipped is skipped. -/
theorem Skips.followed {second : Pattern} (h : pattern.Skips behind piece rest) :
    (pattern ++ second).Skips behind piece rest := by
  intro front back same hback stretch more ahead hs
  obtain ⟨head, tail, hhead, -, rfl⟩ := hs
  exact h front back same hback head (tail ++ more) (by rw [ahead, List.append_assoc]) hhead

theorem exists_first {text front stretch back : List Char}
    (same : text = front ++ (stretch ++ back))
    (h : pattern.Describes (front.reverse ++ behind) stretch) :
    ∃ front stretch back, text = front ++ (stretch ++ back)
      ∧ pattern.Describes (front.reverse ++ behind) stretch
          ∧ pattern.Skips behind front (stretch ++ back) := by
  induction front generalizing text behind with
  | nil => exact ⟨[], stretch, back, same, h, Skips.nil _ _ _⟩
  | cons c front ih =>
    by_cases here : ∃ stretch back, text = stretch ++ back ∧ pattern.Describes behind stretch
    · obtain ⟨stretch, back, same, hs⟩ := here
      exact ⟨[], stretch, back, same, hs, Skips.nil _ _ _⟩
    · rw [List.reverse_cons, List.append_assoc] at h
      obtain ⟨front', stretch', back', tails, hs, skips⟩ := ih rfl h
      refine ⟨c :: front', stretch', back', same.trans (congrArg (c :: ·) tails), ?_, ?_⟩
      · rw [List.reverse_cons, List.append_assoc]
        exact hs
      · intro others tail split htail s more ahead
        cases others with
        | nil =>
          obtain rfl : c :: front' = tail := split
          exact fun hs => here ⟨s, more, by rw [← ahead, same, List.cons_append, tails]; rfl, hs⟩
        | cons d others =>
          obtain ⟨rfl, within⟩ := List.cons.inj split
          rw [List.reverse_cons, List.append_assoc]
          exact skips others tail within htail s more ahead

/-- What closes with a mark that it holds once starts nowhere in front of the first stretch,
whatever follows that. -/
theorem Skips.of_closing {mark : Char} {front first : List Char}
    (closes : ∀ behind s, pattern.Describes behind s → ∃ body, s = body ++ [mark] ∧ mark ∉ body)
    (hfirst : ∃ body, first = body ++ [mark])
    (skips : pattern.Skips behind front first) (rest : List Char) :
    pattern.Skips behind front (first ++ rest) := by
  intro others back same hback stretch more ahead hs
  obtain ⟨body, rfl⟩ := hfirst
  obtain ⟨body', rfl, unmarked⟩ := closes _ _ hs
  obtain ⟨w, within⟩ : ∃ w, back ++ (body ++ [mark]) = (body' ++ [mark]) ++ w := by
    rw [← List.append_assoc] at ahead
    rcases List.append_eq_append_iff.1 ahead with ⟨m, hm, -⟩ | ⟨m, hm, -⟩
    · rcases m.eq_nil_or_concat with rfl | ⟨m, c, rfl⟩
      · exact ⟨[], by rw [List.append_nil, hm, List.append_nil]⟩
      · -- The stretch would hold the mark of the first one as well.
        have inside : body' = back ++ (body ++ [mark]) ++ m := by
          rw [List.concat_eq_append, ← List.append_assoc] at hm
          exact (List.append_inj' hm rfl).1
        exact absurd (inside ▸ by simp) unmarked
    · exact ⟨m, hm⟩
  exact skips others back same hback (body' ++ [mark]) w within hs

end First

/-! ## Pieces that are skipped for one character -/

/-- What follows a character, wherever it stands in a text. -/
def after (key : Char) : List Char → List (List Char)
  | [] => []
  | c :: text => if c = key then text :: after key text else after key text

theorem mem_after {key : Char} {text back : List Char} :
    back ∈ after key text ↔ ∃ front, text = front ++ key :: back := by
  induction text with
  | nil => simp [after]
  | cons c text ih =>
    have behind : (∃ front, c :: text = front ++ key :: back)
        ↔ (c = key ∧ text = back) ∨ ∃ front, text = front ++ key :: back := by
      constructor
      · rintro ⟨_ | ⟨d, front⟩, same⟩
        · exact .inl (List.cons.inj same)
        · exact .inr ⟨front, (List.cons.inj same).2⟩
      · rintro (⟨rfl, rfl⟩ | ⟨front, rfl⟩)
        · exact ⟨[], rfl⟩
        · exact ⟨c :: front, rfl⟩
    rw [behind, ← ih, after]
    split
    · next hc => simp [hc, eq_comm]
    · next hc => simp [hc]

/-- Nowhere in a text a character is followed by what a condition asks for. -/
def Free (key : Char) (follows : List Char → Prop) (text rest : List Char) : Prop :=
  ∀ back ∈ after key text, ¬ follows (back ++ rest)

theorem free_append {key : Char} {follows : List Char → Prop} {text text' rest : List Char} :
    Free key follows (text ++ text') rest ↔
      Free key follows text (text' ++ rest) ∧ Free key follows text' rest := by
  have split : after key (text ++ text') = (after key text).map (· ++ text')
      ++ after key text' := by
    induction text with
    | nil => rfl
    | cons c text ih =>
      rw [List.cons_append, after, after, ih]
      split <;> rfl
  simp only [Free, split, List.forall_mem_append, List.forall_mem_map, List.append_assoc]

theorem free_of_not_mem {key : Char} {text : List Char} (h : key ∉ text)
    (follows : List Char → Prop) (rest : List Char) : Free key follows text rest := by
  intro back hback
  obtain ⟨front, rfl⟩ := mem_after.1 hback
  exact absurd (by simp) h

/-- A piece is skipped if each stretch has a character behind a lead that cannot reach over the end
of the piece, and if nowhere in the piece that character is followed by what follows it in the
stretch. -/
theorem skips_of_key {pattern : Pattern} {key : Char} {lead follows : List Char → Prop}
    {piece rest : List Char}
    (shape : ∀ behind stretch more, pattern.Describes behind stretch →
      ∃ front back, stretch ++ more = front ++ key :: back ∧ lead front ∧ follows back)
    (stops : ∀ front back more, piece = front ++ back → back ≠ [] → ¬ lead (back ++ more))
    (free : Free key follows piece rest) (behind : List Char) :
    pattern.Skips behind piece rest := by
  intro front back hpiece hback stretch more same hs
  obtain ⟨front', back', hstretch, hlead, hfollows⟩ := shape _ stretch more hs
  rw [hstretch] at same
  rcases List.append_eq_append_iff.1 same with ⟨m, rfl, -⟩ | ⟨m, hm, hrest⟩
  · exact stops front back m hpiece hback hlead
  · cases m with
    | nil =>
      rw [List.append_nil] at hm
      exact stops front back [] hpiece hback (by rwa [List.append_nil, hm])
    | cons c m =>
      obtain ⟨rfl, rfl⟩ := List.cons.inj hrest
      refine free m (mem_after.2 ⟨front ++ front', ?_⟩) hfollows
      rw [hpiece, hm, List.append_assoc]

/-- A text whose last line ends in a semicolon or a brace. -/
def IsClosed (text : List Char) : Prop :=
  ∃ body mark, text = body ++ [mark, '\n'] ∧ (mark = ';' ∨ mark = '\x7b' ∨ mark = '\x7d')

instance (text : List Char) : Decidable (IsClosed text) :=
  decidable_of_iff ([';', '\n'] <:+ text ∨ ['\x7b', '\n'] <:+ text ∨ ['\x7d', '\n'] <:+ text) <| by
    constructor
    · rintro (⟨body, rfl⟩ | ⟨body, rfl⟩ | ⟨body, rfl⟩) <;> exact ⟨body, _, rfl, by decide⟩
    · rintro ⟨body, mark, rfl, rfl | rfl | rfl⟩ <;> simp

theorem IsClosed.append {text : List Char} (h : IsClosed text) (front : List Char) :
    IsClosed (front ++ text) := by
  obtain ⟨body, mark, rfl, hmark⟩ := h
  exact ⟨front ++ body, mark, (List.append_assoc ..).symm, hmark⟩

/-- The beginning of a stretch that stays in one statement and starts with no line feed. -/
def IsLead (text : List Char) : Prop :=
  (∀ c ∈ text, c ≠ ';' ∧ c ≠ '\x7b' ∧ c ≠ '\x7d') ∧ text.head? ≠ some '\n'

theorem IsClosed.stops {text : List Char} (h : IsClosed text) (front back more : List Char)
    (same : text = front ++ back) (hback : back ≠ []) : ¬ IsLead (back ++ more) := by
  rintro ⟨plain, start⟩
  obtain ⟨body, mark, rfl, hmark⟩ := h
  rcases List.append_eq_append_iff.1 same with ⟨m, -, hm⟩ | ⟨m, rfl, rfl⟩
  · -- The stretch would begin with one of the last two characters.
    match m, hm with
    | [], hm =>
      have own := plain mark (by rw [← List.nil_append back, ← hm]; simp)
      rcases hmark with rfl | rfl | rfl <;> simp at own
    | [_], hm =>
      obtain rfl : ['\n'] = back := (List.cons.inj hm).2
      exact start rfl
    | _ :: _ :: m, hm =>
      have empty := (List.cons.inj (List.cons.inj hm).2).2
      exact hback (List.append_eq_nil_iff.1 empty.symm).2
  · have own := plain mark (by simp)
    rcases hmark with rfl | rfl | rfl <;> simp at own

/-! ## The preferred end -/

/-- The preferred end of a pattern that starts here is behind a stretch of text. -/
def Takes (pattern : Pattern) (behind stretch rest : List Char) : Prop :=
  (pattern.ends ⟨behind, stretch ++ rest⟩).head? = some ⟨stretch.reverse ++ behind, rest⟩

theorem Takes.cuts {pattern : Pattern} {behind stretch rest : List Char}
    (h : pattern.Takes behind stretch rest) (hne : stretch ≠ []) :
    pattern.Cuts behind stretch rest := by
  have hpos := List.length_pos_iff.2 hne
  rw [Cuts, end?, h]
  exact Option.filter_some_pos (by simp [hpos])

theorem Takes.describes {pattern : Pattern} {behind stretch rest : List Char}
    (h : pattern.Takes behind stretch rest) : pattern.Describes behind stretch := by
  obtain ⟨s, back, ahead, same, hs⟩ := mem_ends.1 (List.mem_of_mem_head? h)
  obtain ⟨-, rfl⟩ := Place.mk.inj same
  exact List.append_cancel_right ahead ▸ hs

theorem takes_of_unique {pattern : Pattern} {behind stretch rest : List Char}
    (h : pattern.Describes behind stretch)
    (unique : ∀ s more, stretch ++ rest = s ++ more → pattern.Describes behind s → s = stretch) :
    pattern.Takes behind stretch rest := by
  have mem : (⟨stretch.reverse ++ behind, rest⟩ : Place) ∈ pattern.ends ⟨behind, stretch ++ rest⟩ :=
    mem_ends.2 ⟨stretch, rest, rfl, rfl, h⟩
  rw [Takes]
  cases hends : pattern.ends ⟨behind, stretch ++ rest⟩ with
  | nil => exact absurd (hends ▸ mem) (by simp)
  | cons last others =>
    obtain ⟨s, more, same, rfl, hs⟩ := mem_ends.1 (hends ▸ List.mem_cons_self)
    obtain rfl := unique s more same hs
    rw [List.head?_cons, List.append_cancel_left same]

/-- A pattern whose stretches close with the first character of a kind takes the one that it
describes. -/
theorem takes_of_closing {pattern : Pattern} (d : Char) {behind stretch : List Char}
    (shape : ∀ behind s, pattern.Describes behind s → ∃ front, s = front ++ [d] ∧ d ∉ front)
    (h : pattern.Describes behind stretch) (rest : List Char) :
    pattern.Takes behind stretch rest := by
  refine takes_of_unique h fun s more same hs => ?_
  obtain ⟨front, rfl, hfront⟩ := shape _ _ h
  obtain ⟨front', rfl, hfront'⟩ := shape _ _ hs
  rw [List.append_assoc, List.append_assoc] at same
  obtain ⟨rfl, -⟩ := first_unique (p := (· = d)) (fun c hc e => hfront (e ▸ hc))
    (fun c hc e => hfront' (e ▸ hc)) rfl rfl same
  rfl

theorem Takes.of_ends {pattern pattern' : Pattern} {behind stretch rest : List Char}
    (same : ∀ place, pattern.ends place = pattern'.ends place)
    (h : pattern'.Takes behind stretch rest) : pattern.Takes behind stretch rest :=
  (congrArg List.head? (same _)).trans h

theorem ends_append (first second : Pattern) (place : Place) :
    (first ++ second).ends place = (first.ends place).flatMap second.ends :=
  rfl

theorem ends_append_assoc (first second third : Pattern) (place : Place) :
    (first ++ second ++ third).ends place = (first ++ (second ++ third)).ends place := by
  rw [ends_append, ends_append, ends_append, List.flatMap_assoc]
  rfl

theorem Takes.append {first second : Pattern} {behind front back rest : List Char}
    (hfirst : first.Takes behind front (back ++ rest))
    (hsecond : second.Takes (front.reverse ++ behind) back rest) :
    (first ++ second).Takes behind (front ++ back) rest := by
  obtain ⟨others, hends⟩ := List.head?_eq_some_iff.1 hfirst
  rw [Takes, ends_append, List.append_assoc, hends, List.flatMap_cons, List.reverse_append,
    List.append_assoc]
  exact List.head?_append.trans (by rw [hsecond]; rfl)

theorem takes_nothing (behind rest : List Char) : nothing.Takes behind [] rest :=
  rfl

theorem takes_one {p : Char → Bool} {c : Char} (hc : p c = true) (behind rest : List Char) :
    (one p).Takes behind [c] rest := by
  simp [Takes, ends, hc]

theorem takes_exactly (text behind rest : List Char) : (exactly text).Takes behind text rest :=
  takes_of_unique (describes_exactly.2 rfl) fun _ _ _ hs => describes_exactly.1 hs

theorem takes_literal (text : String) (behind rest : List Char) :
    (literal text).Takes behind text.toList rest :=
  takes_exactly text.toList behind rest

theorem takes_nameStart {behind : List Char} (h : ∀ c ∈ behind.head?, continuesName c = false)
    (rest : List Char) : nameStart.Takes behind [] rest :=
  takes_of_unique ⟨rfl, h⟩ fun _ _ _ hs => hs.1

theorem getLast?_placesAlong {p : Char → Bool} {run rest : List Char} (behind : List Char)
    (hrun : ∀ c ∈ run, p c = true) (hrest : ∀ c ∈ rest.head?, p c = false) :
    (placesAlong p behind (run ++ rest)).getLast? = some ⟨run.reverse ++ behind, rest⟩ := by
  induction run generalizing behind with
  | nil =>
    cases rest with
    | nil => rfl
    | cons c rest => simp [placesAlong, hrest c (by simp)]
  | cons c run ih =>
    have here := hrun c (by simp)
    have there := ih (c :: behind) fun d hd => hrun d (by simp [hd])
    rw [List.cons_append, placesAlong, if_pos here, List.getLast?_cons, there]
    simp

/-- A run takes all the characters of its class, up to one that is not of the class. -/
theorem takes_many {p : Char → Bool} {behind run rest : List Char}
    (hrun : ∀ c ∈ run, p c = true) (hrest : ∀ c ∈ rest.head?, p c = false) :
    (many p).Takes behind run rest := by
  rw [Takes, ends, List.head?_reverse]
  exact getLast?_placesAlong behind hrun hrest

theorem takes_oneOrMore {p : Char → Bool} {behind run rest : List Char} (hne : run ≠ [])
    (hrun : ∀ c ∈ run, p c = true) (hrest : ∀ c ∈ rest.head?, p c = false) :
    (oneOrMore p).Takes behind run rest := by
  obtain ⟨c, run, rfl⟩ := List.exists_cons_of_ne_nil hne
  exact (takes_one (hrun c (by simp)) behind _).append
    (takes_many (fun d hd => hrun d (by simp [hd])) hrest)

theorem Takes.either_left {first : Pattern} {behind stretch rest : List Char}
    (h : first.Takes behind stretch rest) (second : Pattern) :
    (either first second).Takes behind stretch rest := by
  rw [Takes, ends, List.head?_append, show (first.ends _).head? = _ from h]
  rfl

theorem Takes.either_right {first second : Pattern} {behind stretch rest : List Char}
    (none_ : ∀ s more, stretch ++ rest = s ++ more → ¬ first.Describes behind s)
    (h : second.Takes behind stretch rest) : (either first second).Takes behind stretch rest := by
  rw [Takes, ends, ends_eq_nil none_]
  exact h

/-- A run of as few characters as possible stops where the pattern behind it first starts. -/
theorem takes_few_append {p : Char → Bool} {pattern : Pattern} {behind run stretch rest : List Char}
    (hrun : ∀ c ∈ run, p c = true) (early : pattern.Skips behind run (stretch ++ rest))
    (h : pattern.Takes (run.reverse ++ behind) stretch rest) :
    (few p ++ pattern).Takes behind (run ++ stretch) rest := by
  rw [Takes, ends_append, ends, List.append_assoc]
  induction run generalizing behind with
  | nil =>
    have here : (pattern.ends ⟨behind, stretch ++ rest⟩).head?
        = some ⟨stretch.reverse ++ behind, rest⟩ := h
    cases hahead : stretch ++ rest with
    | nil => simpa [placesAlong, hahead] using here
    | cons c ahead =>
      rw [hahead] at here
      simp only [List.nil_append, placesAlong, List.flatMap_cons, List.head?_append, here]
      rfl
  | cons c run ih =>
    have none_ : pattern.ends ⟨behind, c :: run ++ (stretch ++ rest)⟩ = [] :=
      ends_eq_nil (early [] (c :: run) rfl (by simp))
    rw [List.cons_append] at none_
    rw [List.cons_append, placesAlong, if_pos (hrun c (by simp)), List.flatMap_cons, none_,
      List.nil_append]
    simpa using ih (fun d hd => hrun d (by simp [hd])) early.tail (by simpa using h)

/-! ## The rest of a line -/

/-- A line feed, with a carriage return in front or without. -/
def IsLineEnd (text : List Char) : Prop :=
  text = ['\n'] ∨ text = ['\r', '\n']

theorem IsLineEnd.head {text : List Char} (h : IsLineEnd text) (rest : List Char) :
    ∀ c ∈ (text ++ rest).head?, c = '\n' ∨ c = '\r' := by
  rcases h with rfl | rfl <;> simp

theorem takes_lineEnd {behind text : List Char} (h : IsLineEnd text) (rest : List Char) :
    lineEnd.Takes behind text rest := by
  rcases h with rfl | rfl
  · refine Takes.either_left (.append (.either_right ?_ (takes_nothing _ _)) (takes_literal "\n" _ _)) _
    intro s more same hs
    obtain rfl := describes_literal.1 hs
    exact absurd same (by simp)
  · exact .either_left (.append (.either_left (takes_literal "\r" _ _) _) (takes_literal "\n" _ _)) _

theorem takes_lineEnd_nil (behind : List Char) : lineEnd.Takes behind [] [] := by
  refine .either_right (fun s more same hs => ?_) (takes_nothing _ _)
  obtain ⟨rfl, -⟩ := List.append_eq_nil_iff.1 same.symm
  obtain ⟨_, feed, -, hfeed, same⟩ := hs
  obtain rfl := describes_literal.1 hfeed
  exact absurd same (by simp)

/-- Blanks within a line. -/
def IsSpaces (text : List Char) : Prop :=
  ∀ c ∈ text, c = ' ' ∨ c = '\t'

instance (text : List Char) : Decidable (IsSpaces text) :=
  inferInstanceAs (Decidable (∀ c ∈ text, _))

theorem takes_spaces {behind run rest : List Char} (hrun : IsSpaces run)
    (hrest : ∀ c ∈ rest.head?, c ≠ ' ' ∧ c ≠ '\t') : spaces.Takes behind run rest :=
  takes_many (fun c hc => by simpa using hrun c hc) fun c hc => by simpa using hrest c hc

theorem takes_restOfLine {behind run text rest : List Char} (hrun : IsSpaces run)
    (htext : IsLineEnd text ∨ text = [] ∧ rest = []) :
    restOfLine.Takes behind (run ++ text) rest := by
  rcases htext with htext | ⟨rfl, rfl⟩
  · refine .append (takes_spaces hrun fun c hc => ?_) (takes_lineEnd htext rest)
    rcases htext.head rest c hc with rfl | rfl <;> decide
  · exact .append (takes_spaces hrun (by simp)) (takes_lineEnd_nil _)

/-- What may follow a statement on its last line: blanks, a semicolon and the line end, or less. -/
def IsEnding (text : List Char) : Prop :=
  ∃ run semicolon run' feed, text = run ++ (semicolon ++ (run' ++ feed)) ∧ IsSpaces run
    ∧ (semicolon = [] ∨ semicolon = [';']) ∧ IsSpaces run' ∧ (IsLineEnd feed ∨ feed = [])

theorem IsEnding.mem {text : List Char} (h : IsEnding text) {c : Char} (hc : c ∈ text) :
    c = ' ' ∨ c = '\t' ∨ c = ';' ∨ c = '\n' ∨ c = '\r' := by
  obtain ⟨run, semicolon, run', feed, rfl, hrun, hsemicolon, hrun', hfeed⟩ := h
  simp only [List.mem_append] at hc
  rcases hc with hc | hc | hc | hc
  · exact (hrun c hc).elim .inl fun h => .inr (.inl h)
  · rcases hsemicolon with rfl | rfl
    · simp at hc
    · exact .inr (.inr (.inl (List.mem_singleton.1 hc)))
  · exact (hrun' c hc).elim .inl fun h => .inr (.inl h)
  · rcases hfeed with (rfl | rfl) | rfl
    · exact .inr (.inr (.inr (.inl (List.mem_singleton.1 hc))))
    · rcases List.mem_cons.1 hc with rfl | hc
      · simp
      · simp [List.mem_singleton.1 hc]
    · simp at hc

/-- The end of a statement is taken, if it has its line feed or nothing follows it. -/
theorem takes_statementEnd {behind text rest : List Char} (h : IsEnding text)
    (ends : '\n' ∈ text ∨ rest = []) : statementEnd.Takes behind text rest := by
  obtain ⟨run, semicolon, run', feed, rfl, hrun, hsemicolon, hrun', hfeed⟩ := h
  have hfeed' : IsLineEnd feed ∨ feed = [] ∧ rest = [] := by
    refine hfeed.imp_right fun nil => ⟨nil, ends.resolve_left fun mem => ?_⟩
    subst nil
    rw [List.append_nil, List.mem_append, List.mem_append] at mem
    rcases mem with mem | mem | mem
    · exact absurd (hrun _ mem) (by decide)
    · rcases hsemicolon with rfl | rfl <;> exact absurd mem (by decide)
    · exact absurd (hrun' _ mem) (by decide)
  have tail : ∀ c ∈ (feed ++ rest).head?, c = '\n' ∨ c = '\r' := by
    rcases hfeed' with hfeed | ⟨rfl, rfl⟩
    · exact hfeed.head rest
    · simp
  rcases hsemicolon with rfl | rfl
  · rw [List.nil_append, ← List.append_assoc]
    have all : spaces.Takes behind (run ++ run') ([] ++ (feed ++ rest)) := by
      refine takes_spaces (fun c hc => ?_) fun c hc => ?_
      · exact (List.mem_append.1 hc).elim (hrun c) (hrun' c)
      · rcases tail c hc with rfl | rfl <;> decide
    have none_ : ∀ s more, [] ++ (feed ++ rest) = s ++ more →
        ¬ (literal ";").Describes ((run ++ run').reverse ++ behind) s := by
      intro s more same hs
      obtain rfl := describes_literal.1 hs
      have hc := tail ';' (by rw [← List.nil_append (feed ++ rest), same]; rfl)
      exact absurd hc (by decide)
    have both := all.append (.either_right none_ (takes_nothing _ (feed ++ rest)))
    rw [List.append_nil] at both
    have line : restOfLine.Takes ((run ++ run').reverse ++ behind) ([] ++ feed) rest :=
      takes_restOfLine (by simp [IsSpaces]) hfeed'
    exact both.append line
  · rw [← List.append_assoc]
    have all : spaces.Takes behind run ([';'] ++ (run' ++ feed ++ rest)) :=
      takes_spaces hrun (by simp)
    exact (all.append ((takes_literal ";" _ _).either_left nothing)).append
      (takes_restOfLine hrun' hfeed')

end Pattern

end RouteTrim.Purge
