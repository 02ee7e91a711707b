import RouteTrim.Path.Spelling

/-!
# Spellings of a location

A location is written with its anchor and its segments, and a path is read by walking along what
stands between its slashes. Walking leaves a trail in which every `..` that is left leads out of the
place where a relative path starts; `Trail` is that invariant, and a location with such a trail is
read back from its own spelling.

Empty segments and `.` lead nowhere, so a path may as well be read without them (`steps`).
Everything that is said about a spelling is said about its steps.
-/

set_option autoImplicit false

namespace RouteTrim.Text

/-! ## Splitting and joining -/

theorem split_of_not_mem {separator : Char} {s : List Char} (h : separator ∉ s) :
    split separator s = [s] := by
  induction s with
  | nil => rfl
  | cons c s ih =>
    obtain ⟨hc, hs⟩ := not_or.1 (mt List.mem_cons.2 h)
    rw [split, if_neg (Ne.symm hc), ih hs]

theorem split_append (separator : Char) (front back : List Char) :
    split separator (front ++ separator :: back)
      = split separator front ++ split separator back := by
  induction front with
  | nil => exact if_pos rfl
  | cons c front ih =>
    rw [List.cons_append, split, split, ih]
    by_cases hc : c = separator
    · simp [hc]
    · rw [if_neg hc, if_neg hc]
      cases hfront : split separator front with
      | nil => exact absurd hfront (split_ne_nil separator front)
      | cons part parts => rfl

theorem joinWith_cons (separator part : List Char) {parts : List (List Char)} (ne : parts ≠ []) :
    joinWith separator (part :: parts) = part ++ separator ++ joinWith separator parts := by
  cases parts with
  | nil => exact absurd rfl ne
  | cons => rfl

theorem joinWith_append {separator : List Char}
    {front back : List (List Char)} (hfront : front ≠ []) (hback : back ≠ []) :
    joinWith separator (front ++ back) = joinWith separator front ++ separator
      ++ joinWith separator back := by
  induction front with
  | nil => exact absurd rfl hfront
  | cons part front ih =>
    cases front with
    | nil => exact joinWith_cons separator part hback
    | cons next front =>
      have more : next :: front ≠ [] := by simp
      rw [List.cons_append, joinWith_cons _ _ (by simp), ih more, joinWith_cons _ part more]
      simp only [List.append_assoc]

theorem joinWith_concat {separator part : List Char} {parts : List (List Char)} (ne : parts ≠ []) :
    joinWith separator (parts ++ [part]) = joinWith separator parts ++ separator ++ part :=
  joinWith_append ne (List.cons_ne_nil part [])

/-- Splitting what is joined from parts without separators gives the parts back. -/
theorem split_joinWith {separator : Char} {parts : List (List Char)} (ne : parts ≠ [])
    (h : ∀ part ∈ parts, separator ∉ part) :
    split separator (joinWith [separator] parts) = parts := by
  induction parts with
  | nil => exact absurd rfl ne
  | cons part parts ih =>
    have first := split_of_not_mem (h part (List.mem_cons_self ..))
    cases parts with
    | nil => exact first
    | cons next parts =>
      rw [joinWith, List.append_assoc, List.singleton_append, split_append, first,
        ih (by simp) fun part hpart => h part (List.mem_cons_of_mem _ hpart)]
      rfl

theorem not_mem_of_mem_split {separator : Char} {s part : List Char}
    (h : part ∈ split separator s) : separator ∉ part := by
  induction s generalizing part with
  | nil => simp_all [split]
  | cons c s ih =>
    rw [split] at h
    split at h
    · rcases List.mem_cons.1 h with rfl | h
      · exact List.not_mem_nil
      · exact ih h
    · next hc =>
      cases hs : split separator s with
      | nil => exact absurd hs (split_ne_nil separator s)
      | cons first parts =>
        rw [hs] at h ih
        rcases List.mem_cons.1 h with rfl | h
        · have := ih (List.mem_cons_self ..)
          simp [Ne.symm hc, this]
        · exact ih (List.mem_cons_of_mem _ h)

/-- The characters of a joined text are those of its parts and of the separator. -/
theorem mem_joinWith {separator : List Char} {parts : List (List Char)} {c : Char}
    (h : c ∈ joinWith separator parts) : c ∈ separator ∨ ∃ part ∈ parts, c ∈ part := by
  induction parts with
  | nil => exact absurd h List.not_mem_nil
  | cons part parts ih =>
    cases parts with
    | nil => exact .inr ⟨part, List.mem_cons_self .., h⟩
    | cons next parts =>
      rw [joinWith, List.append_assoc, List.mem_append, List.mem_append] at h
      rcases h with h | h | h
      · exact .inr ⟨part, List.mem_cons_self .., h⟩
      · exact .inl h
      · rcases ih h with between | ⟨other, hother, hc⟩
        · exact .inl between
        · exact .inr ⟨other, List.mem_cons_of_mem _ hother, hc⟩

theorem mem_joinWith_of_mem {separator part : List Char} {parts : List (List Char)} {c : Char}
    (h : part ∈ parts) (hc : c ∈ part) : c ∈ joinWith separator parts := by
  induction parts with
  | nil => exact absurd h List.not_mem_nil
  | cons first parts ih =>
    cases parts with
    | nil => exact List.mem_singleton.1 h ▸ hc
    | cons next parts =>
      rw [joinWith]
      rcases List.mem_cons.1 h with rfl | h
      · exact List.mem_append_left _ (List.mem_append_left _ hc)
      · exact List.mem_append_right _ (ih h)

theorem mem_of_mem_split {separator : Char} {s part : List Char} {c : Char}
    (h : part ∈ split separator s) (hc : c ∈ part) : c ∈ s := by
  induction s generalizing part with
  | nil => simp_all [split]
  | cons d s ih =>
    rw [split] at h
    split at h
    · rcases List.mem_cons.1 h with rfl | h
      · exact absurd hc List.not_mem_nil
      · exact List.mem_cons_of_mem _ (ih h hc)
    · cases hs : split separator s with
      | nil => exact absurd hs (split_ne_nil separator s)
      | cons first parts =>
        rw [hs] at h ih
        rcases List.mem_cons.1 h with rfl | h
        · rcases List.mem_cons.1 hc with rfl | hc
          · exact List.mem_cons_self ..
          · exact List.mem_cons_of_mem _ (ih (List.mem_cons_self ..) hc)
        · exact List.mem_cons_of_mem _ (ih (List.mem_cons_of_mem _ h) hc)

end RouteTrim.Text

namespace RouteTrim.Path

open RouteTrim.Text

/-! ## Steps -/

theorem isStep_up : IsStep up := by decide

/-- Segments without the ones that lead nowhere. -/
def steps (segments : List Segment) : List Segment :=
  segments.filter fun segment => !segment.isEmpty && segment != here

theorem steps_eq_self {segments : List Segment} (h : ∀ s ∈ segments, IsStep s) :
    steps segments = segments :=
  List.filter_eq_self.2 fun s hs => by simp [(h s hs).1, (h s hs).2.1]

theorem isStep_of_mem_steps {path : List Char} {s : Segment} (h : s ∈ steps (split '/' path)) :
    IsStep s := by
  rw [steps, List.mem_filter] at h
  simp only [Bool.and_eq_true, Bool.not_eq_true', List.isEmpty_eq_false_iff, bne_iff_ne] at h
  exact ⟨h.2.1, h.2.2, not_mem_of_mem_split h.1⟩

/-- What one step of a walk does: nothing; nothing at a root, which has no level above it; back over
a name; or further along. -/
theorem step_cases (anchor : Anchor) (trail : List Segment) (s : Segment) :
    (s = [] ∨ s = here) ∧ Location.step anchor trail s = trail ∨
    s = up ∧ anchor ≠ .relative ∧ trail = [] ∧ Location.step anchor trail s = [] ∨
    (∃ last before, s = up ∧ trail = last :: before ∧ last ≠ up ∧
      Location.step anchor trail s = before) ∨
    s ≠ [] ∧ s ≠ here ∧ Location.step anchor trail s = s :: trail ∧
      (s = up → anchor = .relative ∧ trail = [] ∨ ∃ before, trail = up :: before) := by
  unfold Location.step
  by_cases hs : s = [] ∨ s = here
  · exact .inl ⟨hs, if_pos hs⟩
  · rw [if_neg hs]
    obtain ⟨hempty, hhere⟩ := not_or.1 hs
    by_cases hup : s = up
    · rw [if_pos hup]
      cases trail with
      | nil =>
        by_cases hanchor : anchor = .relative
        · exact .inr (.inr (.inr ⟨hempty, hhere, by simp [hanchor, hup], fun _ => .inl ⟨hanchor, rfl⟩⟩))
        · exact .inr (.inl ⟨hup, hanchor, rfl, if_neg hanchor⟩)
      | cons last before =>
        by_cases hlast : last = up
        · exact .inr (.inr (.inr ⟨hempty, hhere, by simp [hlast, hup],
            fun _ => .inr ⟨before, by rw [hlast]⟩⟩))
        · exact .inr (.inr (.inl ⟨last, before, hup, rfl, hlast, if_neg hlast⟩))
    · exact .inr (.inr (.inr ⟨hempty, hhere, if_neg hup, fun h => absurd h hup⟩))

/-- Walking passes over the segments that lead nowhere. -/
theorem foldl_step_steps (anchor : Anchor) (segments : List Segment) (trail : List Segment) :
    (steps segments).foldl (Location.step anchor) trail
      = segments.foldl (Location.step anchor) trail := by
  induction segments generalizing trail with
  | nil => rfl
  | cons s segments ih =>
    by_cases hs : s = [] ∨ s = here
    · have : Location.step anchor trail s = trail := if_pos hs
      rw [List.foldl_cons, this, ← ih]
      rcases hs with rfl | rfl <;> rfl
    · obtain ⟨hempty, hhere⟩ := not_or.1 hs
      simp [steps, hempty, hhere, ← ih]

/-! ## Anchors -/

theorem foldl_names {anchor : Anchor} {names : List Segment} (h : ∀ s ∈ names, IsName s)
    (trail : List Segment) :
    names.foldl (Location.step anchor) trail = names.reverse ++ trail := by
  induction names generalizing trail with
  | nil => rfl
  | cons s names ih =>
    obtain ⟨first, rest⟩ := List.forall_mem_cons.1 h
    have down : Location.step anchor trail s = s :: trail :=
      (if_neg (not_or.2 ⟨first.1.1, first.1.2.1⟩)).trans (if_neg first.2)
    rw [List.foldl_cons, down, ih rest, List.reverse_cons, List.append_assoc, List.singleton_append]

theorem startsAtSlash_iff (path : List Char) :
    path.head? = some '/' ↔ Anchor.ofPath path ≠ .relative := by
  unfold Anchor.ofPath
  split
  · simp
  · simp
  · simp
  · next hslash =>
    cases path with
    | nil => simp
    | cons c path =>
      simp only [List.head?_cons, Option.some.injEq, ne_eq, not_true_eq_false, iff_false]
      rintro rfl
      exact hslash path rfl

/-- The slashes of an anchor are read as that anchor if no other one follows. -/
theorem ofPath_text_append (anchor : Anchor) {rest : List Char} (h : rest.head? ≠ some '/') :
    Anchor.ofPath (anchor.text ++ rest) = anchor := by
  cases rest with
  | nil => cases anchor <;> rfl
  | cons c rest =>
    have hc : c ≠ '/' := by simpa using h
    cases anchor <;> simp [Anchor.text, Anchor.ofPath, hc]

theorem head_joinWith {segments : List Segment} (h : ∀ s ∈ segments, IsStep s) :
    (joinWith ['/'] segments).head? ≠ some '/' := by
  cases segments with
  | nil => simp [joinWith]
  | cons s segments =>
    obtain ⟨hempty, -, hslash⟩ := h s (List.mem_cons_self ..)
    cases s with
    | nil => exact absurd rfl hempty
    | cons c s =>
      have hc : c ≠ '/' := fun hc => hslash (hc ▸ List.mem_cons_self ..)
      cases segments <;> simpa [joinWith] using hc

theorem joinWith_ne_nil {s : Segment} (nonempty : s ≠ []) (segments : List Segment) :
    joinWith ['/'] (s :: segments) ≠ [] := by
  cases segments <;> simp [joinWith, nonempty]

theorem getLast?_joinWith {segments : List Segment} (h : ∀ s ∈ segments, IsStep s) :
    (joinWith ['/'] segments).getLast? ≠ some '/' := by
  induction segments with
  | nil => simp [joinWith]
  | cons s segments ih =>
    obtain ⟨⟨-, -, slashless⟩, rest⟩ := List.forall_mem_cons.1 h
    cases segments with
    | nil => exact fun slash => slashless (List.mem_of_getLast? slash)
    | cons next segments =>
      have filled := joinWith_ne_nil (rest next (List.mem_cons_self ..)).1 segments
      rw [joinWith, List.getLast?_append, List.getLast?_eq_some_getLast filled, Option.some_or,
        ← List.getLast?_eq_some_getLast filled]
      exact ih rest

/-- What does not end with a slash keeps its end. -/
theorem dropRightWhile_self {s : List Char} (h : s.getLast? ≠ some '/') :
    dropRightWhile (· == '/') s = s := by
  have kept : s.reverse.dropWhile (· == '/') = s.reverse := by
    cases hs : s.reverse with
    | nil => rfl
    | cons c rest =>
      refine List.dropWhile_cons_of_neg fun slash => h ?_
      rw [← List.head?_reverse, hs, List.head?_cons, beq_iff_eq.1 slash]
  rw [dropRightWhile, kept, List.reverse_reverse]

/-- A location with segments is spelled by the slashes of its anchor and its segments. -/
theorem toPath_cons (anchor : Anchor) {s : Segment} (filled : s ≠ []) (segments : List Segment) :
    (Location.mk anchor (s :: segments)).toPath = anchor.text ++ joinWith ['/'] (s :: segments) :=
  if_neg (by simp [joinWith_ne_nil filled])

theorem anchor_toPath {l : Location} (h : ∀ s ∈ l.segments, IsStep s) :
    Anchor.ofPath l.toPath = l.anchor := by
  obtain ⟨anchor, segments⟩ := l
  unfold Location.toPath
  dsimp only
  split
  · next hempty =>
    obtain ⟨hanchor, -⟩ := List.append_eq_nil_iff.1 (List.isEmpty_iff.1 hempty)
    cases anchor <;> first | rfl | exact absurd hanchor (by simp [Anchor.text])
  · exact ofPath_text_append anchor (head_joinWith h)

/-- The spelling of a location leads along its segments. -/
theorem steps_toPath {l : Location} (h : ∀ s ∈ l.segments, IsStep s) :
    steps (split '/' l.toPath) = l.segments := by
  obtain ⟨anchor, segments⟩ := l
  have inner : steps (split '/' (joinWith ['/'] segments)) = segments := by
    cases segments with
    | nil => rfl
    | cons s segments =>
      rw [split_joinWith (by simp) fun part hpart => (h part hpart).2.2]
      exact steps_eq_self h
  unfold Location.toPath
  dsimp only
  split
  · next hempty =>
    have hjoin := (List.append_eq_nil_iff.1 (List.isEmpty_iff.1 hempty)).2
    rw [hjoin] at inner
    exact inner
  · cases anchor with
    | relative => exact inner
    | root => exact inner
    | doubleRoot => exact inner

theorem mem_toPath {l : Location} {c : Char} (h : c ∈ l.toPath) :
    c = '/' ∨ c = '.' ∨ ∃ s ∈ l.segments, c ∈ s := by
  unfold Location.toPath at h
  dsimp only at h
  split at h
  · exact .inr (.inl (List.mem_singleton.1 h))
  · rcases List.mem_append.1 h with h | h
    · left
      cases hanchor : l.anchor <;> rw [hanchor] at h <;> simp_all [Anchor.text]
    · rcases mem_joinWith h with h | h
      · exact .inl (List.mem_singleton.1 h)
      · exact .inr (.inr h)

/-! ## Trails -/

/-- A trail as walking leaves it, the last segment first: names, and behind them the levels that a
relative path goes up at its start. -/
inductive Trail (anchor : Anchor) : List Segment → Prop where
  | start : Trail anchor []
  | up {trail : List Segment} : anchor = .relative → (∀ s ∈ trail, s = Path.up) →
      Trail anchor trail → Trail anchor (Path.up :: trail)
  | name {s : Segment} {trail : List Segment} : IsName s → Trail anchor trail →
      Trail anchor (s :: trail)

section

variable {anchor : Anchor} {trail : List Segment}

theorem Trail.isStep (h : Trail anchor trail) : ∀ s ∈ trail, IsStep s := by
  induction h with
  | start => exact fun s hs => absurd hs List.not_mem_nil
  | up _ _ _ ih => exact List.forall_mem_cons.2 ⟨isStep_up, ih⟩
  | name hs _ ih => exact List.forall_mem_cons.2 ⟨hs.1, ih⟩

theorem Trail.isName (h : Trail anchor trail) (rooted : anchor ≠ .relative) :
    ∀ s ∈ trail, IsName s := by
  induction h with
  | start => exact fun s hs => absurd hs List.not_mem_nil
  | up hanchor _ _ _ => exact absurd hanchor rooted
  | name hs _ ih => exact List.forall_mem_cons.2 ⟨hs, ih⟩

theorem Trail.of_names {names : List Segment} (h : ∀ s ∈ names, IsName s) :
    Trail anchor names := by
  induction names with
  | nil => exact .start
  | cons s names ih =>
    obtain ⟨first, rest⟩ := List.forall_mem_cons.1 h
    exact .name first (ih rest)

/-- Every step keeps the trail as it should be. -/
theorem Trail.step (h : Trail anchor trail) {s : Segment} (slashless : '/' ∉ s) :
    Trail anchor (Location.step anchor trail s) := by
  rcases step_cases anchor trail s with
    ⟨-, hstep⟩ | ⟨-, -, -, hstep⟩ | ⟨last, before, -, rfl, hlast, hstep⟩ |
    ⟨hempty, hhere, hstep, hup⟩ <;> rw [hstep]
  · exact h
  · exact .start
  · cases h with
    | up => exact absurd rfl hlast
    | name _ hbefore => exact hbefore
  · by_cases hs : s = Path.up
    · subst hs
      rcases hup rfl with ⟨hanchor, rfl⟩ | ⟨before, rfl⟩
      · exact .up hanchor (fun s hs => absurd hs List.not_mem_nil) .start
      · cases h with
        | up hanchor hbefore htrail =>
          exact .up hanchor (List.forall_mem_cons.2 ⟨rfl, hbefore⟩) (.up hanchor hbefore htrail)
        | name hname _ => exact absurd rfl hname.2
    · exact .name ⟨⟨hempty, hhere, slashless⟩, hs⟩ h

theorem Trail.foldl {segments : List Segment} (hsegments : ∀ s ∈ segments, '/' ∉ s)
    (h : Trail anchor trail) : Trail anchor (segments.foldl (Location.step anchor) trail) := by
  induction segments generalizing trail with
  | nil => exact h
  | cons s segments ih =>
    obtain ⟨hs, hrest⟩ := List.forall_mem_cons.1 hsegments
    exact ih hrest (h.step hs)

theorem Trail.foldl_reverse (h : Trail anchor trail) :
    trail.reverse.foldl (Location.step anchor) [] = trail := by
  induction h with
  | start => rfl
  | @up trail hanchor hbefore htrail ih =>
    rw [List.reverse_cons, List.foldl_append, ih, List.foldl_cons, List.foldl_nil]
    have notNothing : ¬(Path.up = [] ∨ Path.up = here) := by decide
    cases trail with
    | nil => simp [Location.step, notNothing, hanchor]
    | cons last before =>
      have hlast := hbefore last (List.mem_cons_self ..)
      simp [Location.step, notNothing, hlast]
  | name hname _ ih =>
    rw [List.reverse_cons, List.foldl_append, ih, List.foldl_cons, List.foldl_nil]
    have notNothing := not_or.2 ⟨hname.1.1, hname.1.2.1⟩
    exact (if_neg notNothing).trans (if_neg hname.2)

end

theorem trail_ofPath (path : List Char) :
    ∃ trail, Trail (Anchor.ofPath path) trail ∧
      Location.ofPath path = ⟨Anchor.ofPath path, trail.reverse⟩ :=
  ⟨_, Trail.foldl (fun _ hs => not_mem_of_mem_split hs) .start, rfl⟩

/-- **A location is read back from its spelling.** -/
theorem ofPath_toPath {anchor : Anchor} {trail : List Segment} (h : Trail anchor trail) :
    Location.ofPath (Location.mk anchor trail.reverse).toPath = ⟨anchor, trail.reverse⟩ := by
  have isStep : ∀ s ∈ (Location.mk anchor trail.reverse).segments, IsStep s :=
    fun s hs => h.isStep s (List.mem_reverse.1 hs)
  rw [Location.ofPath, anchor_toPath isStep, ← foldl_step_steps, steps_toPath isStep,
    h.foldl_reverse]

/-- Walking leaves nothing but segments of the path. -/
theorem mem_step {anchor : Anchor} {trail : List Segment} {s t : Segment}
    (h : t ∈ Location.step anchor trail s) : t = s ∨ t ∈ trail := by
  rcases step_cases anchor trail s with
    ⟨-, hstep⟩ | ⟨-, -, -, hstep⟩ | ⟨last, before, -, rfl, -, hstep⟩ | ⟨-, -, hstep, -⟩ <;>
    rw [hstep] at h
  · exact .inr h
  · exact absurd h List.not_mem_nil
  · exact .inr (List.mem_cons_of_mem last h)
  · exact List.mem_cons.1 h

theorem mem_ofPath {path : List Char} {s : Segment} (h : s ∈ (Location.ofPath path).segments) :
    s ∈ split '/' path := by
  have walked (segments trail : List Segment)
      (h : s ∈ segments.foldl (Location.step (Anchor.ofPath path)) trail) :
      s ∈ segments ∨ s ∈ trail := by
    induction segments generalizing trail with
    | nil => exact .inr h
    | cons t segments ih =>
      rcases ih _ h with ahead | behind
      · exact .inl (List.mem_cons_of_mem t ahead)
      · rcases mem_step behind with rfl | before
        · exact .inl List.mem_cons_self
        · exact .inr before
  exact (walked _ [] (List.mem_reverse.1 h)).resolve_right List.not_mem_nil

/-! ## Normal and tidy paths -/

theorem plain_joinWith {names : List Segment} (h : ∀ s ∈ names, backslash ∉ s) :
    backslash ∉ joinWith ['/'] names := by
  intro hmem
  rcases mem_joinWith hmem with slash | ⟨s, hs, hc⟩
  · exact absurd slash (by decide)
  · exact h s hs hc

theorem plain_toPath {l : Location} (h : ∀ s ∈ l.segments, backslash ∉ s) :
    backslash ∉ l.toPath := by
  intro hmem
  rcases mem_toPath hmem with slash | dot | ⟨s, hs, hc⟩
  · exact absurd slash (by decide)
  · exact absurd dot (by decide)
  · exact h s hs hc

theorem plain_normalize (path : String) : backslash ∉ (normalize path).toList := by
  rw [normalize, String.toList_ofList]
  refine plain_toPath fun s hs hc => ?_
  obtain ⟨c, -, hc⟩ := List.mem_map.1 (mem_of_mem_split (mem_ofPath hs) hc)
  split at hc
  · exact absurd hc (by decide)
  · next other => exact other hc

theorem plain_joinChars {path next : List Char} (hpath : backslash ∉ path)
    (hnext : backslash ∉ next) : backslash ∉ joinChars path next := by
  have slash : backslash ≠ '/' := by decide
  rw [joinChars]
  split
  · exact hnext
  · split <;> simp [hpath, hnext, slash]

theorem map_slash_of_plain {path : List Char} (h : backslash ∉ path) :
    (path.map fun c => if c = backslash then '/' else c) = path := by
  refine (List.map_congr_left fun c hc => ?_).trans (List.map_id path)
  have hslash : c ≠ backslash := fun hslash => h (hslash ▸ hc)
  exact if_neg hslash

theorem normalizeChars_of_plain {path : List Char} (h : backslash ∉ path) :
    normalizeChars path = (Location.ofPath path).toPath := by
  rw [normalizeChars, map_slash_of_plain h]

/-- A normal path spells a location that walking leads to. -/
theorem trail_normalize (path : String) : ∃ anchor trail, Trail anchor trail ∧
    (normalize path).toList = (Location.mk anchor trail.reverse).toPath := by
  obtain ⟨trail, htrail, hlocation⟩ :=
    trail_ofPath (path.toList.map fun c => if c = backslash then '/' else c)
  exact ⟨_, trail, htrail, by rw [normalize, String.toList_ofList, normalizeChars, hlocation]⟩

/-- **A normal path is its own normal spelling.** -/
theorem normalize_normalize (path : String) : normalize (normalize path) = normalize path := by
  obtain ⟨anchor, trail, htrail, spelled⟩ := trail_normalize path
  refine String.toList_injective ?_
  rw [normalize, String.toList_ofList, normalizeChars_of_plain (plain_normalize path), spelled,
    ofPath_toPath htrail]

section

variable [WorkingFolder]

theorem isName_startOf (path : List Char) : ∀ s ∈ startOf path, IsName s := by
  intro s hs
  unfold startOf at hs
  split at hs
  · exact absurd hs List.not_mem_nil
  · exact WorkingFolder.names s hs

/-- Walking from the working folder leaves a trail of names. -/
theorem exists_trail_rootedSegments (path : List Char) :
    ∃ trail, Trail .root trail ∧ rootedSegments path = trail.reverse := by
  have seen : Trail .root (startOf path).reverse :=
    .of_names fun s hs => isName_startOf path s (List.mem_reverse.1 hs)
  exact ⟨_, seen.foldl fun s hs => not_mem_of_mem_split hs, rfl⟩

theorem isName_rootedSegments (path : List Char) : ∀ s ∈ rootedSegments path, IsName s := by
  obtain ⟨trail, htrail, walked⟩ := exists_trail_rootedSegments path
  intro s hs
  rw [walked] at hs
  exact htrail.isName (by decide) s (List.mem_reverse.1 hs)

/-- A path seen from a folder is normal, if no name on it has a backslash. -/
theorem normalize_absolute {path : String} (plain : backslash ∉ (absolute path).toList) :
    normalize (absolute path) = absolute path := by
  obtain ⟨trail, htrail, walked⟩ := exists_trail_rootedSegments path.toList
  refine String.toList_injective ?_
  rw [normalize, String.toList_ofList, normalizeChars_of_plain plain,
    absolute, String.toList_ofList, walked, ofPath_toPath htrail]

end

theorem tidyChars_toPath {l : Location} (h : ∀ s ∈ l.segments, IsStep s) :
    tidyChars l.toPath = l.toPath := by
  have same := steps_toPath h
  unfold steps at same
  rw [tidyChars, anchor_toPath h, same]

theorem tidy_normalize (path : String) : tidy (normalize path) = normalize path := by
  obtain ⟨anchor, trail, htrail, spelled⟩ := trail_normalize path
  refine String.toList_injective ?_
  rw [tidy, String.toList_ofList, spelled,
    tidyChars_toPath fun s hs => htrail.isStep s (List.mem_reverse.1 hs)]

end RouteTrim.Path
