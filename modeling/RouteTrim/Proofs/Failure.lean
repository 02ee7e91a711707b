import RouteTrim.Failure
import Mathlib.Data.List.Forall2

/-!
# Computations that may fail

A computation that succeeds did so in each of its parts.
-/

set_option autoImplicit false

namespace RouteTrim

variable {α β : Type}

theorem bind_eq_ok {ε : Type} {x : Except ε α} {f : α → Except ε β} {b : β} :
    (x >>= f) = .ok b ↔ ∃ a, x = .ok a ∧ f a = .ok b := by
  cases x <;> simp [bind, Except.bind]

theorem bind_eq_error {x : Except Failure α} {f : α → Except Failure β} {failure : Failure} :
    (x >>= f) = .error failure ↔ x = .error failure ∨ ∃ a, x = .ok a ∧ f a = .error failure := by
  cases x <;> simp [bind, Except.bind]

theorem toOption_eq_some {x : Except Failure α} {a : α} : x.toOption = some a ↔ x = .ok a := by
  cases x <;> simp [Except.toOption]

/-- A computation over a list succeeds if it does for each item. -/
theorem mapM_eq_ok {f : α → Except Failure β} {as : List α} {bs : List β} :
    as.mapM f = .ok bs ↔ List.Forall₂ (fun a b => f a = .ok b) as bs := by
  induction as generalizing bs with
  | nil =>
    rw [List.forall₂_nil_left_iff]
    exact ⟨fun h => (Except.ok.inj h).symm, fun h => congrArg Except.ok h.symm⟩
  | cons a as ih =>
    rw [List.mapM_cons, List.forall₂_cons_left_iff, bind_eq_ok]
    refine exists_congr fun b => ?_
    rw [bind_eq_ok]
    constructor
    · rintro ⟨hb, rest, hrest, h⟩
      exact ⟨rest, hb, ih.1 hrest, (Except.ok.inj h).symm⟩
    · rintro ⟨rest, hb, hrest, rfl⟩
      exact ⟨hb, rest, ih.2 hrest, rfl⟩

/-- A computation over a list that succeeds on each item gives the list of the results. -/
theorem mapM_of_forall_ok {f : α → Except Failure β} {g : α → β} {as : List α}
    (h : ∀ a ∈ as, f a = .ok (g a)) : as.mapM f = .ok (as.map g) :=
  mapM_eq_ok.2 (List.forall₂_map_right_iff.2 (List.forall₂_same.2 h))

/-- Computations over a list that agree on each item, as far as `g` tells, agree as a whole. -/
theorem map_mapM_congr {γ : Type} {f f' : α → Except Failure β} {g : β → γ} {as : List α}
    (h : ∀ a ∈ as, g <$> f a = g <$> f' a) :
    List.map g <$> as.mapM f = List.map g <$> as.mapM f' := by
  have itemwise (f : α → Except Failure β) (as : List α) :
      List.map g <$> as.mapM f = as.mapM fun a => g <$> f a := by
    induction as with
    | nil => rfl
    | cons a as ih =>
      simp only [List.mapM_cons, map_bind, bind_map_left, map_pure, List.map_cons, ← ih]
  rw [itemwise, itemwise]
  induction as with
  | nil => rfl
  | cons a as ih =>
    obtain ⟨first, rest⟩ := List.forall_mem_cons.1 h
    rw [List.mapM_cons, List.mapM_cons, first, ih rest]

/-- A computation over a list that fails does so on one of the items. -/
theorem exists_of_mapM_eq_error {f : α → Except Failure β} {as : List α} {failure : Failure}
    (h : as.mapM f = .error failure) : ∃ a ∈ as, f a = .error failure := by
  induction as with
  | nil => cases h
  | cons a as ih =>
    rw [List.mapM_cons] at h
    cases first : f a with
    | error other =>
      rw [first] at h
      obtain rfl : other = failure := Except.error.inj h
      exact ⟨a, .head _, first⟩
    | ok b =>
      cases rest : as.mapM f with
      | error other =>
        rw [first, rest] at h
        obtain rfl : other = failure := Except.error.inj h
        obtain ⟨c, hc, found⟩ := ih rest
        exact ⟨c, .tail _ hc, found⟩
      | ok bs =>
        rw [first, rest] at h
        cases h

theorem exists_of_mem_right {R : α → β → Prop} {as : List α} {bs : List β}
    (h : List.Forall₂ R as bs) {b : β} (hb : b ∈ bs) : ∃ a ∈ as, R a b := by
  induction h with
  | nil => exact absurd hb List.not_mem_nil
  | cons pair _ ih =>
    rcases List.mem_cons.1 hb with rfl | hb
    · exact ⟨_, .head _, pair⟩
    · obtain ⟨a, ha, pair⟩ := ih hb
      exact ⟨a, .tail _ ha, pair⟩

/-- A computation over a list that succeeds does so on each of the items. -/
theorem forall_ok_of_mapM_eq_ok {f : α → Except Failure β} {as : List α} {bs : List β}
    (h : as.mapM f = .ok bs) : ∀ a ∈ as, ∃ b, f a = .ok b := by
  intro a ha
  have pairs : List.Forall₂ (flip fun a b => f a = .ok b) bs as := (mapM_eq_ok.1 h).flip
  obtain ⟨b, -, pair⟩ := exists_of_mem_right pairs ha
  exact ⟨b, pair⟩

theorem mem_of_mapM_eq_ok {f : α → Except Failure β} {as : List α} {bs : List β}
    (h : as.mapM f = .ok bs) : ∀ b ∈ bs, ∃ a ∈ as, f a = .ok b :=
  fun _ hb => exists_of_mem_right (mapM_eq_ok.1 h) hb

/-- Two computations over a list, one behind the other, succeed if they do for each item. -/
theorem steps_of_mapM_eq_ok {γ : Type} {f : α → Except Failure β} {g : β → Except Failure γ}
    {as : List α} {bs : List β} {cs : List γ} (first : as.mapM f = .ok bs)
    (next : bs.mapM g = .ok cs) :
    List.Forall₂ (fun a c => ∃ b, f a = .ok b ∧ g b = .ok c) as cs := by
  replace first := mapM_eq_ok.1 first
  replace next := mapM_eq_ok.1 next
  induction first generalizing cs with
  | nil =>
    cases next
    exact .nil
  | cons hf _ ih =>
    cases next with
    | cons hg rest => exact .cons ⟨_, hf, hg⟩ (ih rest)

/-- A check over a list succeeds if it does for each item. -/
theorem forM_eq_ok {f : α → Except Failure Unit} {as : List α} :
    as.forM f = .ok () ↔ ∀ a ∈ as, f a = .ok () := by
  induction as with
  | nil => exact ⟨fun _ => List.forall_mem_nil _, fun _ => rfl⟩
  | cons a as ih =>
    rw [List.forall_mem_cons, ← ih]
    show (f a >>= fun _ => as.forM f) = .ok () ↔ _
    rw [bind_eq_ok]
    exact ⟨fun ⟨_, ha, has⟩ => ⟨ha, has⟩, fun ⟨ha, has⟩ => ⟨(), ha, has⟩⟩

/-- A stateful computation goes on from where its first part ends, unless that part fails. -/
theorem run_bind {σ : Type} (program : ExceptT Failure (StateM σ) α)
    (next : α → ExceptT Failure (StateM σ) β) (state : σ) :
    StateT.run (ExceptT.run (program >>= next)) state
      = match StateT.run (ExceptT.run program) state with
        | (.ok a, between) => StateT.run (ExceptT.run (next a)) between
        | (.error failure, between) => (.error failure, between) := by
  rw [ExceptT.run_bind, StateT.run_bind]
  rcases StateT.run (ExceptT.run program) state with ⟨failure | a, between⟩ <;> rfl

/-- A stateful computation that fails is taken up from where it failed. -/
theorem run_tryCatch {σ : Type} (program : ExceptT Failure (StateM σ) α)
    (handle : Failure → ExceptT Failure (StateM σ) α) (state : σ) :
    StateT.run (ExceptT.run (tryCatch program handle)) state
      = match StateT.run (ExceptT.run program) state with
        | (.ok a, between) => (.ok a, between)
        | (.error failure, between) => StateT.run (ExceptT.run (handle failure)) between := by
  rw [ExceptT.run_tryCatch, StateT.run_bind]
  rcases StateT.run (ExceptT.run program) state with ⟨failure | a, between⟩ <;> rfl

end RouteTrim
