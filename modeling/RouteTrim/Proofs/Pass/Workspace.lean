import RouteTrim.Pass.Workspace
import RouteTrim.Proofs.Failure

/-!
# What passes do

A pass tells the user things, but nothing that it does depends on what was told before. So a pass is
described by what it ends with: a result, or the failure that stopped it, and the files.
-/

set_option autoImplicit false

namespace RouteTrim

namespace Pass

variable {α β : Type} {files after : FileStore}

/-- A pass from some files on ends with a result and with files, whatever it tells. -/
def Ends (pass : Pass α) (files : FileStore) (result : Except Failure α)
    (after : FileStore) : Prop :=
  ∀ notices, ∃ notices', StateT.run (ExceptT.run pass) ⟨files, notices⟩
    = (result, ⟨after, notices'⟩)

/-- A pass does what a function says, or it fails and leaves the files as they are. -/
def AllOrNothing (pass : Pass α) (files : FileStore) : Except Failure (α × FileStore) → Prop
  | .ok (result, after) => Ends pass files (.ok result) after
  | .error failure => Ends pass files (.error failure) files

theorem Ends.run {pass : Pass α} {result : Except Failure α} (h : Ends pass files result after) :
    ∃ notices, Pass.run pass files = (result, ⟨after, notices⟩) :=
  h []

/-- A pass that succeeds did what the function says. -/
theorem AllOrNothing.eq_ok {pass : Pass α} {outcome : Except Failure (α × FileStore)} {result : α}
    {workspace : Workspace} (h : AllOrNothing pass files outcome)
    (run : Pass.run pass files = (.ok result, workspace)) :
    outcome = .ok (result, workspace.files) := by
  cases outcome with
  | error failure =>
    obtain ⟨notices, failed⟩ := Ends.run h
    rw [run] at failed
    exact absurd failed (by simp)
  | ok found =>
    obtain ⟨notices, done⟩ := Ends.run h
    rw [run] at done
    obtain ⟨hresult, rfl⟩ := Prod.mk.inj done
    rw [Except.ok.inj hresult]

theorem Ends.bind {pass : Pass α} {next : α → Pass β} {a : α} {between : FileStore}
    {result : Except Failure β} (h : Ends pass files (.ok a) between)
    (hnext : Ends (next a) between result after) : Ends (pass >>= next) files result after := by
  intro notices
  obtain ⟨notices', h⟩ := h notices
  rw [run_bind, h]
  exact hnext notices'

theorem Ends.bind_error {pass : Pass α} {next : α → Pass β} {failure : Failure}
    (h : Ends pass files (.error failure) after) :
    Ends (pass >>= next) files (.error failure) after := by
  intro notices
  obtain ⟨notices', h⟩ := h notices
  rw [run_bind, h]
  exact ⟨notices', rfl⟩

/-- A pass that first reads something does all or nothing if what follows does. -/
theorem AllOrNothing.read {pass : Pass α} {next : α → Pass β} {found : Except Failure α}
    {outcome : α → Except Failure (β × FileStore)} (h : Ends pass files found files)
    (hnext : ∀ a, AllOrNothing (next a) files (outcome a)) :
    AllOrNothing (pass >>= next) files (found >>= outcome) := by
  cases found with
  | error failure => exact Ends.bind_error h
  | ok a =>
    have rest := hnext a
    show AllOrNothing _ files (outcome a)
    cases houtcome : outcome a with
    | error failure =>
      rw [houtcome] at rest
      exact Ends.bind h rest
    | ok done =>
      rw [houtcome] at rest
      exact Ends.bind h rest

theorem ends_pure (a : α) : Ends (pure a) files (.ok a) files :=
  fun notices => ⟨notices, rfl⟩

theorem ends_liftM (result : Except Failure α) : Ends (liftM result) files result files := by
  intro notices
  cases result <;> exact ⟨notices, rfl⟩

theorem ends_ofExcept (result : Except Failure α) :
    Ends (MonadExcept.ofExcept result) files result files := by
  intro notices
  cases result <;> exact ⟨notices, rfl⟩

theorem ends_store : Ends store files (.ok files) files :=
  fun notices => ⟨notices, rfl⟩

theorem ends_content (path : String) : Ends (content path) files (files.content path) files :=
  ends_store.bind (ends_liftM _)

theorem ends_setContent (path text : String) :
    Ends (setContent path text) files (.ok ()) (files.set path text) :=
  fun notices => ⟨notices, rfl⟩

theorem ends_tell (notice : Notice) : Ends (tell notice) files (.ok ()) files :=
  fun notices => ⟨notices ++ [notice], rfl⟩

theorem ends_forM_tell (notices : List Notice) : Ends (notices.forM tell) files (.ok ()) files := by
  induction notices with
  | nil => exact ends_pure ()
  | cons notice notices ih => exact (ends_tell notice).bind ih

/-- A computation without a store leaves the files as they are. -/
theorem ends_ofNoted (noted : Noted α) : Ends (ofNoted noted) files noted.result.1 files :=
  (ends_forM_tell _).bind (ends_ofExcept _)

end Pass

end RouteTrim
