import RouteTrim.Proofs.Failure
import RouteTrim.Route.Descriptor

/-!
# Descriptors that are found

A route has a link exactly if the descriptor of its class is in the store and has one registrar. The
build mode has no part in that.
-/

set_option autoImplicit false

namespace RouteTrim.Route

open RouteTrim.Path (WorkingFolder)
open RouteTrim.Settings (BuildConfig)
open RouteTrim.Tree (Source Parser)

section

variable {config : BuildConfig} {store : FileStore}

namespace Descriptor

theorem registrarOf_eq_ok {source : Source} {name : String} :
    registrarOf source config = .ok name ↔
      ∃ registrar, annotatedClasses source config.registrarDecorator = [registrar] ∧
        registrar.className = name := by
  unfold registrarOf
  split
  · next registrar only =>
    rw [only]
    simp
  · next several =>
    refine ⟨fun h => absurd h (by simp), ?_⟩
    rintro ⟨registrar, only, -⟩
    exact absurd only (several registrar)

theorem resolve_of_none [WorkingFolder] [Parser] {classFile : String}
    (h : store.get? (pathFor config classFile) = none) :
    resolve config store classFile
      = .error (.descriptorNotFound classFile (pathFor config classFile)) := by
  unfold resolve
  dsimp only
  rw [h]
  rfl

theorem resolve_of_some [WorkingFolder] [Parser] {classFile content : String}
    (h : store.get? (pathFor config classFile) = some content) :
    resolve config store classFile = ofRegistrar config (pathFor config classFile) <$>
      registrarIn config (pathFor config classFile) content := by
  unfold resolve
  dsimp only
  rw [h]
  rfl

theorem resolve_eq_ok [WorkingFolder] [Parser] {classFile : String} {descriptor : Descriptor} :
    resolve config store classFile = .ok descriptor ↔
      ∃ content registrar, store.get? (pathFor config classFile) = some content ∧
        registrarIn config (pathFor config classFile) content = .ok registrar ∧
        descriptor = ofRegistrar config (pathFor config classFile) registrar := by
  cases stored : store.get? (pathFor config classFile) with
  | none => simp [resolve_of_none stored]
  | some content =>
    rw [resolve_of_some stored]
    cases registered : registrarIn config (pathFor config classFile) content with
    | error failure => simp [registered]
    | ok registrar => simp [registered, eq_comm]

end Descriptor

theorem Entry.resolve_eq_ok [WorkingFolder] [Parser] {entry : Entry} {link : Link} :
    entry.resolve config store = .ok link ↔
      ∃ descriptor, Descriptor.resolve config store entry.filePath = .ok descriptor ∧
        link = entry.link descriptor := by
  unfold Entry.resolve
  cases Descriptor.resolve config store entry.filePath with
  | error failure => simp
  | ok descriptor => simp [eq_comm]

end

end RouteTrim.Route
