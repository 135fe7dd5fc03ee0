/-
**Runs of commuting steps.**

A step that may refuse is run over a list of items with `foldlM`. When two steps in a row may be taken
in the other order with the same outcome (`Commutes`), a run over a list is a run over every
permutation of it (`Commutes.run_perm`).
-/

import Mathlib.Data.List.Perm.Basic

namespace Bootsmith.Library

variable {σ α : Type} {step : σ → α → Option σ} {inv : σ → Prop}

/-- A step keeps the invariant. -/
def Preserves (step : σ → α → Option σ) (inv : σ → Prop) : Prop :=
  ∀ state item next, inv state → step state item = some next → inv next

/-- Under the invariant, two steps in a row may be taken in the other order. -/
def Commutes (step : σ → α → Option σ) (inv : σ → Prop) : Prop :=
  ∀ state first second middle last, inv state → step state first = some middle →
    step middle second = some last →
    ∃ other, step state second = some other ∧ step other first = some last

theorem foldlM_cons_eq_some {state last : σ} {item : α} {items : List α} :
    (item :: items).foldlM step state = some last ↔
      ∃ middle, step state item = some middle ∧ items.foldlM step middle = some last := by
  rw [List.foldlM_cons]
  exact Option.bind_eq_some_iff

/-- **The order of commuting steps does not matter.** -/
theorem Commutes.run_perm (commutes : Commutes step inv) (preserves : Preserves step inv)
    {items items' : List α} (perm : items.Perm items') {state last : σ} (holds : inv state)
    (run : items.foldlM step state = some last) : items'.foldlM step state = some last := by
  induction perm generalizing state with
  | nil => exact run
  | cons item _ ih =>
    obtain ⟨middle, one, rest⟩ := foldlM_cons_eq_some.mp run
    exact foldlM_cons_eq_some.mpr ⟨middle, one, ih (preserves state item middle holds one) rest⟩
  | swap second first items =>
    obtain ⟨middle, one, run⟩ := foldlM_cons_eq_some.mp run
    obtain ⟨next, two, rest⟩ := foldlM_cons_eq_some.mp run
    obtain ⟨other, two', one'⟩ := commutes state _ _ middle next holds one two
    exact foldlM_cons_eq_some.mpr ⟨other, two', foldlM_cons_eq_some.mpr ⟨next, one', rest⟩⟩
  | trans _ _ first second => exact second holds (first holds run)

end Bootsmith.Library
