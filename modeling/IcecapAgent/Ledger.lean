import Mathlib.Data.Finset.Basic
import IcecapAgent.StepRun

/- A ledger of resources that are acquired, used and given back.

   What a program does with its resources is a list of entries. The ledger holds what is
   acquired and not given back yet, and takes an entry only in its place: a resource is
   acquired when it is not held, used and released when it is. A list of entries that a
   ledger takes has no use after release and no double release, at any point of it.

   `run_balance` — a resource is acquired as often as it is released, but for what is held
   before and after. -/
namespace Ledger
open StepRun

inductive Entry (R : Type) where
  | acquire (r : R)
  | use (r : R)
  | release (r : R)
  deriving DecidableEq, Repr

variable {R : Type} [DecidableEq R]

/-- The ledger takes an entry, or has none to put it. -/
def enter (held : Finset R) : Entry R → Option (Finset R)
  | .acquire r => if r ∈ held then none else some (insert r held)
  | .use r => if r ∈ held then some held else none
  | .release r => if r ∈ held then some (held.erase r) else none

section
variable {held held' : Finset R} {r : R} {entries : List (Entry R)}

theorem enter_balance {e : Entry R} (h : enter held e = some held') (r : R) :
    (if e = .acquire r then 1 else 0) + (if r ∈ held then 1 else 0) =
      (if e = .release r then 1 else 0) + (if r ∈ held' then 1 else 0) := by
  cases e with
  | acquire r' =>
    simp only [enter, Option.ite_none_left_eq_some, Option.some.injEq] at h
    obtain ⟨hnew, rfl⟩ := h
    by_cases hr : r' = r
    · subst hr
      simp [hnew]
    · simp [hr, Ne.symm hr]
  | use r' =>
    simp only [enter, Option.ite_none_right_eq_some, Option.some.injEq] at h
    obtain ⟨-, rfl⟩ := h
    simp
  | release r' =>
    simp only [enter, Option.ite_none_right_eq_some, Option.some.injEq] at h
    obtain ⟨hheld, rfl⟩ := h
    by_cases hr : r' = r
    · subst hr
      simp [hheld]
    · simp [hr, Ne.symm hr]

/-- **The books balance**: acquired as often as released, but for what is held. -/
theorem run_balance (hrun : run enter held entries = some held') (r : R) :
    entries.count (.acquire r) + (if r ∈ held then 1 else 0) =
      entries.count (.release r) + (if r ∈ held' then 1 else 0) := by
  induction entries generalizing held with
  | nil =>
    obtain rfl : held = held' := by simpa using hrun
    rfl
  | cons e entries ih =>
    obtain ⟨held₁, hfirst, hrest⟩ := run_cons.mp hrun
    have hentry := enter_balance hfirst r
    have hothers := ih hrest
    rw [List.count_cons, List.count_cons]
    simp only [beq_iff_eq]
    omega

end

end Ledger
