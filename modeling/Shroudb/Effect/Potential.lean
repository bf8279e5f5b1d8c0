import Mathlib.Algebra.Group.Hom.Defs
import Mathlib.Algebra.Order.Group.Defs
import Shroudb.Effect.Schedule

/-! Costs along a schedule, paid for by a potential of the state. -/
namespace Effect.Schedule

variable {S A M N : Type} {step : S → A → S}

/-- What the moves of a schedule cost, each in the state it is made in. -/
def total [Zero M] [Add M] (step : S → A → S) (cost : S → A → M) : S → List A → M
  | _, [] => 0
  | s, a :: moves => cost s a + total step cost (step s a) moves

theorem map_total [AddCommMonoid M] [AddCommMonoid N] (f : M →+ N) {cost : S → A → M} {s : S}
    {moves : List A} :
    f (total step cost s moves) = total step (fun s a => f (cost s a)) s moves := by
  induction moves generalizing s with
  | nil => exact map_zero f
  | cons a moves ih => rw [total, total, map_add, ih]

/-- When the potential pays for each guarded move, it pays for a guarded schedule. -/
theorem total_le [AddCommMonoid M] [PartialOrder M] [IsOrderedAddMonoid M]
    {guard : S → A → Prop} {cost : S → A → M} {potential : S → M} {s : S} {moves : List A}
    (hstep : ∀ s a, guard s a → cost s a + potential (step s a) ≤ potential s)
    (hguard : Guarded step guard s moves) :
    total step cost s moves + potential (run step s moves) ≤ potential s := by
  induction moves generalizing s with
  | nil => simp [total, run]
  | cons a moves ih =>
    calc cost s a + total step cost (step s a) moves + potential (run step (step s a) moves)
        = cost s a + (total step cost (step s a) moves +
            potential (run step (step s a) moves)) := add_assoc _ _ _
      _ ≤ cost s a + potential (step s a) := by gcongr; exact ih hguard.2
      _ ≤ potential s := hstep s a hguard.1

end Effect.Schedule
