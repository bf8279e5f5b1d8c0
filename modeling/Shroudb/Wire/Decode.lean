import Mathlib.Data.List.Forall2
import Shroudb.Wire.Reader

/-! Decoding a whole byte stream by reading message after message. -/
namespace Wire

/-- How a stream of messages stops: cleanly, on an error, or short of bytes. -/
inductive Ending (ε : Type) where
  | finished
  | failed (e : ε)
  | waiting

namespace Reader
variable {ε α : Type}

/-- The messages of the first `calls` reads; `none` from the reader is a clean end. -/
def decodeCalls (r : Reader ε (Option α)) (ended : Bool) : Nat → Bytes → List α × Ending ε
  | 0, _ => ([], .waiting)
  | calls + 1, bs =>
    match r ended bs with
    | .done (some a) rest => (a :: (decodeCalls r ended calls rest).1, (decodeCalls r ended calls rest).2)
    | .done none _ => ([], .finished)
    | .fail e _ => ([], .failed e)
    | .more => ([], .waiting)

/-- A read that returns a message takes a byte, so no stream holds more messages than bytes. -/
def decode (r : Reader ε (Option α)) (ended : Bool) (bs : Bytes) : List α × Ending ε :=
  decodeCalls r ended (bs.length + 1) bs

variable {r : Reader ε (Option α)}

theorem decodeCalls_flatten {calls : Nat} {xs : List Bytes} {as : List α}
    (hend : r true [] = .done none []) (h : List.Forall₂ (fun x a => Reads r x (some a)) xs as)
    (hc : as.length < calls) : decodeCalls r true calls xs.flatten = (as, .finished) := by
  induction h generalizing calls with
  | nil =>
    obtain ⟨calls, rfl⟩ := Nat.exists_eq_succ_of_ne_zero (Nat.ne_of_gt hc)
    simp [decodeCalls, hend]
  | cons hx _ ih =>
    obtain ⟨calls, rfl⟩ := Nat.exists_eq_succ_of_ne_zero (Nat.ne_of_gt (Nat.zero_lt_of_lt hc))
    have hr := ih (Nat.lt_of_succ_lt_succ hc)
    simp [decodeCalls, hx true _, hr]

theorem decode_flatten {xs : List Bytes} {as : List α} (hend : r true [] = .done none [])
    (h : List.Forall₂ (fun x a => Reads r x (some a)) xs as) (hne : ∀ x ∈ xs, x ≠ []) :
    decode r true xs.flatten = (as, .finished) := by
  apply decodeCalls_flatten hend h
  rw [← h.length_eq, Nat.lt_succ_iff, List.length_flatten]
  clear h
  induction xs with
  | nil => simp
  | cons x xs ih =>
    have hx := List.length_pos_iff.mpr (hne x (by simp))
    have hxs := ih fun y hy => hne y (by simp [hy])
    simp only [List.length_cons, List.map_cons, List.sum_cons]
    omega

end Reader

end Wire
