import Mathlib.Data.List.Basic
import Mathlib.Data.List.TakeDrop

/-! The two channels that tasks are told of things by: a broadcast with a bounded buffer, and a
watched value. -/
namespace Effect

/-- Everything sent so far. A receiver is a position in it. -/
structure Broadcast (α : Type) where
  sent : List α
  closed : Bool

inductive Received (α : Type) where
  | message (a : α)
  | lagged (missed : Nat)
  | closed
deriving DecidableEq, Repr

namespace Broadcast
variable {α : Type}

def send (c : Broadcast α) (a : α) : Broadcast α := { c with sent := c.sent ++ [a] }

/-- Only the last `capacity` messages are kept. A receiver that is further behind is told how many
it missed and goes on with the oldest one kept. `none` waits. -/
def recv (capacity : Nat) (c : Broadcast α) (next : Nat) : Option (Received α) × Nat :=
  if next + capacity < c.sent.length then
    (some (.lagged (c.sent.length - capacity - next)), c.sent.length - capacity)
  else
    match c.sent[next]? with
    | some a => (some (.message a), next + 1)
    | none => (if c.closed then some .closed else none, next)

/-- The messages at the positions from `start` to before `next`. -/
def window (c : Broadcast α) (start next : Nat) : List α := (c.sent.take next).drop start

variable {capacity start next : Nat} {c : Broadcast α}

@[simp] theorem window_self : c.window start start = [] := by
  simp [window]

/-- What a receiver was sent does not change when more is sent. -/
theorem window_send {a : α} (h : next ≤ c.sent.length) :
    (c.send a).window start next = c.window start next := by
  rw [window, window, send, List.take_append_of_le_length h]

theorem window_append {mid : Nat} (hstart : start ≤ mid) (hmid : mid ≤ next)
    (hnext : next ≤ c.sent.length) :
    c.window start next = c.window start mid ++ c.window mid next := by
  have htake : c.sent.take next = c.sent.take mid ++ (c.sent.take next).drop mid := by
    conv_lhs => rw [← List.take_append_drop mid (c.sent.take next)]
    rw [List.take_take, Nat.min_eq_left hmid]
  have hlength : start ≤ (c.sent.take mid).length := by
    rw [List.length_take]
    omega
  rw [window, htake, List.drop_append_of_le_length hlength]
  rfl

theorem length_window (hnext : next ≤ c.sent.length) :
    (c.window start next).length = next - start := by
  rw [window, List.length_drop, List.length_take, Nat.min_eq_left hnext]

theorem window_succ {a : α} (hstart : start ≤ next) (h : c.sent[next]? = some a) :
    c.window start (next + 1) = c.window start next ++ [a] := by
  obtain ⟨hlt, rfl⟩ := List.getElem?_eq_some_iff.mp h
  rw [window_append hstart (Nat.le_succ next) hlt]
  have hone : next.succ - next = 1 := by omega
  congr 1
  rw [window, List.drop_take, List.drop_eq_getElem_cons hlt, hone]
  rfl

/-- What a receive can do. -/
theorem recv_cases (capacity : Nat) (c : Broadcast α) (next : Nat) :
    (next + capacity < c.sent.length ∧
      c.recv capacity next =
        (some (.lagged (c.sent.length - capacity - next)), c.sent.length - capacity)) ∨
    (∃ a, c.sent[next]? = some a ∧ c.recv capacity next = (some (.message a), next + 1)) ∨
    (c.closed ∧ c.recv capacity next = (some .closed, next)) ∨
    c.recv capacity next = (none, next) := by
  unfold recv
  by_cases hlag : next + capacity < c.sent.length
  · rw [if_pos hlag]
    exact Or.inl ⟨hlag, rfl⟩
  rw [if_neg hlag]
  cases hmessage : c.sent[next]? with
  | some a => exact Or.inr (Or.inl ⟨a, rfl, rfl⟩)
  | none =>
    by_cases hclosed : c.closed
    · exact Or.inr (Or.inr (Or.inl ⟨hclosed, by simp [hclosed]⟩))
    · exact Or.inr (Or.inr (Or.inr (by simp [hclosed])))

end Broadcast

/-- A value and how often it was sent. A receiver remembers the version it has seen. -/
structure Watch (α : Type) where
  value : α
  version : Nat

namespace Watch
variable {α : Type}

def new (a : α) : Watch α := ⟨a, 0⟩

def send (w : Watch α) (a : α) : Watch α := ⟨a, w.version + 1⟩

/-- `changed()` is ready. -/
def changed (w : Watch α) (seen : Nat) : Bool := w.version != seen

end Watch

end Effect
