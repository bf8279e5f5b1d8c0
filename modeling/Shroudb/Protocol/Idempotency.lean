import Mathlib.Logic.Function.Basic
import Shroudb.Resp3.Frame

/-! The cache of pipeline responses, keyed by request id. -/
namespace Shroudb

/-- Instants are in nanoseconds on a monotone clock. -/
abbrev Instant := Nat

def defaultTtlSecs : Nat := 300

structure CachedResponse where
  frame : Resp3Frame
  createdAt : Instant

/-- `created_at.elapsed().as_secs()`, which saturates at zero. -/
def CachedResponse.elapsedSecs (entry : CachedResponse) (now : Instant) : Nat :=
  (now - entry.createdAt) / 10 ^ 9

def CachedResponse.expired (entry : CachedResponse) (now : Instant) : Bool :=
  entry.elapsedSecs now ≥ defaultTtlSecs

def IdempotencyMap := String → Option CachedResponse

namespace IdempotencyMap

def new : IdempotencyMap := fun _ => none

/-- The frame that is live under an id, if any. -/
def live (m : IdempotencyMap) (id : String) (now : Instant) : Option Resp3Frame :=
  match m id with
  | some entry => if entry.expired now then none else some entry.frame
  | none => none

/-- An expired entry is removed when it is looked up. -/
def get (m : IdempotencyMap) (id : String) (now : Instant) : Option Resp3Frame × IdempotencyMap :=
  match m id with
  | none => (none, m)
  | some entry =>
    if entry.expired now then (none, Function.update m id none) else (some entry.frame, m)

def insert (m : IdempotencyMap) (id : String) (frame : Resp3Frame) (now : Instant) :
    IdempotencyMap :=
  Function.update m id (some ⟨frame, now⟩)

def prune (m : IdempotencyMap) (now : Instant) : IdempotencyMap := fun id =>
  (m id).filter fun entry => !entry.expired now

theorem get_fst (m : IdempotencyMap) (id : String) (now : Instant) :
    (m.get id now).1 = m.live id now := by
  unfold get live
  cases m id with
  | none => rfl
  | some entry => by_cases h : entry.expired now <;> simp [h]

end IdempotencyMap

end Shroudb
