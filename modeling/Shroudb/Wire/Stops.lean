import Mathlib.Tactic.Common
import Shroudb.Wire.Stream

/-! The ways in which a read returns nothing. -/
namespace Wire

/-- How a read stops that returns nothing: with an error, or waiting for more. -/
def Poll.stop {ε α : Type} : Poll ε α → Option (Option ε)
  | .done _ _ => none
  | .fail e _ => some (some e)
  | .more => some none

namespace Reader
variable {ε α β : Type} {bad : Option ε → Prop} {r : Reader ε α} {f : α → Reader ε β}
  {ended : Bool} {bs : Bytes}

/-- The read stops in one of the `bad` ways. -/
def Stops (bad : Option ε → Prop) (r : Reader ε α) (ended : Bool) (bs : Bytes) : Prop :=
  ∃ way, (r ended bs).stop = some way ∧ bad way

@[simp] theorem stops_pure (a : α) : ¬ Stops bad (pure a : Reader ε α) ended bs := by
  rintro ⟨way, hstop, -⟩
  cases hstop

@[simp] theorem stops_fail (e : ε) : Stops bad (fail e : Reader ε α) ended bs ↔ bad (some e) := by
  simp [Stops, fail, Poll.stop]

theorem stops_bind :
    Stops bad (r >>= f) ended bs ↔ Stops bad r ended bs ∨
      ∃ a mid, r ended bs = .done a mid ∧ Stops bad (f a) ended mid := by
  unfold Stops
  cases h : r ended bs with
  | done a mid => simp [bind_done h, Poll.stop]
  | fail e rest => simp [bind_fail h, Poll.stop]
  | more => simp [bind_more h, Poll.stop]

/-! ## One read after the other -/

/-- So many reads in a row lead from `bs` to `mid`. -/
def Passes (r : Reader ε α) (ended : Bool) (n : Nat) (bs mid : Bytes) : Prop :=
  ∃ as, times r n ended bs = .done as mid

theorem passes_zero {mid : Bytes} : Passes r ended 0 bs mid ↔ mid = bs := by
  simp [Passes, times, eq_comm]

theorem passes_succ {n : Nat} {mid : Bytes} :
    Passes r ended (n + 1) bs mid ↔
      ∃ a next, r ended bs = .done a next ∧ Passes r ended n next mid := by
  constructor
  · rintro ⟨as, h⟩
    obtain ⟨a, next, ha, h⟩ := bind_eq_done.mp h
    obtain ⟨as', mid', has, h⟩ := bind_eq_done.mp h
    cases h
    exact ⟨a, next, ha, as', has⟩
  · rintro ⟨a, next, ha, as, has⟩
    refine ⟨a :: as, ?_⟩
    rw [times, bind_done ha, bind_done has, pure_apply]

theorem passes_succ_last {n : Nat} {mid : Bytes} :
    Passes r ended (n + 1) bs mid ↔
      ∃ a last, Passes r ended n bs last ∧ r ended last = .done a mid := by
  induction n generalizing bs with
  | zero => simp [passes_succ, passes_zero, eq_comm]
  | succ n ih =>
    rw [passes_succ]
    constructor
    · rintro ⟨a, next, ha, hrest⟩
      obtain ⟨b, last, hpasses, hb⟩ := ih.mp hrest
      exact ⟨b, last, passes_succ.mpr ⟨a, next, ha, hpasses⟩, hb⟩
    · rintro ⟨b, last, hpasses, hb⟩
      obtain ⟨a, next, ha, hrest⟩ := passes_succ.mp hpasses
      exact ⟨a, next, ha, ih.mpr ⟨b, last, hrest, hb⟩⟩

theorem Passes.length_le {n : Nat} {mid : Bytes} (h : Passes r ended n bs mid) (hr : Lawful r) :
    mid.length ≤ bs.length := by
  obtain ⟨as, has⟩ := h
  exact ((hr.times n).suffix has).length_le

/-- A run of reads stops where one of them does. -/
theorem stops_times {n : Nat} :
    Stops bad (times r n) ended bs ↔
      ∃ k mid, k < n ∧ Passes r ended k bs mid ∧ Stops bad r ended mid := by
  induction n generalizing bs with
  | zero => simp [times]
  | succ n ih =>
    rw [times, stops_bind]
    constructor
    · rintro (hfirst | ⟨a, next, ha, hrest⟩)
      · exact ⟨0, bs, Nat.succ_pos n, passes_zero.mpr rfl, hfirst⟩
      · rcases stops_bind.mp hrest with hrest | ⟨as, mid, -, hlast⟩
        · obtain ⟨k, mid, hk, hpasses, hstops⟩ := ih.mp hrest
          exact ⟨k + 1, mid, Nat.succ_lt_succ hk, passes_succ.mpr ⟨a, next, ha, hpasses⟩, hstops⟩
        · exact absurd hlast (stops_pure _)
    · rintro ⟨k, mid, hk, hpasses, hstops⟩
      cases k with
      | zero =>
        obtain rfl := passes_zero.mp hpasses
        exact Or.inl hstops
      | succ k =>
        obtain ⟨a, next, ha, hpasses⟩ := passes_succ.mp hpasses
        refine Or.inr ⟨a, next, ha, stops_bind.mpr (Or.inl ?_)⟩
        exact ih.mpr ⟨k, mid, Nat.lt_of_succ_lt_succ hk, hpasses, hstops⟩

/-! ## Single reads -/

/-- A line stops at bytes that are no text, or where it is cut short. -/
theorem stops_line {invalid : ε} (h : Stops bad (line invalid) ended bs) :
    bad (some invalid) ∨ ended = false ∧ bad none := by
  obtain ⟨way, hstop, hbad⟩ := h
  rw [line] at hstop
  split at hstop
  · split at hstop
    · cases hstop
    · cases hstop
      exact Or.inl hbad
  · split_ifs at hstop with hended
    · split at hstop
      · cases hstop
      · cases hstop
        exact Or.inl hbad
    · cases hstop
      exact Or.inr ⟨by simpa using hended, hbad⟩

theorem stops_exactly {n : Nat} {eof : ε} (h : Stops bad (exactly n eof) ended bs) :
    bad (some eof) ∨ ended = false ∧ bad none := by
  obtain ⟨way, hstop, hbad⟩ := h
  unfold exactly at hstop
  split_ifs at hstop with hlen hended
  · cases hstop
  · cases hstop
    exact Or.inl hbad
  · cases hstop
    exact Or.inr ⟨by simpa using hended, hbad⟩

end Reader

end Wire
