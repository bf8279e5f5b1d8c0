import Mathlib.Tactic.SplitIfs

/-! Upper and lower case of ASCII letters. -/
namespace Wire

theorem toNat_toUpper (c : Char) :
    c.toUpper.toNat = if 97 ≤ c.toNat ∧ c.toNat ≤ 122 then c.toNat - 32 else c.toNat := by
  unfold Char.toUpper
  split
  case isTrue h =>
    have hlow : 97 ≤ c.val.toNat := h.1
    have hhigh : c.val.toNat ≤ 122 := h.2
    change (c.val + 4294967264).toNat = if 97 ≤ c.val.toNat ∧ c.val.toNat ≤ 122 then _ else _
    rw [if_pos ⟨hlow, hhigh⟩, UInt32.toNat_add]
    change (c.val.toNat + 4294967264) % 2 ^ 32 = c.val.toNat - 32
    omega
  case isFalse h =>
    rw [if_neg]
    exact h

theorem toNat_toLower (c : Char) :
    c.toLower.toNat = if 65 ≤ c.toNat ∧ c.toNat ≤ 90 then c.toNat + 32 else c.toNat := by
  unfold Char.toLower
  split
  case isTrue h =>
    have hlow : 65 ≤ c.val.toNat := h.1
    have hhigh : c.val.toNat ≤ 90 := h.2
    change (c.val + 32).toNat = if 65 ≤ c.val.toNat ∧ c.val.toNat ≤ 90 then _ else _
    rw [if_pos ⟨hlow, hhigh⟩, UInt32.toNat_add]
    change (c.val.toNat + 32) % 2 ^ 32 = c.val.toNat + 32
    omega
  case isFalse h =>
    rw [if_neg]
    exact h

theorem toUpper_toUpper (c : Char) : c.toUpper.toUpper = c.toUpper := by
  rw [← Char.toNat_inj, toNat_toUpper c.toUpper, toNat_toUpper]
  split_ifs <;> omega

theorem toLower_eq_iff {c d : Char} : c.toLower = d.toLower ↔ c.toUpper = d.toUpper := by
  rw [← Char.toNat_inj, ← Char.toNat_inj, toNat_toLower, toNat_toLower, toNat_toUpper,
    toNat_toUpper]
  split_ifs <;> omega

theorem map_toLower_eq_iff {cs ds : List Char} :
    cs.map Char.toLower = ds.map Char.toLower ↔ cs.map Char.toUpper = ds.map Char.toUpper := by
  induction cs generalizing ds with
  | nil => cases ds <;> simp
  | cons c cs ih =>
    cases ds with
    | nil => simp
    | cons d ds => simp [toLower_eq_iff, ih]

end Wire
