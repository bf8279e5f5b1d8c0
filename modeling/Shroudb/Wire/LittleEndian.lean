import Mathlib.Data.Nat.Digits.Lemmas
import Shroudb.Wire.Utf8

/-! Little-endian integers of a fixed width. -/
namespace Wire

/-- The low `width` bytes of `n`, the least significant first. -/
def leBytes : (width : Nat) → (n : Nat) → Bytes
  | 0, _ => []
  | width + 1, n => UInt8.ofNat n :: leBytes width (n / 256)

def ofLe (bs : Bytes) : Nat := Nat.ofDigits 256 (bs.map UInt8.toNat)

@[simp] theorem ofLe_nil : ofLe [] = 0 := rfl

@[simp] theorem ofLe_cons (b : UInt8) (bs : Bytes) :
    ofLe (b :: bs) = b.toNat + 256 * ofLe bs := by
  simp [ofLe, Nat.ofDigits_cons]

theorem ofLe_append (xs ys : Bytes) : ofLe (xs ++ ys) = ofLe xs + 256 ^ xs.length * ofLe ys := by
  simp [ofLe, Nat.ofDigits_append]

@[simp] theorem length_leBytes (width n : Nat) : (leBytes width n).length = width := by
  induction width generalizing n with
  | zero => rfl
  | succ width ih => rw [leBytes, List.length_cons, ih]

/-- What does not fit is lost. -/
theorem ofLe_leBytes (width n : Nat) : ofLe (leBytes width n) = n % 256 ^ width := by
  induction width generalizing n with
  | zero => rw [leBytes, ofLe_nil, Nat.pow_zero, Nat.mod_one]
  | succ width ih =>
    have hb : (UInt8.ofNat n).toNat = n % 256 := UInt8.toNat_ofNat'
    rw [leBytes, ofLe_cons, ih, hb, Nat.pow_succ', Nat.mod_mul]

theorem ofLe_leBytes_of_lt {width n : Nat} (h : n < 256 ^ width) :
    ofLe (leBytes width n) = n := by
  rw [ofLe_leBytes, Nat.mod_eq_of_lt h]

theorem leBytes_ofLe (bs : Bytes) : leBytes bs.length (ofLe bs) = bs := by
  induction bs with
  | nil => rfl
  | cons b bs ih =>
    have hlt : b.toNat < 256 := b.toNat_lt
    have hlow : UInt8.ofNat (b.toNat + 256 * ofLe bs) = b := by
      apply UInt8.toNat_inj.mp
      rw [UInt8.toNat_ofNat']
      omega
    have hhigh : (b.toNat + 256 * ofLe bs) / 256 = ofLe bs := by omega
    rw [ofLe_cons, List.length_cons, leBytes, hlow, hhigh, ih]

theorem ofLe_lt (bs : Bytes) : ofLe bs < 256 ^ bs.length := by
  have h := Nat.ofDigits_lt_base_pow_length (b := 256) (l := bs.map UInt8.toNat) (by omega)
    (by
      simp only [List.mem_map]
      rintro _ ⟨b, -, rfl⟩
      exact b.toNat_lt)
  rwa [List.length_map] at h

/-- A last byte other than 0 makes the integer large. -/
theorem le_ofLe_concat {bs : Bytes} {b : UInt8} (h : b ≠ 0) :
    256 ^ bs.length ≤ ofLe (bs ++ [b]) := by
  have hpos : 0 < b.toNat := Nat.pos_of_ne_zero fun he => h (UInt8.toNat_inj.mp he)
  have hmul := Nat.le_mul_of_pos_right (256 ^ bs.length) hpos
  rw [ofLe_append, ofLe_cons, ofLe_nil, Nat.mul_zero, Nat.add_zero]
  exact Nat.le_trans hmul (Nat.le_add_left _ _)

end Wire
