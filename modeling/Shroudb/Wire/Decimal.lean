import Mathlib.Algebra.Group.Nat.Defs
import Mathlib.Data.List.Basic
import Mathlib.Tactic.Common

/-! Decimal integers as text: printing, and checked left-to-right parsing. -/
namespace Wire

inductive IntErrorKind where
  | empty
  | invalidDigit
  | posOverflow
  | negOverflow
deriving DecidableEq, Repr

def IntErrorKind.text : IntErrorKind → String
  | .empty => "cannot parse integer from empty string"
  | .invalidDigit => "invalid digit found in string"
  | .posOverflow => "number too large to fit in target type"
  | .negOverflow => "number too small to fit in target type"

def digitValue (c : Char) : Nat := c.toNat - '0'.toNat

/-- Accumulate digits, stopping at the first bad character or at the first overflow. -/
def accumulate (limit : Nat) (overflow : IntErrorKind) : List Char → Nat → Except IntErrorKind Nat
  | [], n => .ok n
  | c :: cs, n =>
    if c.isDigit then
      if n * 10 + digitValue c ≤ limit then accumulate limit overflow cs (n * 10 + digitValue c)
      else .error overflow
    else .error .invalidDigit

/-- At least one digit must follow an explicit sign. -/
def digits (limit : Nat) (overflow : IntErrorKind) : List Char → Except IntErrorKind Nat
  | [] => .error .invalidDigit
  | c :: cs => accumulate limit overflow (c :: cs) 0

def parseUnsigned (limit : Nat) (s : String) : Except IntErrorKind Nat :=
  match s.toList with
  | [] => .error .empty
  | '+' :: cs => digits limit .posOverflow cs
  | cs => digits limit .posOverflow cs

def parseUInt64 (s : String) : Except IntErrorKind UInt64 :=
  (parseUnsigned (2 ^ 64 - 1) s).map UInt64.ofNat

def parseInt64 (s : String) : Except IntErrorKind Int64 :=
  match s.toList with
  | [] => .error .empty
  | '-' :: cs => (digits (2 ^ 63) .negOverflow cs).map fun (n : Nat) => Int64.ofInt (-(n : Int))
  | '+' :: cs => (digits (2 ^ 63 - 1) .posOverflow cs).map fun (n : Nat) => Int64.ofInt (n : Int)
  | cs => (digits (2 ^ 63 - 1) .posOverflow cs).map fun (n : Nat) => Int64.ofInt (n : Int)

def printUInt64 (n : UInt64) : String := n.toNat.repr

def printInt64 (n : Int64) : String := n.toInt.repr

theorem toDigits_isDigit {n : Nat} {c : Char} (h : c ∈ Nat.toDigits 10 n) : c.isDigit := by
  exact Nat.isDigit_of_mem_toDigits (by omega) (by omega) h

theorem accumulate_append_ok {limit n m : Nat} {overflow : IntErrorKind} {cs ds : List Char}
    (h : accumulate limit overflow cs n = .ok m) :
    accumulate limit overflow (cs ++ ds) n = accumulate limit overflow ds m := by
  induction cs generalizing n with
  | nil => cases h; rfl
  | cons c cs ih =>
    simp only [accumulate, List.cons_append] at h ⊢
    split_ifs at h ⊢
    exact ih h

/-- Printing then parsing meets no overflow as long as the number itself fits. -/
theorem accumulate_toDigits {limit n : Nat} (overflow : IntErrorKind) (h : n ≤ limit) :
    accumulate limit overflow (Nat.toDigits 10 n) 0 = .ok n := by
  induction n using Nat.base_induction 10 (by omega) with
  | single m hm =>
    have hd : (Nat.digitChar m).isDigit := by
      apply toDigits_isDigit (n := m)
      simp [Nat.toDigits_of_lt_base hm]
    have hv : digitValue (Nat.digitChar m) = m := by
      simpa [digitValue] using Nat.toNat_digitChar_sub_48_of_lt_ten hm
    simp [Nat.toDigits_of_lt_base hm, accumulate, hd, hv, h]
  | digit m k hk hm ih =>
    have hd : (Nat.digitChar k).isDigit := by
      apply toDigits_isDigit (n := k)
      simp [Nat.toDigits_of_lt_base hk]
    have hv : digitValue (Nat.digitChar k) = k := by
      simpa [digitValue] using Nat.toNat_digitChar_sub_48_of_lt_ten hk
    rw [← Nat.toDigits_append_toDigits (by omega) hm hk, accumulate_append_ok (ih (by omega)),
      Nat.toDigits_of_lt_base hk]
    have hle : m * 10 + k ≤ limit := by omega
    simp [accumulate, hd, hv, hle]
    omega

theorem digits_toDigits {limit n : Nat} (overflow : IntErrorKind) (h : n ≤ limit) :
    digits limit overflow (Nat.toDigits 10 n) = .ok n := by
  have hacc := accumulate_toDigits overflow h
  cases hd : Nat.toDigits 10 n with
  | nil => exact absurd hd Nat.toDigits_ne_nil
  | cons c cs => rw [hd] at hacc; exact hacc

theorem toDigits_head {n : Nat} {c : Char} {cs : List Char} (h : Nat.toDigits 10 n = c :: cs) :
    c ≠ '+' ∧ c ≠ '-' := by
  have hd : c.isDigit := toDigits_isDigit (n := n) (by simp [h])
  constructor <;> rintro rfl <;> simp [Char.isDigit] at hd

theorem parseUnsigned_repr {limit n : Nat} (h : n ≤ limit) :
    parseUnsigned limit n.repr = .ok n := by
  have hd := digits_toDigits .posOverflow h
  unfold parseUnsigned
  rw [Nat.toList_repr]
  cases hn : Nat.toDigits 10 n with
  | nil => exact absurd hn Nat.toDigits_ne_nil
  | cons c cs =>
    rw [hn] at hd
    have hc := (toDigits_head hn).1
    split
    · rename_i heq; cases heq
    · rename_i heq; cases heq; exact absurd rfl hc
    · exact hd

theorem accumulate_mono {limit limit' n m : Nat} {overflow : IntErrorKind} {cs : List Char}
    (hle : limit ≤ limit') (h : accumulate limit overflow cs n = .ok m) :
    accumulate limit' overflow cs n = .ok m := by
  induction cs generalizing n with
  | nil => exact h
  | cons c cs ih =>
    simp only [accumulate] at h ⊢
    split_ifs at h with hd hlimit
    have hlimit' : n * 10 + digitValue c ≤ limit' := by omega
    rw [if_pos hd, if_pos hlimit']
    exact ih h

theorem parseUnsigned_mono {limit limit' m : Nat} {s : String} (hle : limit ≤ limit')
    (h : parseUnsigned limit s = .ok m) : parseUnsigned limit' s = .ok m := by
  have hdigits : ∀ cs, digits limit .posOverflow cs = .ok m →
      digits limit' .posOverflow cs = .ok m := by
    intro cs hcs
    cases cs with
    | nil => cases hcs
    | cons c cs => exact accumulate_mono hle hcs
  unfold parseUnsigned at h ⊢
  split at h
  · cases h
  · exact hdigits _ h
  · exact hdigits _ h

/-- A printed number is parsed as itself, if it is. -/
theorem eq_of_parseUnsigned_repr {limit n m : Nat} (h : parseUnsigned limit n.repr = .ok m) :
    m = n := by
  have hm := parseUnsigned_mono (Nat.le_max_left limit n) h
  rw [parseUnsigned_repr (Nat.le_max_right limit n)] at hm
  cases hm
  rfl

theorem le_of_accumulate {limit n m : Nat} {overflow : IntErrorKind} {cs : List Char}
    (h : accumulate limit overflow cs n = .ok m) : n ≤ m := by
  induction cs generalizing n with
  | nil =>
    cases h
    exact Nat.le_refl _
  | cons c cs ih =>
    simp only [accumulate] at h
    split_ifs at h
    have hle := ih h
    omega

theorem isDigit_of_accumulate {limit n m : Nat} {overflow : IntErrorKind} {cs : List Char}
    (h : accumulate limit overflow cs n = .ok m) : ∀ c ∈ cs, c.isDigit = true := by
  induction cs generalizing n with
  | nil => simp
  | cons c cs ih =>
    simp only [accumulate] at h
    split_ifs at h with hdigit
    exact List.forall_mem_cons.mpr ⟨hdigit, ih h⟩

/-- What parses as a number is digits, and perhaps a sign. -/
theorem isDigit_of_parseUnsigned {limit m : Nat} {s : String}
    (h : parseUnsigned limit s = .ok m) : ∀ c ∈ s.toList, c = '+' ∨ c.isDigit = true := by
  have hdigits : ∀ cs, digits limit .posOverflow cs = .ok m → ∀ c ∈ cs, c.isDigit = true := by
    intro cs hcs
    cases cs with
    | nil => cases hcs
    | cons c cs => exact isDigit_of_accumulate hcs
  unfold parseUnsigned at h
  split at h
  case h_1 => cases h
  case h_2 cs heq =>
    rw [heq]
    exact List.forall_mem_cons.mpr ⟨Or.inl rfl, fun c hc => Or.inr (hdigits cs h c hc)⟩
  case h_3 => exact fun c hc => Or.inr (hdigits _ h c hc)

theorem toDigits_head_ne_zero {n : Nat} {c : Char} {cs : List Char} (hn : 0 < n)
    (h : Nat.toDigits 10 n = c :: cs) : c ≠ '0' := by
  induction n using Nat.base_induction 10 (by omega) generalizing c cs with
  | single m hm =>
    rw [Nat.toDigits_of_lt_base hm] at h
    cases h
    intro hzero
    have hv : (Nat.digitChar m).toNat - 48 = m := Nat.toNat_digitChar_sub_48_of_lt_ten hm
    rw [hzero] at hv
    have hz : '0'.toNat - 48 = 0 := by decide
    omega
  | digit m k hk hm ih =>
    rw [← Nat.toDigits_append_toDigits (by omega) hm hk] at h
    cases hd : Nat.toDigits 10 m with
    | nil => exact absurd hd Nat.toDigits_ne_nil
    | cons d ds =>
      rw [hd] at h
      cases h
      exact ih hm hd

/-- The first digits of a positive number are those of a positive number. -/
theorem parseUnsigned_pos {limit n m : Nat} {t : String} {cs : List Char} (hn : 0 < n)
    (ht : t.toList ++ cs = n.repr.toList ++ ['\r', '\n']) (h : parseUnsigned limit t = .ok m) :
    0 < m := by
  rw [Nat.toList_repr] at ht
  cases hd : Nat.toDigits 10 n with
  | nil => exact absurd hd Nat.toDigits_ne_nil
  | cons d ds =>
    rw [hd] at ht
    unfold parseUnsigned at h
    cases htl : t.toList with
    | nil =>
      rw [htl] at h
      cases h
    | cons c rest =>
      rw [htl] at ht h
      obtain ⟨rfl, -⟩ := List.cons.inj ht
      have hplus := (toDigits_head hd).1
      have hdigit : c.isDigit := toDigits_isDigit (n := n) (by simp [hd])
      have hzero := toDigits_head_ne_zero hn hd
      have hvalue : 0 < digitValue c := by
        have hne : c.toNat ≠ '0'.toNat := fun he => hzero (Char.toNat_inj.mp he)
        have hle : '0'.toNat ≤ c.toNat := by
          simp only [Char.isDigit, Bool.and_eq_true, decide_eq_true_eq] at hdigit
          exact UInt32.le_iff_toNat_le.mp hdigit.1
        rw [digitValue]
        omega
      have hacc : digits limit .posOverflow (c :: rest) = .ok m := by
        split at h
        · rename_i heq
          cases heq
        · rename_i heq
          cases heq
          exact absurd rfl hplus
        · exact h
      rw [digits, accumulate, if_pos hdigit] at hacc
      split_ifs at hacc
      have hle := le_of_accumulate hacc
      omega

@[simp] theorem parseUInt64_print (n : UInt64) : parseUInt64 (printUInt64 n) = .ok n := by
  have hn := n.toNat_lt
  rw [parseUInt64, printUInt64, parseUnsigned_repr (by omega)]
  simp [Except.map]

theorem parseInt64_repr {n : Nat} (h : n < 2 ^ 63) :
    parseInt64 n.repr = .ok (Int64.ofInt n) := by
  have hd : digits (2 ^ 63 - 1) .posOverflow (Nat.toDigits 10 n) = .ok n :=
    digits_toDigits _ (by omega)
  unfold parseInt64
  rw [Nat.toList_repr]
  cases hn : Nat.toDigits 10 n with
  | nil => exact absurd hn Nat.toDigits_ne_nil
  | cons c cs =>
    rw [hn] at hd
    obtain ⟨hp, hm⟩ := toDigits_head hn
    split
    · rename_i heq; cases heq
    · rename_i heq; cases heq; exact absurd rfl hm
    · rename_i heq; cases heq; exact absurd rfl hp
    · rw [hd]; rfl

@[simp] theorem parseInt64_print (n : Int64) : parseInt64 (printInt64 n) = .ok n := by
  have hlo := n.le_toInt
  have hhi := n.toInt_lt
  rw [printInt64, Int.repr_eq_if]
  split_ifs with h
  · rw [parseInt64_repr (by omega), Int.toNat_of_nonneg h, Int64.ofInt_toInt]
  · have hd : digits (2 ^ 63) .negOverflow (Nat.toDigits 10 (-n.toInt).toNat) =
        .ok (-n.toInt).toNat := digits_toDigits _ (by omega)
    unfold parseInt64
    simp only [String.toList_append, Nat.toList_repr]
    change (digits (2 ^ 63) .negOverflow (Nat.toDigits 10 (-n.toInt).toNat)).map _ = _
    rw [hd]
    have hneg : -((-n.toInt).toNat : Int) = n.toInt := by omega
    change Except.ok (Int64.ofInt (-((-n.toInt).toNat : Int))) = _
    rw [hneg, Int64.ofInt_toInt]

theorem toNat_toUInt64_ofInt (n : Nat) : (Int64.ofInt n).toUInt64.toNat = n % 2 ^ 64 := by
  change (Int64.ofInt n).toBitVec.toNat = _
  simp

/-- A cast to unsigned keeps what is not negative and adds `2 ^ 64` to what is. -/
theorem toNat_toUInt64 (n : Int64) :
    (n.toUInt64.toNat : Int) = if 0 ≤ n.toInt then n.toInt else n.toInt + (2 ^ 64 : Nat) := by
  have hnat : n.toUInt64.toNat = n.toBitVec.toNat := rfl
  have hint : n.toInt = n.toBitVec.toInt := rfl
  have hlt := n.toBitVec.isLt
  rw [hnat, hint, BitVec.toInt_eq_toNat_cond]
  split_ifs <;> omega

theorem ofInt_natCast_nonneg {n : Nat} (h : n < 2 ^ 63) : ¬ Int64.ofInt n < 0 := by
  have hs : (Int64.size : Int) = 2 ^ 64 := rfl
  rw [Int64.lt_iff_toInt_lt, Int64.toInt_ofInt, Int64.toInt_zero, Int.bmod, hs]
  omega

theorem lf_not_mem_repr (n : Nat) : '\n' ∉ n.repr.toList := by
  rw [Nat.toList_repr]
  intro h
  have hd := toDigits_isDigit h
  simp [Char.isDigit] at hd

theorem lf_not_mem_printInt64 (n : Int64) : '\n' ∉ (printInt64 n).toList := by
  rw [printInt64, Int.repr_eq_if]
  split_ifs
  · exact lf_not_mem_repr _
  · rw [String.toList_append, List.mem_append]
    rintro (h | h)
    · simp at h
    · exact lf_not_mem_repr _ h

end Wire
