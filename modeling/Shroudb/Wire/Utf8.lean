import Mathlib.Data.List.Basic

/-! Byte strings, UTF-8 text, and where a line feed can come from. -/
namespace Wire

abbrev Bytes := List UInt8

def utf8 (s : String) : Bytes := s.toByteArray.data.toList

/-- Strict decoding: `none` on any malformed sequence. -/
def fromUtf8? (b : Bytes) : Option String := String.fromUTF8? ⟨b.toArray⟩

/-- Continuation bytes allowed second after a given three- or four-byte lead. -/
def secondOk (b₀ b₁ : UInt8) : Bool :=
  if b₀ = 0xE0 then 0xA0 ≤ b₁ && b₁ ≤ 0xBF
  else if b₀ = 0xED then 0x80 ≤ b₁ && b₁ ≤ 0x9F
  else if b₀ = 0xF0 then 0x90 ≤ b₁ && b₁ ≤ 0xBF
  else if b₀ = 0xF4 then 0x80 ≤ b₁ && b₁ ≤ 0x8F
  else if 0xE1 ≤ b₀ && b₀ ≤ 0xF3 then 0x80 ≤ b₁ && b₁ ≤ 0xBF
  else false

/-- Length of the maximal ill-formed subsequence at the front of undecodable input. -/
def illFormedLength : Bytes → Nat
  | b₀ :: b₁ :: b₂ :: _ =>
    if secondOk b₀ b₁ then
      if 0xF0 ≤ b₀ && 0x80 ≤ b₂ && b₂ ≤ 0xBF then 3 else 2
    else 1
  | b₀ :: b₁ :: [] => if secondOk b₀ b₁ then 2 else 1
  | _ => 1

/-- One replacement character stands for each maximal ill-formed subsequence. -/
def lossyChars : Nat → Bytes → List Char
  | 0, _ => []
  | _ + 1, [] => []
  | n + 1, b :: bs =>
    match ByteArray.utf8DecodeChar? ⟨((b :: bs).take 4).toArray⟩ 0 with
    | some c => c :: lossyChars n ((b :: bs).drop c.utf8Size)
    | none => '�' :: lossyChars n ((b :: bs).drop (illFormedLength (b :: bs)))

def fromUtf8Lossy (b : Bytes) : String := String.ofList (lossyChars b.length b)

theorem utf8_eq_flatMap (s : String) : utf8 s = s.toList.flatMap String.utf8EncodeChar := by
  rw [utf8, ← String.utf8Encode_toList]
  simp [List.utf8Encode]

@[simp] theorem utf8_append (s t : String) : utf8 (s ++ t) = utf8 s ++ utf8 t := by
  simp [utf8_eq_flatMap]

theorem utf8_replicate {c : Char} {b : UInt8} (h : String.utf8EncodeChar c = [b]) (n : Nat) :
    utf8 (String.ofList (List.replicate n c)) = List.replicate n b := by
  rw [utf8_eq_flatMap, String.toList_ofList]
  induction n with
  | zero => rfl
  | succ n ih =>
    rw [List.replicate_succ, List.flatMap_cons, ih, h, List.replicate_succ]
    rfl

theorem utf8_injective : Function.Injective utf8 := by
  intro s t h
  rw [← String.toByteArray_inj]
  apply ByteArray.ext
  exact Array.toList_inj.mp h

@[simp] theorem fromUtf8?_utf8 (s : String) : fromUtf8? (utf8 s) = some s := by
  have hb : (⟨(utf8 s).toArray⟩ : ByteArray) = s.toByteArray := by simp [utf8]
  have hv : (⟨(utf8 s).toArray⟩ : ByteArray).IsValidUTF8 := hb ▸ s.isValidUTF8
  rw [fromUtf8?, String.fromUTF8?, dif_pos hv]
  exact congrArg some (String.toByteArray_inj.mp hb)

theorem utf8_of_fromUtf8? {b : Bytes} {s : String} (h : fromUtf8? b = some s) : utf8 s = b := by
  unfold fromUtf8? String.fromUTF8? at h
  split at h
  · cases h
    simp [utf8, String.fromUTF8]
  · cases h

/-- An ASCII byte comes from its own character only. -/
theorem ascii_mem_utf8EncodeChar {c : Char} {b : UInt8} (hb : b.toNat < 128) :
    b ∈ String.utf8EncodeChar c ↔ c.val.toNat = b.toNat := by
  have hcast : ∀ n : Nat, b = UInt8.ofNat n ↔ n % 256 = b.toNat := by
    intro n
    rw [← UInt8.toNat_inj]
    simp [UInt8.toNat_ofNat', eq_comm]
  unfold String.utf8EncodeChar
  dsimp only
  split_ifs <;> simp only [List.mem_cons, List.not_mem_nil, or_false, hcast] <;> omega

theorem lf_mem_utf8EncodeChar {c : Char} : (10 : UInt8) ∈ String.utf8EncodeChar c ↔ c = '\n' := by
  rw [ascii_mem_utf8EncodeChar (by decide), ← Char.val_inj, ← UInt32.toNat_inj]
  rfl

theorem cr_mem_utf8EncodeChar {c : Char} : (13 : UInt8) ∈ String.utf8EncodeChar c ↔ c = '\r' := by
  rw [ascii_mem_utf8EncodeChar (by decide), ← Char.val_inj, ← UInt32.toNat_inj]
  rfl

theorem lf_mem_utf8 {s : String} : (10 : UInt8) ∈ utf8 s ↔ '\n' ∈ s.toList := by
  simp [utf8_eq_flatMap, lf_mem_utf8EncodeChar]

theorem append_cons_eq_concat {α : Type} {x : α} {xs ys zs : List α}
    (h : ys ++ x :: zs = xs ++ [x]) (hx : x ∉ xs) : ys = xs ∧ zs = [] := by
  induction xs generalizing ys with
  | nil => cases ys <;> simp_all
  | cons w xs ih =>
    cases ys with
    | nil => simp_all
    | cons y ys =>
      simp only [List.cons_append, List.cons.injEq] at h
      obtain ⟨rfl, rfl⟩ := ih h.2 (fun hm => hx (List.mem_cons_of_mem _ hm))
      exact ⟨by rw [h.1], rfl⟩

/-- A string whose encoding ends at its only byte 10 ends at its only line feed. -/
theorem lf_last_of_utf8 {s : String} {xs : Bytes} (h : utf8 s = xs ++ [10])
    (hx : (10 : UInt8) ∉ xs) : ∃ body, '\n' ∉ body ∧ s.toList = body ++ ['\n'] := by
  have hm : '\n' ∈ s.toList := by
    rw [← lf_mem_utf8, h]
    simp
  obtain ⟨a, b, hs⟩ := List.append_of_mem hm
  have hlf : String.utf8EncodeChar '\n' = [10] := by decide
  have hb : a.flatMap String.utf8EncodeChar ++ 10 :: b.flatMap String.utf8EncodeChar = xs ++ [10] := by
    rw [← h, utf8_eq_flatMap, hs]
    simp [hlf]
  obtain ⟨rfl, hnil⟩ := append_cons_eq_concat hb hx
  have hbn : b = [] := by
    cases b with
    | nil => rfl
    | cons c cs =>
      have hc : String.utf8EncodeChar c ≠ [] := String.utf8EncodeChar_ne_nil
      simp_all
  subst hbn
  refine ⟨a, fun ha => hx ?_, hs⟩
  exact List.mem_flatMap.mpr ⟨'\n', ha, lf_mem_utf8EncodeChar.mpr rfl⟩

theorem decode_encode_take (c : Char) (rest : Bytes) :
    ByteArray.utf8DecodeChar? ⟨((String.utf8EncodeChar c ++ rest).take 4).toArray⟩ 0 = some c := by
  have hlen : (String.utf8EncodeChar c).length ≤ 4 := by
    simpa using Char.utf8Size_le_four c
  have htake : (String.utf8EncodeChar c ++ rest).take 4 =
      String.utf8EncodeChar c ++ rest.take (4 - (String.utf8EncodeChar c).length) := by
    rw [List.take_append, List.take_of_length_le hlen]
  have happ : (⟨((String.utf8EncodeChar c ++ rest).take 4).toArray⟩ : ByteArray) =
      (String.utf8EncodeChar c).toByteArray ++
        (⟨(rest.take (4 - (String.utf8EncodeChar c).length)).toArray⟩ : ByteArray) := by
    apply ByteArray.ext
    rw [htake]
    simp
  rw [happ]
  exact ByteArray.utf8DecodeChar?_utf8EncodeChar_append

/-- Where the encoding of `s` is the beginning of that of `t`, so are its characters. -/
theorem toList_append_of_utf8 {s t : String} {x : Bytes} (h : utf8 s ++ x = utf8 t) :
    ∃ cs, t.toList = s.toList ++ cs := by
  rw [utf8_eq_flatMap, utf8_eq_flatMap] at h
  generalize s.toList = cs at h ⊢
  generalize t.toList = ds at h ⊢
  induction cs generalizing ds with
  | nil => exact ⟨ds, rfl⟩
  | cons c cs ih =>
    cases ds with
    | nil => simp at h
    | cons d ds =>
      simp only [List.flatMap_cons, List.append_assoc] at h
      have hd := decode_encode_take d (ds.flatMap String.utf8EncodeChar)
      rw [← h, decode_encode_take c] at hd
      cases hd
      obtain ⟨es, rfl⟩ := ih ds (List.append_cancel_left h)
      exact ⟨es, rfl⟩

theorem lossyChars_flatMap (cs : List Char) (n : Nat)
    (h : (cs.flatMap String.utf8EncodeChar).length ≤ n) :
    lossyChars n (cs.flatMap String.utf8EncodeChar) = cs := by
  induction cs generalizing n with
  | nil => cases n <;> rfl
  | cons c cs ih =>
    have hpos := c.utf8Size_pos
    obtain ⟨b, bs, hb⟩ := List.exists_cons_of_ne_nil (String.utf8EncodeChar_ne_nil (c := c))
    simp only [List.flatMap_cons, List.length_append, String.length_utf8EncodeChar] at h ⊢
    obtain ⟨m, rfl⟩ : ∃ m, n = m + 1 := ⟨n - 1, by omega⟩
    have hd := decode_encode_take c (cs.flatMap String.utf8EncodeChar)
    have hdrop : (String.utf8EncodeChar c ++ cs.flatMap String.utf8EncodeChar).drop c.utf8Size =
        cs.flatMap String.utf8EncodeChar := List.drop_left' (String.length_utf8EncodeChar c)
    rw [hb, List.cons_append] at hd hdrop ⊢
    simp only [lossyChars, hd, hdrop, ih m (by omega)]

@[simp] theorem fromUtf8Lossy_utf8 (s : String) : fromUtf8Lossy (utf8 s) = s := by
  rw [fromUtf8Lossy, utf8_eq_flatMap, lossyChars_flatMap _ _ (Nat.le_refl _), String.ofList_toList]

/-- The characters of a literal are at hand, without decoding its bytes. -/
theorem not_mem_ofList {c : Char} {cs : List Char} (h : c ∉ cs) : c ∉ (String.ofList cs).toList := by
  rwa [String.toList_ofList]

end Wire
