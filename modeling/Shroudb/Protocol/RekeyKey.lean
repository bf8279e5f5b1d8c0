import Mathlib.Tactic.IntervalCases
import Shroudb.MemoryStore
import Shroudb.Protocol.Handlers
import Shroudb.Protocol.Parsable

/-! The key of REKEY: what `parse_rekey` accepts, and what `handle_rekey` makes of it. -/
namespace Shroudb
open Wire

/-- Lower-case hexadecimal, two digits for a byte. -/
def hexChars (key : Bytes) : List Char :=
  key.flatMap fun b => [Nat.digitChar (b.toNat / 16), Nat.digitChar (b.toNat % 16)]

def hexEncode (key : Bytes) : String := String.ofList (hexChars key)

/-- `str::is_char_boundary`: so many bytes encode whole characters at the front. -/
def IsCharBoundary (s : String) (i : Nat) : Prop :=
  ∃ front back, s = front ++ back ∧ (utf8 front).length = i

/-! ## Digits -/

def hexDigits : List Char := ['0', '1', '2', '3', '4', '5', '6', '7', '8', '9', 'a', 'b', 'c', 'd',
  'e', 'f', 'A', 'B', 'C', 'D', 'E', 'F']

theorem mem_hexDigits {c : Char} (h : isAsciiHexdigit c = true) : c ∈ hexDigits := by
  have hrange : (48 ≤ c.toNat ∧ c.toNat ≤ 57) ∨ (97 ≤ c.toNat ∧ c.toNat ≤ 102) ∨
      (65 ≤ c.toNat ∧ c.toNat ≤ 70) := by
    simpa [isAsciiHexdigit, Char.isDigit, Char.le_def, UInt32.le_iff_toNat_le, or_assoc] using h
  rw [← Char.ofNat_toNat c]
  rcases hrange with ⟨hlow, hhigh⟩ | ⟨hlow, hhigh⟩ | ⟨hlow, hhigh⟩ <;>
    interval_cases c.toNat <;> decide

/-- A digit takes one byte, and has the value that its lower-case form is written for. -/
theorem hexDigit_of_mem : ∀ c ∈ hexDigits, c ≠ '+' ∧ c.utf8Size = 1 ∧
    ∃ n, n < 16 ∧ Handlers.hexDigit c = some n ∧ Nat.digitChar n = c.toLower := by
  -- so that the list is gone through and not the type of characters
  rw [← List.forall_iff_forall_mem]
  decide

/-- Two digits are a byte. -/
theorem hexByte_pair {c d : Char} (hc : c ∈ hexDigits) (hd : d ∈ hexDigits) :
    ∃ b, Handlers.hexByte (String.ofList [c, d]) = .ok b ∧
      hexChars [b] = [c.toLower, d.toLower] := by
  obtain ⟨hplus, -, m, hm, hmc, hmtext⟩ := hexDigit_of_mem c hc
  obtain ⟨-, -, n, hn, hnd, hntext⟩ := hexDigit_of_mem d hd
  refine ⟨UInt8.ofNat (16 * m + n), ?_, ?_⟩
  · rw [Handlers.hexByte, String.toList_ofList]
    split
    case h_1 heq =>
      -- no digit is a sign
      cases heq
      exact absurd rfl hplus
    case h_2 c' d' heq =>
      cases heq
      rw [hmc, hnd]
    case h_3 hpair => exact absurd rfl (hpair c d)
  · have hvalue : (UInt8.ofNat (16 * m + n)).toNat = 16 * m + n := by
      rw [UInt8.toNat_ofNat']
      omega
    have hhigh : (16 * m + n) / 16 = m := by omega
    have hlow : (16 * m + n) % 16 = n := by omega
    simp only [hexChars, List.flatMap_cons, List.flatMap_nil, List.append_nil, hvalue, hhigh, hlow,
      hmtext, hntext]

/-! ## The whole key -/

/-- Digits take a byte each, so the bytes before any of them are whole characters. -/
theorem length_utf8_of_hexDigits {cs : List Char} (h : ∀ c ∈ cs, c ∈ hexDigits) :
    (utf8 (String.ofList cs)).length = cs.length := by
  rw [utf8_eq_flatMap, String.toList_ofList]
  induction cs with
  | nil => rfl
  | cons c cs ih =>
    have hc : c.utf8Size = 1 := (hexDigit_of_mem c (h c List.mem_cons_self)).2.1
    have hcs := ih fun d hd => h d (List.mem_cons_of_mem c hd)
    rw [List.flatMap_cons, List.length_append, String.length_utf8EncodeChar, hc, hcs,
      List.length_cons]
    omega

theorem isCharBoundary_of_hexDigits {hex : String} {i : Nat} (h : ∀ c ∈ hex.toList, c ∈ hexDigits)
    (hi : i ≤ hex.toList.length) : IsCharBoundary hex i := by
  refine ⟨String.ofList (hex.toList.take i), String.ofList (hex.toList.drop i), ?_, ?_⟩
  · rw [← String.ofList_append, List.take_append_drop, String.ofList_toList]
  · rw [length_utf8_of_hexDigits fun c hc => h c (List.mem_of_mem_take hc),
      List.length_take_of_le hi]

theorem decodeHexPairs_of_hexDigits {n : Nat} {cs : List Char} (hlen : cs.length = 2 * n)
    (h : ∀ c ∈ cs, c ∈ hexDigits) :
    ∃ key, Handlers.decodeHexPairs (utf8 (String.ofList cs)) = .ok key ∧ key.length = n ∧
      hexChars key = cs.map Char.toLower := by
  induction n generalizing cs with
  | zero =>
    obtain rfl := List.length_eq_zero_iff.mp hlen
    exact ⟨[], rfl, rfl, rfl⟩
  | succ n ih =>
    match cs with
    | c :: d :: cs =>
      obtain ⟨hc, hd, hcs⟩ : c ∈ hexDigits ∧ d ∈ hexDigits ∧ ∀ e ∈ cs, e ∈ hexDigits := by
        simpa using h
      obtain ⟨key, hkey, hklen, htext⟩ := ih (by simp at hlen; omega) hcs
      obtain ⟨b, hb, hbtext⟩ := hexByte_pair hc hd
      -- the two digits are the two bytes of the slice
      have hslice : utf8 (String.ofList (c :: d :: cs)) =
          utf8 (String.ofList [c, d]) ++ utf8 (String.ofList cs) := by
        rw [← utf8_append, ← String.ofList_append]
        rfl
      obtain ⟨x, y, hxy⟩ : ∃ x y, utf8 (String.ofList [c, d]) = [x, y] := by
        apply List.length_eq_two.mp
        exact length_utf8_of_hexDigits (by simp [hc, hd])
      have hread : fromUtf8? [x, y] = some (String.ofList [c, d]) := by rw [← hxy, fromUtf8?_utf8]
      refine ⟨b :: key, ?_, by simp [hklen], ?_⟩
      · rw [hslice, hxy]
        simp only [List.cons_append, List.nil_append, Handlers.decodeHexPairs, hread, hb, hkey,
          Except.map]
      · have hcons : hexChars (b :: key) = hexChars [b] ++ hexChars key := by simp [hexChars]
        rw [hcons, hbtext, htext]
        rfl

section
variable {C : Crates} {args : List String} {hex : String}

theorem hexDigits_of_parseRekey (h : parseRekey (C := C) args = .ok (.rekey hex)) :
    hex.toList.length = 64 ∧ ∀ c ∈ hex.toList, c ∈ hexDigits := by
  obtain ⟨-, hlen, hall⟩ := parseRekey_wellFormed h
  have hdigits : ∀ c ∈ hex.toList, c ∈ hexDigits :=
    fun c hc => mem_hexDigits (List.all_eq_true.mp hall c hc)
  have hbytes := length_utf8_of_hexDigits hdigits
  rw [String.ofList_toList] at hbytes
  exact ⟨by omega, hdigits⟩

theorem decodeHex_of_parseRekey (h : parseRekey (C := C) args = .ok (.rekey hex)) :
    ∃ key, Handlers.decodeHex hex = .ok key ∧ key.length = 32 ∧
      hexEncode key = toAsciiLowercase hex := by
  obtain ⟨hlen, hdigits⟩ := hexDigits_of_parseRekey h
  obtain ⟨-, hbytes, -⟩ := parseRekey_wellFormed h
  obtain ⟨key, hkey, hklen, htext⟩ := decodeHexPairs_of_hexDigits (n := 32) hlen hdigits
  rw [String.ofList_toList] at hkey
  refine ⟨key, ?_, hklen, ?_⟩
  · simp [Handlers.decodeHex, hbytes, hkey]
  · rw [hexEncode, htext]
    rfl

/-- An accepted key is cut between its characters only, decodes to 32 bytes whose hexadecimal form
is the key in lower case, and is never refused for its format. Two accepted keys that decode alike
differ in case only. -/
theorem rekey_decodes_accepted_key (h : parseRekey (C := C) args = .ok (.rekey hex)) :
    (∀ i ≤ 64, IsCharBoundary hex i) ∧
    (∃ key, Handlers.decodeHex hex = .ok key ∧ key.length = 32 ∧
      hexEncode key = toAsciiLowercase hex) ∧
    (∀ {σ : Type} (answer : (op : Op C) → σ → op.Answer × σ) (s : σ) (message detail : String),
      ((Handlers.rekey hex).run answer s).1 ≠ .error (.badArg message detail)) ∧
    ∀ {args' : List String} {hex' : String}, parseRekey (C := C) args' = .ok (.rekey hex') →
      Handlers.decodeHex hex' = Handlers.decodeHex hex →
        toAsciiLowercase hex' = toAsciiLowercase hex := by
  obtain ⟨hlen, hdigits⟩ := hexDigits_of_parseRekey h
  obtain ⟨key, hkey, hklen, htext⟩ := decodeHex_of_parseRekey h
  refine ⟨fun i hi => isCharBoundary_of_hexDigits hdigits (by omega), ⟨key, hkey, hklen, htext⟩,
    ?_, ?_⟩
  · intro σ answer s message detail
    simp only [Handlers.rekey, hkey, hklen, ne_eq, not_true_eq_false, if_false, Handlers.query,
      Effect.Program.run]
    cases (answer (.call (.beginRekey key)) s).1 with
    | error e => exact fun he => by cases he
    | ok u => exact fun he => by cases he
  · intro args' hex' h' hsame
    obtain ⟨key', hkey', -, htext'⟩ := decodeHex_of_parseRekey h'
    have hkeys : key' = key := by
      rw [hkey', hkey] at hsame
      exact Except.ok.inj hsame
    rw [← htext', ← htext, hkeys]

end

/-- A key in both cases. -/
def mixedKeyHex : String := "00112233445566778899aabbccddeeff00112233445566778899AABBCCDDEEFF"

theorem Memory.mixed_key_decoded :
    parseRekey (C := crates) [mixedKeyHex] = .ok (.rekey mixedKeyHex) ∧
      ∃ key, Handlers.decodeHex mixedKeyHex = .ok key ∧ key.length = 32 ∧
        hexEncode key = toAsciiLowercase mixedKeyHex := by
  have hparse : parseRekey (C := crates) [mixedKeyHex] = .ok (.rekey mixedKeyHex) := by rfl
  exact ⟨hparse, (rekey_decodes_accepted_key hparse).2.1⟩

end Shroudb
