import Shroudb.Wire.Stops
import Shroudb.Client.Connection

/-! When `read_value` panics: the lines it must not meet, at any nesting. -/
namespace Shroudb
open Wire

namespace Response

/-- The ways in which a call leaves its caller without a response and without an error: it panics,
or it waits although nothing more will come. -/
def Unanswered (ended : Bool) : Option ReadFailure → Prop
  | some (.panic _) => True
  | some (.error _) => False
  | none => ended = true

/-- `read_value` returns a response or an error, or waits for more bytes. -/
def Answers (ended : Bool) (bs : Bytes) : Prop :=
  ¬ Reader.Stops (Unanswered ended) readValue ended bs

/-! ## The lines that make it panic -/

/-- The first line of a value, split after its type byte, and what follows it. -/
def Head (ended : Bool) (bs : Bytes) (c : Char) (payload : String) (body : Bytes) : Prop :=
  ∃ line, Reader.line (ReadFailure.error (.connection "stream did not contain valid UTF-8"))
    ended bs = .done line body ∧ trimLine line = c :: payload.toList

/-- The buffer for so many bytes or elements can be allocated. -/
structure Fits (c : Char) (n : Int64) : Prop where
  bulk : c = '$' → n.toInt + 2 ≤ maxAllocation
  items : c ∈ ['*', '>', '~'] → n.toInt * responseSize ≤ maxAllocation
  entries : c = '%' → n.toInt * (2 * responseSize) ≤ maxAllocation
  nonneg : c ∈ ['%', '>', '~'] → 0 ≤ n.toInt

/-- The line starts with a character of one byte, and its length, if it is one, fits. -/
def SafeHead (ended : Bool) (bs : Bytes) : Prop :=
  ∀ c payload body, Head ended bs c payload body →
    c.utf8Size = 1 ∧ ∀ n, parseInt64 payload = .ok n → Fits c n

/-- The values nested in a collection. -/
def children (c : Char) (n : Int64) : Nat :=
  if c ∈ ['*', '>', '~'] then n.toInt.toNat else if c = '%' then 2 * n.toInt.toNat else 0

/-- Reading `bs` comes to read a value, nested at any depth, at the second bytes. -/
inductive Starts (ended : Bool) : Bytes → Bytes → Prop
  | here (bs : Bytes) : Starts ended bs bs
  | child {bs body mid start : Bytes} {c : Char} {payload : String} {n : Int64} {k : Nat}
      (head : Head ended bs c payload body) (length : parseInt64 payload = .ok n)
      (within : k < children c n) (earlier : Reader.Passes readValue ended k body mid)
      (nested : Starts ended mid start) : Starts ended bs start

/-! ## One value -/

section
variable {inner : Reader ReadFailure Response} {ended : Bool} {bs : Bytes} {α : Type}

theorem lt_zero_iff {n : Int64} : n < 0 ↔ n.toInt < 0 := by
  rw [Int64.lt_iff_toInt_lt, Int64.toInt_zero]

/-- A read that gives an error, or waits while more can come, has answered. -/
theorem answered {e : ClientError} :
    ¬ (Unanswered ended (some (.error e)) ∨ ended = false ∧ Unanswered ended none) := by
  rintro (herror | ⟨hended, hwait⟩)
  · exact herror
  · rw [Unanswered, hended] at hwait
    cases hwait

/-- A buffer is allocated when its size is not negative and within the bound. -/
theorem withCapacity_eq {count : Int64} {size : Nat} (hsize : 0 < size) :
    withCapacity count size =
      if 0 ≤ count.toInt ∧ count.toInt * size ≤ maxAllocation then pure count.toInt.toNat
      else Reader.fail (.panic "capacity overflow") := by
  have hcast := toNat_toUInt64 count
  have hlow := count.le_toInt
  rw [withCapacity]
  by_cases hneg : 0 ≤ count.toInt
  · rw [if_pos hneg] at hcast
    have hnat : count.toUInt64.toNat = count.toInt.toNat := by omega
    have hfits : count.toInt.toNat * size ≤ maxAllocation ↔ count.toInt * size ≤ maxAllocation := by
      rw [← hnat, ← hcast]
      norm_cast
    simp only [hnat, hfits, hneg, true_and]
  · rw [if_neg hneg] at hcast
    have hlarge : ¬ count.toUInt64.toNat * size ≤ maxAllocation := by
      have hle := Nat.le_mul_of_pos_right count.toUInt64.toNat hsize
      simp only [maxAllocation]
      omega
    rw [if_neg hlarge, if_neg (fun h => hneg h.1)]

theorem bulkCapacity_eq {len : Int64} (hlen : ¬ len < 0) :
    withCapacity (len + 2) 1 =
      if len.toInt + 2 ≤ maxAllocation then pure (len.toInt.toNat + 2)
      else Reader.fail (.panic "capacity overflow") := by
  have hnonneg : 0 ≤ len.toInt := by
    rw [lt_zero_iff] at hlen
    omega
  have hhigh := len.toInt_lt
  have hcast := toNat_toUInt64 len
  rw [if_pos hnonneg] at hcast
  have hsum : (len + 2).toUInt64.toNat = len.toInt.toNat + 2 := by
    have hadd : (len + 2).toUInt64 = len.toUInt64 + 2 := rfl
    rw [hadd, UInt64.toNat_add]
    change (len.toUInt64.toNat + 2) % 2 ^ 64 = _
    omega
  have hfits : len.toInt.toNat + 2 ≤ maxAllocation ↔ len.toInt + 2 ≤ maxAllocation := by omega
  simp only [withCapacity, hsum, Nat.mul_one, hfits]

theorem stops_collected {r : Reader ReadFailure α} {count : Int64} {size : Nat}
    {mk : List α → Response} (hsize : 0 < size) :
    Reader.Stops (Unanswered ended) (do
        let n ← withCapacity count size
        return mk (← Reader.times r n)) ended bs ↔
      ¬ (0 ≤ count.toInt ∧ count.toInt * size ≤ maxAllocation) ∨
        ∃ k mid, k < count.toInt.toNat ∧ Reader.Passes r ended k bs mid ∧
          Reader.Stops (Unanswered ended) r ended mid := by
  rw [withCapacity_eq hsize]
  by_cases hfits : 0 ≤ count.toInt ∧ count.toInt * size ≤ maxAllocation
  · rw [if_pos hfits, Reader.pure_bind, Reader.stops_bind, Reader.stops_times]
    simp [hfits]
  · rw [if_neg hfits, Reader.stops_bind]
    simp [hfits, Unanswered]

theorem readEntry_eq_done {p : Response × Response} {next : Bytes} :
    readEntry inner ended bs = .done p next ↔
      ∃ mid, inner ended bs = .done p.1 mid ∧ inner ended mid = .done p.2 next := by
  constructor
  · intro h
    obtain ⟨key, mid, hkey, h⟩ := Reader.bind_eq_done.mp h
    obtain ⟨value, mid', hvalue, h⟩ := Reader.bind_eq_done.mp h
    cases h
    exact ⟨mid, hkey, hvalue⟩
  · rintro ⟨mid, hkey, hvalue⟩
    rw [readEntry, Reader.bind_done hkey, Reader.bind_done hvalue, Reader.pure_apply]

/-- Reading entries is reading twice as many values. -/
theorem passes_readEntry {k : Nat} {mid : Bytes} :
    Reader.Passes (readEntry inner) ended k bs mid ↔ Reader.Passes inner ended (2 * k) bs mid := by
  induction k generalizing bs with
  | zero => simp [Reader.passes_zero]
  | succ k ih =>
    have htwice : 2 * (k + 1) = 2 * k + 1 + 1 := by omega
    rw [htwice, Reader.passes_succ, Reader.passes_succ]
    constructor
    · rintro ⟨p, next, hp, hrest⟩
      obtain ⟨mid', hkey, hvalue⟩ := readEntry_eq_done.mp hp
      exact ⟨p.1, mid', hkey, Reader.passes_succ.mpr ⟨p.2, next, hvalue, ih.mp hrest⟩⟩
    · rintro ⟨key, mid', hkey, hrest⟩
      obtain ⟨value, next, hvalue, hrest⟩ := Reader.passes_succ.mp hrest
      exact ⟨(key, value), next, readEntry_eq_done.mpr ⟨mid', hkey, hvalue⟩, ih.mpr hrest⟩

theorem stops_readEntry {bad : Option ReadFailure → Prop} :
    Reader.Stops bad (readEntry inner) ended bs ↔ Reader.Stops bad inner ended bs ∨
      ∃ key mid, inner ended bs = .done key mid ∧ Reader.Stops bad inner ended mid := by
  rw [readEntry, Reader.stops_bind]
  refine or_congr_right ?_
  constructor
  · rintro ⟨key, mid, hkey, h⟩
    rcases Reader.stops_bind.mp h with h | ⟨value, mid', -, h⟩
    · exact ⟨key, mid, hkey, h⟩
    · exact absurd h (Reader.stops_pure _)
  · rintro ⟨key, mid, hkey, h⟩
    exact ⟨key, mid, hkey, Reader.stops_bind.mpr (Or.inl h)⟩

theorem stops_entries {bad : Option ReadFailure → Prop} {n : Nat} :
    (∃ k mid, k < n ∧ Reader.Passes (readEntry inner) ended k bs mid ∧
        Reader.Stops bad (readEntry inner) ended mid) ↔
      ∃ k mid, k < 2 * n ∧ Reader.Passes inner ended k bs mid ∧
        Reader.Stops bad inner ended mid := by
  constructor
  · rintro ⟨k, mid, hk, hpasses, hstops⟩
    rw [passes_readEntry] at hpasses
    rcases stops_readEntry.mp hstops with hkey | ⟨key, mid', hkey, hvalue⟩
    · exact ⟨2 * k, mid, by omega, hpasses, hkey⟩
    · exact ⟨2 * k + 1, mid', by omega,
        Reader.passes_succ_last.mpr ⟨key, mid, hpasses, hkey⟩, hvalue⟩
  · rintro ⟨k, mid, hk, hpasses, hstops⟩
    -- the value that stops is a key or belongs to one
    obtain ⟨j, rfl | rfl⟩ : ∃ j, k = 2 * j ∨ k = 2 * j + 1 := ⟨k / 2, by omega⟩
    · exact ⟨j, mid, by omega, passes_readEntry.mpr hpasses, stops_readEntry.mpr (Or.inl hstops)⟩
    · obtain ⟨key, mid', hpasses, hkey⟩ := Reader.passes_succ_last.mp hpasses
      exact ⟨j, mid', by omega, passes_readEntry.mpr hpasses,
        stops_readEntry.mpr (Or.inr ⟨key, mid, hkey, hstops⟩)⟩

theorem stops_parseLength {what payload : String} {g : Int64 → Reader ReadFailure α} :
    Reader.Stops (Unanswered ended) (parseLength what payload >>= g) ended bs ↔
      ∃ n, parseInt64 payload = .ok n ∧ Reader.Stops (Unanswered ended) (g n) ended bs := by
  unfold parseLength
  cases parseInt64 payload with
  | ok n => simp
  | error e => simp [Reader.stops_bind, protocolError, Unanswered, Reader.fail]

/-- Where no length is read nothing has to fit, and nothing is nested. -/
theorem not_stops_plain {c : Char} {payload : String} (hc : c ∉ ['$', '*', '%', '>', '~']) :
    ¬ ∃ n, parseInt64 payload = .ok n ∧ (¬ Fits c n ∨
      ∃ k mid, k < children c n ∧ Reader.Passes inner ended k bs mid ∧
        Reader.Stops (Unanswered ended) inner ended mid) := by
  simp only [List.mem_cons, List.not_mem_nil, or_false, not_or] at hc
  rintro ⟨n, -, hfits | ⟨k, mid, hk, -⟩⟩
  · exact hfits ⟨by simp [hc], by simp [hc], by simp [hc], by simp [hc]⟩
  · simp [children, hc] at hk

theorem fits_items {c : Char} {n : Int64} (hc : c ∈ ['*', '>', '~']) (hn : c = '*' → 0 ≤ n.toInt) :
    (Fits c n ↔ 0 ≤ n.toInt ∧ n.toInt * responseSize ≤ maxAllocation) ∧
      children c n = n.toInt.toNat := by
  have hplain : c ≠ '$' ∧ c ≠ '%' := by
    constructor
    · rintro rfl
      simp at hc
    · rintro rfl
      simp at hc
  refine ⟨⟨fun h => ⟨?_, h.items hc⟩, fun h => ?_⟩, if_pos hc⟩
  · rcases List.mem_cons.mp hc with hstar | hother
    · exact hn hstar
    · exact h.nonneg (List.mem_cons_of_mem _ hother)
  · exact ⟨by simp [hplain], fun _ => h.2, by simp [hplain], fun _ => h.1⟩

/-- A collection panics when there is no room for it, or in one of its items. -/
theorem stops_readItems {c : Char} {n : Int64} (hc : c ∈ ['*', '>', '~'])
    (hn : c = '*' → 0 ≤ n.toInt) :
    Reader.Stops (Unanswered ended) (readItems inner n) ended bs ↔ ¬ Fits c n ∨
      ∃ k mid, k < children c n ∧ Reader.Passes inner ended k bs mid ∧
        Reader.Stops (Unanswered ended) inner ended mid := by
  obtain ⟨hfits, hchildren⟩ := fits_items hc hn
  rw [hfits, hchildren]
  exact stops_collected (by decide)

theorem stops_readBulk {n : Int64} :
    Reader.Stops (Unanswered ended) (if n < 0 then return Response.null else do
        let size ← withCapacity (n + 2) 1
        let buf ← Reader.exactly size (.error (.connection "early eof"))
        return Response.string (fromUtf8Lossy (buf.take (size - 2)))) ended bs ↔ ¬ Fits '$' n := by
  have hfits : Fits '$' n ↔ n.toInt + 2 ≤ maxAllocation :=
    ⟨fun h => h.bulk rfl, fun h => ⟨fun _ => h, by simp, by simp, by simp⟩⟩
  rw [hfits]
  by_cases hneg : n < 0
  · rw [if_pos hneg]
    refine iff_of_false (Reader.stops_pure _) (not_not_intro ?_)
    rw [lt_zero_iff] at hneg
    simp only [maxAllocation]
    omega
  · rw [if_neg hneg, bulkCapacity_eq hneg]
    by_cases hroom : n.toInt + 2 ≤ maxAllocation
    · rw [if_pos hroom, Reader.pure_bind]
      refine iff_of_false (fun hstops => ?_) (not_not_intro hroom)
      rcases Reader.stops_bind.mp hstops with hread | ⟨buf, mid, -, hend⟩
      · exact answered (Reader.stops_exactly hread)
      · exact Reader.stops_pure _ hend
    · rw [if_neg hroom]
      refine iff_of_true ?_ hroom
      exact Reader.stops_bind.mpr (Or.inl ((Reader.stops_fail _).mpr trivial))

theorem stops_readMap {n : Int64} :
    Reader.Stops (Unanswered ended) (do
        let m ← withCapacity n (2 * responseSize)
        return Response.map (← Reader.times (readEntry inner) m)) ended bs ↔ ¬ Fits '%' n ∨
      ∃ k mid, k < children '%' n ∧ Reader.Passes inner ended k bs mid ∧
        Reader.Stops (Unanswered ended) inner ended mid := by
  have hfits : Fits '%' n ↔ 0 ≤ n.toInt ∧ n.toInt * (2 * responseSize : Nat) ≤ maxAllocation :=
    ⟨fun h => ⟨h.nonneg (by simp), h.entries rfl⟩,
      fun h => ⟨by simp, by simp, fun _ => h.2, fun _ => h.1⟩⟩
  have hchildren : children '%' n = 2 * n.toInt.toNat := by simp [children]
  rw [hfits, hchildren, ← stops_entries]
  exact stops_collected (by decide)

/-- What follows the type byte panics at a length that does not fit, or in a nested value. -/
theorem stops_readBody {c : Char} {payload : String} :
    Reader.Stops (Unanswered ended) (readBody inner c payload) ended bs ↔
      ∃ n, parseInt64 payload = .ok n ∧ (¬ Fits c n ∨
        ∃ k mid, k < children c n ∧ Reader.Passes inner ended k bs mid ∧
          Reader.Stops (Unanswered ended) inner ended mid) := by
  unfold readBody
  split
  · exact iff_of_false (Reader.stops_pure _) (not_stops_plain (by decide))
  · exact iff_of_false (Reader.stops_pure _) (not_stops_plain (by decide))
  · refine iff_of_false ?_ (not_stops_plain (by decide))
    cases parseInt64 payload with
    | ok n => exact Reader.stops_pure _
    | error e => simp [protocolError, Unanswered]
  · exact iff_of_false (Reader.stops_pure _) (not_stops_plain (by decide))
  · rw [stops_parseLength]
    refine exists_congr fun n => and_congr_right fun _ => ?_
    rw [stops_readBulk]
    simp [children]
  · rw [stops_parseLength]
    refine exists_congr fun n => and_congr_right fun _ => ?_
    by_cases hneg : n < 0
    · rw [if_pos hneg]
      rw [lt_zero_iff] at hneg
      refine iff_of_false (Reader.stops_pure _) ?_
      rintro (hfits | ⟨k, mid, hk, -⟩)
      · refine hfits ⟨by simp, fun _ => ?_, by simp, by simp⟩
        simp only [responseSize, maxAllocation]
        omega
      · simp only [children, List.mem_cons, true_or, if_true] at hk
        omega
    · rw [if_neg hneg]
      rw [lt_zero_iff, Int.not_lt] at hneg
      exact stops_readItems (by decide) fun _ => hneg
  · rw [stops_parseLength]
    exact exists_congr fun n => and_congr_right fun _ => stops_readMap
  · refine iff_of_false ?_ (not_stops_plain (by decide))
    split
    · exact Reader.stops_pure _
    · exact Reader.stops_pure _
    · simp [protocolError, Unanswered]
  · exact iff_of_false (Reader.stops_pure _) (not_stops_plain (by decide))
  · rw [stops_parseLength]
    refine exists_congr fun n => and_congr_right fun _ => ?_
    exact stops_readItems (by decide) fun hstar => absurd hstar (by decide)
  · rw [stops_parseLength]
    refine exists_congr fun n => and_congr_right fun _ => ?_
    exact stops_readItems (by decide) fun hstar => absurd hstar (by decide)
  · refine iff_of_false ?_ (not_stops_plain ?_)
    · simp [protocolError, Unanswered]
    · simp_all

theorem trimLine_empty : trimLine "" = [] := rfl

theorem stops_readLineBody {line : String} :
    Reader.Stops (Unanswered ended) (readLineBody inner line) ended bs ↔
      ∃ c payload, trimLine line = c :: payload.toList ∧ (c.utf8Size ≠ 1 ∨
        ∃ n, parseInt64 payload = .ok n ∧ (¬ Fits c n ∨
          ∃ k mid, k < children c n ∧ Reader.Passes inner ended k bs mid ∧
            Reader.Stops (Unanswered ended) inner ended mid)) := by
  unfold readLineBody
  split_ifs with hempty
  · subst hempty
    simp [protocolError, Unanswered, trimLine_empty]
  cases htrim : trimLine line with
  | nil => simp [protocolError, Unanswered]
  | cons c cs =>
    have hpayload : ∀ d (payload : String), c :: cs = d :: payload.toList ↔
        c = d ∧ String.ofList cs = payload := by
      intro d payload
      rw [List.cons.injEq, ← String.toList_inj, String.toList_ofList]
    simp only [hpayload]
    by_cases hsize : c.utf8Size = 1
    · simp [hsize, stops_readBody]
    · simp [hsize, Unanswered]

/-- A call panics at its first line, or in a value nested in it. -/
theorem stops_readValue :
    Reader.Stops (Unanswered ended) readValue ended bs ↔ ¬ SafeHead ended bs ∨
      ∃ c payload body n k mid, Head ended bs c payload body ∧ parseInt64 payload = .ok n ∧
        k < children c n ∧ Reader.Passes readValue ended k body mid ∧
          Reader.Stops (Unanswered ended) readValue ended mid := by
  have hunfold : Reader.Stops (Unanswered ended) readValue ended bs ↔
      Reader.Stops (Unanswered ended) (Reader.line (.error (.connection
        "stream did not contain valid UTF-8")) >>= readLineBody readValue) ended bs := by
    unfold Reader.Stops
    rw [readValue_eq]
  rw [hunfold, Reader.stops_bind]
  constructor
  · rintro (hline | ⟨line, body, hline, hstops⟩)
    · exact absurd (Reader.stops_line hline) answered
    · obtain ⟨c, payload, htrim, hcause⟩ := stops_readLineBody.mp hstops
      have hhead : Head ended bs c payload body := ⟨line, hline, htrim⟩
      rcases hcause with hsize | ⟨n, hn, hfits | ⟨k, mid, hk, hpasses, hnested⟩⟩
      · exact Or.inl fun hsafe => hsize (hsafe c payload body hhead).1
      · exact Or.inl fun hsafe => hfits ((hsafe c payload body hhead).2 n hn)
      · exact Or.inr ⟨c, payload, body, n, k, mid, hhead, hn, hk, hpasses, hnested⟩
  · intro hcause
    refine Or.inr ?_
    rcases hcause with hunsafe |
      ⟨c, payload, body, n, k, mid, ⟨line, hline, htrim⟩, hn, hk, hpasses, hnested⟩
    · simp only [SafeHead, not_forall, not_and_or] at hunsafe
      obtain ⟨c, payload, body, ⟨line, hline, htrim⟩, hsize | ⟨n, hn, hfits⟩⟩ := hunsafe
      · exact ⟨line, body, hline, stops_readLineBody.mpr ⟨c, payload, htrim, Or.inl hsize⟩⟩
      · exact ⟨line, body, hline,
          stops_readLineBody.mpr ⟨c, payload, htrim, Or.inr ⟨n, hn, Or.inl hfits⟩⟩⟩
    · exact ⟨line, body, hline, stops_readLineBody.mpr ⟨c, payload, htrim,
        Or.inr ⟨n, hn, Or.inr ⟨k, mid, hk, hpasses, hnested⟩⟩⟩⟩

end

/-! ## Whole streams -/

/-- A nested value has fewer bytes left than the one around it. -/
theorem Head.length_lt {ended : Bool} {bs body : Bytes} {c : Char} {payload : String}
    (h : Head ended bs c payload body) : body.length < bs.length := by
  obtain ⟨line, hline, htrim⟩ := h
  refine Reader.line_takes hline ?_
  rintro rfl
  rw [trimLine_empty] at htrim
  cases htrim

/-- A call panics exactly where a value it comes to read has an unsafe first line. -/
theorem stops_readValue_iff {ended : Bool} {bs : Bytes} :
    Reader.Stops (Unanswered ended) readValue ended bs ↔
      ∃ start, Starts ended bs start ∧ ¬ SafeHead ended start := by
  constructor
  · -- on the number of bytes: the nested value that panics starts behind the first line
    intro hstops
    induction hlen : bs.length using Nat.strong_induction_on generalizing bs with
    | _ len ih =>
      rcases stops_readValue.mp hstops with hunsafe |
        ⟨c, payload, body, n, k, mid, hhead, hn, hk, hpasses, hnested⟩
      · exact ⟨bs, .here bs, hunsafe⟩
      · have hbody := hhead.length_lt
        have hmid := hpasses.length_le lawful_readValue
        obtain ⟨start, hstart, hunsafe⟩ := ih mid.length (by omega) hnested rfl
        exact ⟨start, .child hhead hn hk hpasses hstart, hunsafe⟩
  · rintro ⟨start, hstart, hunsafe⟩
    induction hstart with
    | here bs => exact stops_readValue.mpr (Or.inl hunsafe)
    | child hhead hn hk hpasses _ ih =>
      exact stops_readValue.mpr (Or.inr ⟨_, _, _, _, _, _, hhead, hn, hk, hpasses, ih hunsafe⟩)

/-- The decoder answers every stream in which each value it comes to read, at any depth, starts
with an ASCII character and announces a length that can be allocated. -/
theorem answers_iff_safe_heads (ended : Bool) (bs : Bytes) :
    Answers ended bs ↔ ∀ start, Starts ended bs start → SafeHead ended start := by
  rw [Answers, stops_readValue_iff, not_exists]
  exact forall_congr' fun start => not_and_not_right

/-- A map of negative length, a bulk string of the largest length there is and a line that starts
with a character of two bytes each end the task of the caller. -/
theorem negative_length_panics :
    readValue false (utf8 "%-1\r\n") = .fail (.panic "capacity overflow") [] ∧
    readValue false (utf8 "$9223372036854775807\r\n") = .fail (.panic "capacity overflow") [] ∧
    readValue false (utf8 "é\r\n") = .fail (.panic "byte index 1 is not a char boundary") [] ∧
    ¬ Answers false (utf8 "%-1\r\n") := by
  have hmap : readValue false (utf8 "%-1\r\n") = .fail (.panic "capacity overflow") [] := by rfl
  refine ⟨hmap, by rfl, by rfl, not_not_intro ⟨some (.panic "capacity overflow"), ?_, trivial⟩⟩
  rw [hmap, Poll.stop]

end Response

end Shroudb
