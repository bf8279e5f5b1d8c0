import Mathlib.Data.List.Forall2
import Mathlib.Data.List.Infix
import Mathlib.Data.List.TakeWhile
import Shroudb.Client.Response
import Shroudb.Resp3.RoundTrip

/-! What `read_value` makes of the frames the server writes. -/
namespace Shroudb
open Wire Response

namespace Resp3Frame

mutual
/-- The client's view of a frame. -/
def img : Resp3Frame → Response
  | .simpleString s => .string s
  | .simpleError s => .error s
  | .integer n => .integer n
  | .bulkString data => .string (fromUtf8Lossy data)
  | .array frames => .array (imgAll frames)
  | .map pairs => .map (imgPairs pairs)
  | .push frames => .array (imgAll frames)
  | .null => .null
def imgAll : List Resp3Frame → List Response
  | [] => []
  | f :: fs => img f :: imgAll fs
def imgPairs : List (Resp3Frame × Resp3Frame) → List (Response × Response)
  | [] => []
  | (k, v) :: ps => (img k, img v) :: imgPairs ps
end

mutual
/-- Every buffer the client allocates for the frame is within the allocator's bound. -/
def InMemory : Resp3Frame → Prop
  | .bulkString data => data.length + 2 ≤ maxAllocation
  | .array frames => frames.length * responseSize ≤ maxAllocation ∧ InMemoryAll frames
  | .map pairs => pairs.length * (2 * responseSize) ≤ maxAllocation ∧ InMemoryPairs pairs
  | .push frames => frames.length * responseSize ≤ maxAllocation ∧ InMemoryAll frames
  | .simpleString _ => True
  | .simpleError _ => True
  | .integer _ => True
  | .null => True
def InMemoryAll : List Resp3Frame → Prop
  | [] => True
  | f :: fs => InMemory f ∧ InMemoryAll fs
def InMemoryPairs : List (Resp3Frame × Resp3Frame) → Prop
  | [] => True
  | (k, v) :: ps => InMemory k ∧ InMemory v ∧ InMemoryPairs ps
end

theorem imgAll_eq (fs : List Resp3Frame) : imgAll fs = fs.map img := by
  induction fs with
  | nil => rfl
  | cons f fs ih => simp [imgAll, ih]

theorem imgPairs_eq (ps : List (Resp3Frame × Resp3Frame)) :
    imgPairs ps = ps.map fun p => (img p.1, img p.2) := by
  induction ps with
  | nil => rfl
  | cons p ps ih => simp [imgPairs, ih]

theorem inMemoryAll_iff {fs : List Resp3Frame} : InMemoryAll fs ↔ ∀ f ∈ fs, InMemory f := by
  induction fs with
  | nil => simp [InMemoryAll]
  | cons f fs ih => simp [InMemoryAll, ih]

theorem inMemoryPairs_iff {ps : List (Resp3Frame × Resp3Frame)} :
    InMemoryPairs ps ↔ ∀ p ∈ ps, InMemory p.1 ∧ InMemory p.2 := by
  induction ps with
  | nil => simp [InMemoryPairs]
  | cons p ps ih => simp [InMemoryPairs, ih, and_assoc]

/-! ## Lines -/

theorem trimCrlf_of_not_mem {cs : List Char} (h : '\n' ∉ cs) : trimCrlf cs = cs := by
  rw [trimCrlf.eq_def]
  split
  · simp at h
  · rfl

theorem dropWhile_lf_of_not_mem {cs : List Char} (h : '\n' ∉ cs) :
    cs.dropWhile (· = '\n') = cs := by
  cases cs with
  | nil => rfl
  | cons c cs =>
    have hc : c ≠ '\n' := by
      rintro rfl
      simp at h
    simp [hc]

theorem trimLine_crlf {cs : List Char} (h : '\n' ∉ cs) :
    trimLine (String.ofList cs ++ "\r" ++ "\n") = cs := by
  have hr : (String.ofList cs ++ "\r" ++ "\n").toList.reverse = '\n' :: '\r' :: cs.reverse := by simp
  have hm : '\n' ∉ cs.reverse := by simpa using h
  rw [trimLine, hr, trimCrlf, trimCrlf_of_not_mem hm, dropWhile_lf_of_not_mem hm,
    List.reverse_reverse]

def dropCr (cs : List Char) : List Char := if cs.getLast? = some '\r' then cs.dropLast else cs

/-- A line that ends in a bare line feed loses one carriage return before it. -/
theorem trimLine_lf {c : Char} {cs : List Char} (hr : c ≠ '\r') (h : '\n' ∉ c :: cs) :
    trimLine (String.ofList (c :: cs) ++ "\n") = c :: dropCr cs := by
  have hrev : (String.ofList (c :: cs) ++ "\n").toList.reverse = '\n' :: (cs.reverse ++ [c]) := by
    simp
  rw [trimLine, hrev, dropCr]
  rcases List.eq_nil_or_concat cs with rfl | ⟨ds, d, rfl⟩
  · have hc : c ≠ '\n' := fun he => h (by simp [he])
    rw [List.reverse_nil, List.nil_append, trimCrlf.eq_def]
    simp [hr, hc]
  · rw [List.concat_eq_append] at h ⊢
    have hm : '\n' ∉ (d :: ds.reverse) ++ [c] := by
      simpa [and_comm, and_assoc, and_left_comm] using h
    rw [List.reverse_append, List.reverse_singleton, List.singleton_append,
      List.getLast?_append_of_ne_nil _ (by simp), List.getLast?_singleton, List.dropLast_concat]
    by_cases hd : d = '\r'
    · subst hd
      have hds : '\n' ∉ ds.reverse ++ [c] := fun hn => hm (List.mem_cons_of_mem _ hn)
      rw [if_pos rfl, List.cons_append, trimCrlf, trimCrlf_of_not_mem hds,
        dropWhile_lf_of_not_mem hds]
      simp
    · have ht : trimCrlf ('\n' :: (d :: ds.reverse ++ [c])) =
          '\n' :: (d :: ds.reverse ++ [c]) := by
        rw [trimCrlf.eq_def]
        simp [hd]
      rw [if_neg (by simpa using hd), ht, List.dropWhile_cons_of_pos (by simp),
        dropWhile_lf_of_not_mem hm]
      simp

/-- What is left of a text that is cut at its first line feed. -/
def cutText (s : String) : String := String.ofList (dropCr (s.toList.takeWhile (· ≠ '\n')))

theorem lf_not_mem_cutText (s : String) : '\n' ∉ (cutText s).toList := by
  have hline : '\n' ∉ s.toList.takeWhile (· ≠ '\n') := by
    intro hmem
    have hne := List.mem_takeWhile_imp hmem
    simp at hne
  rw [cutText, String.toList_ofList, dropCr]
  split_ifs
  · exact fun hmem => hline (List.mem_of_mem_dropLast hmem)
  · exact hline

/-! ## One line and what follows it -/

theorem utf8_ofList_cons {b : UInt8} {c : Char} (hb : String.utf8EncodeChar c = [b]) (s : String) :
    utf8 (String.ofList (c :: s.toList)) = b :: utf8 s := by
  simp [utf8_eq_flatMap, hb]

/-- A value whose first line is whole is read as its type byte says. -/
theorem readValueAt_headed (c : Char) (payload : String) {b : UInt8} {body : Bytes} {n : Nat}
    {ended : Bool} (hb : String.utf8EncodeChar c = [b]) (hc : c ≠ '\n')
    (hp : '\n' ∉ payload.toList) :
    readValueAt (n + 1) ended (b :: utf8 payload ++ crlf ++ body) =
      readBody (readValueAt n) c payload ended body := by
  have hlf : '\n' ∉ c :: payload.toList := by simp [hc.symm, hp]
  have hline : b :: utf8 payload ++ crlf =
      utf8 (String.ofList (c :: payload.toList) ++ "\r" ++ "\n") := by
    have hr : utf8 "\r" = [13] := by decide
    have hn : utf8 "\n" = [10] := by decide
    rw [utf8_append, utf8_append, utf8_ofList_cons hb, hr, hn]
    simp [crlf]
  have hsize : c.utf8Size = 1 := by
    rw [← String.length_utf8EncodeChar, hb]
    rfl
  have hne : String.ofList (c :: payload.toList) ++ "\r" ++ "\n" ≠ "" := by
    intro he
    have := congrArg String.toList he
    simp at this
  rw [hline, readValueAt, Reader.bind_done (Reader.reads_line (by simpa using hlf) ended body),
    readLineBody, if_neg hne, trimLine_crlf hlf]
  simp only [hsize, if_true, String.ofList_toList]

theorem reads_headed (c : Char) (payload : String) {b : UInt8} {body : Bytes} {r : Response}
    {n : Nat} (hb : String.utf8EncodeChar c = [b]) (hc : c ≠ '\n') (hp : '\n' ∉ payload.toList)
    (h : Reader.Reads (readBody (readValueAt n) c payload) body r) :
    Reader.Reads (readValueAt (n + 1)) (b :: utf8 payload ++ crlf ++ body) r := by
  intro ended rest
  rw [List.append_assoc, readValueAt_headed c payload hb hc hp]
  exact h ended rest

/-- A value whose first line is cut short by a line feed in its payload. -/
theorem readValueAt_cut {b : UInt8} {c : Char} {payload : String} {bs : Bytes} {n : Nat}
    (hb : String.utf8EncodeChar c = [b]) (hc : c ≠ '\n') (hr : c ≠ '\r')
    (hp : '\n' ∈ payload.toList) :
    ∃ mid, mid.length ≥ bs.length ∧ ∀ ended,
      readValueAt (n + 1) ended (b :: utf8 payload ++ bs) =
        readBody (readValueAt n) c (cutText payload) ended mid := by
  obtain ⟨s₁, s₂, hs, hn⟩ := List.eq_append_cons_of_mem hp
  have hlf : '\n' ∉ c :: s₁ := by simp [hc.symm, hn]
  have hcut : cutText payload = String.ofList (dropCr s₁) := by
    rw [cutText, hs, List.takeWhile_append_of_pos, List.takeWhile_cons_of_neg (by simp),
      List.append_nil]
    intro x hx
    have hne : x ≠ '\n' := fun he => hn (he ▸ hx)
    simpa using hne
  have hline : b :: utf8 payload ++ bs =
      utf8 (String.ofList (c :: s₁) ++ "\n") ++ (utf8 (String.ofList s₂) ++ bs) := by
    have henc : String.utf8EncodeChar '\n' = [10] := by decide
    simp [utf8_eq_flatMap, hs, hb, henc]
  have hsize : c.utf8Size = 1 := by
    rw [← String.length_utf8EncodeChar, hb]
    rfl
  refine ⟨utf8 (String.ofList s₂) ++ bs, by simp, ?_⟩
  intro ended
  have hne : String.ofList (c :: s₁) ++ "\n" ≠ "" := by
    intro he
    have := congrArg String.toList he
    simp at this
  have hread : Reader.line (ReadFailure.error (.connection "stream did not contain valid UTF-8"))
      ended (b :: utf8 payload ++ bs) = .done (String.ofList (c :: s₁) ++ "\n")
        (utf8 (String.ofList s₂) ++ bs) := by
    rw [hline]
    exact Reader.reads_line (by simpa using hlf) ended _
  rw [readValueAt, Reader.bind_done hread, readLineBody, if_neg hne, trimLine_lf hr hlf, hcut]
  simp only [hsize, if_true]

/-! ## Lengths -/

theorem length_lt_of_inMemory {k size : Nat} (hs : 0 < size) (h : k * size ≤ maxAllocation) :
    k < 2 ^ 63 := by
  have := Nat.le_mul_of_pos_right k hs
  simp only [maxAllocation] at h
  omega

theorem parseLength_repr {what : String} {m : Nat} (h : m < 2 ^ 63) :
    parseLength what m.repr = pure (Int64.ofInt m) := by
  simp only [parseLength, parseInt64_repr h]

theorem withCapacity_ofInt {m size : Nat} (h : m * size ≤ maxAllocation) (hw : m < 2 ^ 64) :
    withCapacity (Int64.ofInt m) size = pure m := by
  rw [withCapacity, toNat_toUInt64_ofInt, Nat.mod_eq_of_lt hw, if_pos h]

theorem reads_readItems {inner : Reader ReadFailure Response} {fs : List Resp3Frame}
    (hm : fs.length * responseSize ≤ maxAllocation)
    (h : ∀ f ∈ fs, Reader.Reads inner (writeFrame f) (img f)) :
    Reader.Reads (readItems inner (Int64.ofInt fs.length)) (writeFrames fs) (.array (imgAll fs)) := by
  have hlt : fs.length < 2 ^ 64 := by
    have := length_lt_of_inMemory (by decide) hm
    omega
  rw [readItems, withCapacity_ofInt hm hlt, Reader.pure_bind]
  rw [writeFrames_eq, imgAll_eq]
  have hlen : fs.length = (fs.map img).length := by simp
  rw [hlen]
  refine (Reader.reads_times ?_).bind_last (Reader.reads_pure _)
  rw [List.forall₂_map_left_iff, List.forall₂_map_right_iff, List.forall₂_same]
  exact h

theorem reads_readEntries {inner : Reader ReadFailure Response}
    {ps : List (Resp3Frame × Resp3Frame)}
    (h : ∀ p ∈ ps, Reader.Reads inner (writeFrame p.1) (img p.1) ∧
      Reader.Reads inner (writeFrame p.2) (img p.2)) :
    Reader.Reads (Reader.times (readEntry inner) ps.length) (writePairs ps) (imgPairs ps) := by
  have hlen : ps.length = (ps.map fun p => (img p.1, img p.2)).length := by simp
  rw [writePairs_eq, imgPairs_eq, hlen]
  apply Reader.reads_times
  rw [List.forall₂_map_left_iff, List.forall₂_map_right_iff, List.forall₂_same]
  intro p hp
  exact (h p hp).1.bind ((h p hp).2.bind_last (Reader.reads_pure _))

theorem reads_readBody_bulk {inner : Reader ReadFailure Response} {data : Bytes}
    (h : data.length + 2 ≤ maxAllocation) :
    Reader.Reads (readBody inner '$' data.length.repr) (data ++ crlf)
      (.string (fromUtf8Lossy data)) := by
  have hlt : data.length < 2 ^ 63 := by
    simp only [maxAllocation] at h
    omega
  have hadd : Int64.ofInt data.length + 2 = Int64.ofInt (data.length + 2 : Nat) := by
    have hc : ((data.length + 2 : Nat) : Int) = (data.length : Int) + 2 := by omega
    rw [hc, Int64.ofInt_add]
    rfl
  have hcap : withCapacity (Int64.ofInt (data.length + 2 : Nat)) 1 = pure (data.length + 2) :=
    withCapacity_ofInt (by omega) (by omega)
  simp only [readBody, parseLength_repr hlt, Reader.pure_bind, ofInt_natCast_nonneg hlt, if_false,
    hadd, hcap]
  refine (Reader.reads_exactly (by simp [crlf])).bind_last ?_
  have htake : (data ++ crlf).take (data.length + 2 - 2) = data := by simp
  rw [htake]
  exact Reader.reads_pure _

theorem length_writeFrame_le {f : Resp3Frame} {fs : List Resp3Frame} (h : f ∈ fs) :
    (writeFrame f).length ≤ (writeFrames fs).length := by
  rw [writeFrames_eq]
  exact (List.sublist_flatten_of_mem (List.mem_map_of_mem h)).length_le

theorem length_writePair_le {p : Resp3Frame × Resp3Frame} {ps : List (Resp3Frame × Resp3Frame)}
    (h : p ∈ ps) : (writeFrame p.1).length + (writeFrame p.2).length ≤ (writePairs ps).length := by
  have hm : writeFrame p.1 ++ writeFrame p.2 ∈ ps.map fun p => writeFrame p.1 ++ writeFrame p.2 :=
    List.mem_map.mpr ⟨p, h, rfl⟩
  rw [writePairs_eq, ← List.length_append]
  exact (List.sublist_flatten_of_mem hm).length_le

/-! ## The image theorem -/

/-- The children of a collection are read with a level less. -/
theorem reads_child {f : Resp3Frame} {n : Nat} {size : Nat} (hn : size + 3 ≤ n)
    (hf : (writeFrame f).length ≤ size)
    (ih : ∀ m, (writeFrame f).length ≤ m →
      Reader.Reads (readValueAt (m + 1)) (writeFrame f) (img f)) :
    Reader.Reads (readValueAt n) (writeFrame f) (img f) := by
  obtain ⟨m, rfl⟩ : ∃ m, n = m + 1 := ⟨n - 1, by omega⟩
  exact ih m (by omega)

theorem reads_readValueAt (f : Resp3Frame) {n : Nat} (hs : LineSafe f) (hm : InMemory f)
    (hn : (writeFrame f).length ≤ n) :
    Reader.Reads (readValueAt (n + 1)) (writeFrame f) (img f) := by
  induction f generalizing n with
  | simpleString s =>
    rw [writeFrame, ← List.append_nil (43 :: utf8 s ++ crlf)]
    exact reads_headed '+' s (by decide) (by decide) (hs s (by simp [lineTexts]))
      (Reader.reads_pure _)
  | simpleError s =>
    rw [writeFrame, ← List.append_nil (45 :: utf8 s ++ crlf)]
    exact reads_headed '-' s (by decide) (by decide) (hs s (by simp [lineTexts]))
      (Reader.reads_pure _)
  | integer k =>
    rw [writeFrame, ← List.append_nil (58 :: utf8 (printInt64 k) ++ crlf)]
    refine reads_headed ':' _ (by decide) (by decide) (lf_not_mem_printInt64 k) ?_
    simp only [readBody, parseInt64_print]
    exact Reader.reads_pure _
  | bulkString data =>
    rw [writeFrame, header, List.append_assoc]
    exact reads_headed '$' _ (by decide) (by decide) (lf_not_mem_repr _) (reads_readBody_bulk hm)
  | array fs ih =>
    have hlen := length_lt_of_inMemory (by decide) hm.1
    have hsize : (writeFrames fs).length + 3 ≤ n := by
      simp only [writeFrame, header, crlf, List.length_append, List.length_cons] at hn
      omega
    rw [writeFrame, header]
    refine reads_headed '*' _ (by decide) (by decide) (lf_not_mem_repr _) ?_
    simp only [readBody, parseLength_repr hlen, Reader.pure_bind, ofInt_natCast_nonneg hlen,
      if_false]
    refine reads_readItems hm.1 fun f hf => reads_child hsize (length_writeFrame_le hf) ?_
    exact fun m => ih f hf (lineSafe_array.mp hs f hf) (inMemoryAll_iff.mp hm.2 f hf)
  | map ps ih =>
    have hlen := length_lt_of_inMemory (by decide) hm.1
    have hsize : (writePairs ps).length + 3 ≤ n := by
      simp only [writeFrame, header, crlf, List.length_append, List.length_cons] at hn
      omega
    have hlen' : ps.length < 2 ^ 64 := by omega
    rw [writeFrame, header]
    refine reads_headed '%' _ (by decide) (by decide) (lf_not_mem_repr _) ?_
    simp only [readBody, parseLength_repr hlen, Reader.pure_bind, withCapacity_ofInt hm.1 hlen']
    refine (reads_readEntries fun p hp => ?_).bind_last (Reader.reads_pure _)
    have hp' := length_writePair_le hp
    obtain ⟨hs₁, hs₂⟩ := lineSafe_map.mp hs p hp
    obtain ⟨hm₁, hm₂⟩ := inMemoryPairs_iff.mp hm.2 p hp
    exact ⟨reads_child hsize (by omega) fun m => (ih p hp).1 hs₁ hm₁,
      reads_child hsize (by omega) fun m => (ih p hp).2 hs₂ hm₂⟩
  | push fs ih =>
    have hlen := length_lt_of_inMemory (by decide) hm.1
    have hsize : (writeFrames fs).length + 3 ≤ n := by
      simp only [writeFrame, header, crlf, List.length_append, List.length_cons] at hn
      omega
    rw [writeFrame, header]
    refine reads_headed '>' _ (by decide) (by decide) (lf_not_mem_repr _) ?_
    simp only [readBody, parseLength_repr hlen, Reader.pure_bind]
    refine reads_readItems hm.1 fun f hf => reads_child hsize (length_writeFrame_le hf) ?_
    exact fun m => ih f hf (lineSafe_push.mp hs f hf) (inMemoryAll_iff.mp hm.2 f hf)
  | null =>
    exact reads_headed '_' "" (by decide) (by decide) (by decide) (Reader.reads_pure _)

/-- The client reads every frame whose lines are whole, and nothing after it. -/
theorem reads_readValue {f : Resp3Frame} (hs : LineSafe f) (hm : InMemory f) :
    Reader.Reads readValue (writeFrame f) (img f) := by
  intro ended rest
  exact reads_readValueAt f hs hm (by simp) ended rest

/-! ## A line feed in a text is always noticed -/

variable {ended : Bool} {n : Nat} {rest rest' : Bytes}

theorem lineSafe_of_times {fs : List Resp3Frame} (hm : ∀ f ∈ fs, InMemory f)
    (hn : ∀ f ∈ fs, (writeFrame f).length ≤ n)
    (ih : ∀ f ∈ fs, ∀ rest rest',
      readValueAt (n + 1) ended (writeFrame f ++ rest) = .done (img f) rest' → LineSafe f)
    (h : Reader.times (readValueAt (n + 1)) fs.length ended (writeFrames fs ++ rest) =
      .done (imgAll fs) rest') : ∀ f ∈ fs, LineSafe f := by
  induction fs generalizing rest with
  | nil => simp
  | cons f fs ihfs =>
    obtain ⟨a, mid, ha, h⟩ := Reader.bind_eq_done.mp h
    obtain ⟨as, mid', has, h⟩ := Reader.bind_eq_done.mp h
    simp only [Reader.pure_apply, imgAll, Poll.done.injEq, List.cons.injEq] at h
    obtain ⟨⟨rfl, rfl⟩, rfl⟩ := h
    rw [writeFrames, List.append_assoc] at ha
    have hf : LineSafe f := ih f (by simp) _ _ ha
    rw [reads_readValueAt f hf (hm f (by simp)) (hn f (by simp)) ended] at ha
    cases ha
    have hfs := ihfs (fun g hg => hm g (by simp [hg])) (fun g hg => hn g (by simp [hg]))
      (fun g hg => ih g (by simp [hg])) has
    intro g hg
    rcases List.mem_cons.mp hg with rfl | hg
    · exact hf
    · exact hfs g hg

theorem lineSafe_of_times_pairs {ps : List (Resp3Frame × Resp3Frame)}
    (hm : ∀ p ∈ ps, InMemory p.1 ∧ InMemory p.2)
    (hn : ∀ p ∈ ps, (writeFrame p.1).length ≤ n ∧ (writeFrame p.2).length ≤ n)
    (ih : ∀ p ∈ ps, ∀ rest rest',
      (readValueAt (n + 1) ended (writeFrame p.1 ++ rest) = .done (img p.1) rest' → LineSafe p.1) ∧
      (readValueAt (n + 1) ended (writeFrame p.2 ++ rest) = .done (img p.2) rest' → LineSafe p.2))
    (h : Reader.times (readEntry (readValueAt (n + 1))) ps.length ended (writePairs ps ++ rest) =
      .done (imgPairs ps) rest') : ∀ p ∈ ps, LineSafe p.1 ∧ LineSafe p.2 := by
  induction ps generalizing rest with
  | nil => simp
  | cons p ps ihps =>
    obtain ⟨a, mid, hpair, htail⟩ := Reader.bind_eq_done.mp h
    obtain ⟨k, midk, hk, hvalue⟩ := Reader.bind_eq_done.mp hpair
    obtain ⟨v, midv, hv, hend⟩ := Reader.bind_eq_done.mp hvalue
    cases hend
    obtain ⟨as, mid', has, hend⟩ := Reader.bind_eq_done.mp htail
    simp only [Reader.pure_apply, imgPairs, Poll.done.injEq, List.cons.injEq, Prod.mk.injEq] at hend
    obtain ⟨⟨⟨rfl, rfl⟩, rfl⟩, rfl⟩ := hend
    rw [writePairs, List.append_assoc, List.append_assoc] at hk
    have hk' : LineSafe p.1 := (ih p (by simp) _ _).1 hk
    rw [reads_readValueAt p.1 hk' (hm p (by simp)).1 (hn p (by simp)).1 ended] at hk
    cases hk
    have hv' : LineSafe p.2 := (ih p (by simp) _ _).2 hv
    rw [reads_readValueAt p.2 hv' (hm p (by simp)).2 (hn p (by simp)).2 ended] at hv
    cases hv
    have hps := ihps (fun q hq => hm q (by simp [hq])) (fun q hq => hn q (by simp [hq]))
      (fun q hq => ih q (by simp [hq])) has
    intro q hq
    rcases List.mem_cons.mp hq with rfl | hq
    · exact ⟨hk', hv'⟩
    · exact hps q hq

/-- A text cut short at a line feed is not the text that was written. -/
theorem lf_not_mem_of_readValueAt {b : UInt8} {c : Char} {s : String} {mk : String → Response}
    (hb : String.utf8EncodeChar c = [b]) (hc : c ≠ '\n') (hr : c ≠ '\r')
    (hmk : ∀ {s t}, mk s = mk t → s = t) (hbody : ∀ inner t, readBody inner c t = pure (mk t))
    (h : readValueAt (n + 1) ended (b :: utf8 s ++ crlf ++ rest) = .done (mk s) rest') :
    '\n' ∉ s.toList := by
  intro hlf
  obtain ⟨mid, -, hread⟩ := readValueAt_cut hb hc hr hlf
  rw [List.append_assoc, hread, hbody, Reader.pure_apply] at h
  simp only [Poll.done.injEq] at h
  have hcut := lf_not_mem_cutText s
  rw [hmk h.1] at hcut
  exact hcut hlf

theorem readBody_array {inner : Reader ReadFailure Response} {fs : List Resp3Frame} {r : Response}
    (hm : fs.length * responseSize ≤ maxAllocation)
    (h : readItems inner (Int64.ofInt fs.length) ended (writeFrames fs ++ rest) = .done r rest') :
    ∃ items, r = .array items ∧
      Reader.times inner fs.length ended (writeFrames fs ++ rest) = .done items rest' := by
  have hlt : fs.length < 2 ^ 64 := by
    have := length_lt_of_inMemory (by decide) hm
    omega
  rw [readItems, withCapacity_ofInt hm hlt, Reader.pure_bind] at h
  obtain ⟨items, mid, hi, h⟩ := Reader.bind_eq_done.mp h
  cases h
  exact ⟨items, rfl, hi⟩

theorem lineSafe_of_readItems {fs : List Resp3Frame} {c : Char} {b : UInt8}
    (hb : String.utf8EncodeChar c = [b]) (hc : c ≠ '\n')
    (hbody : ∀ inner, readBody inner c fs.length.repr = readItems inner (Int64.ofInt fs.length))
    (hm : fs.length * responseSize ≤ maxAllocation) (hmem : ∀ f ∈ fs, InMemory f)
    (hn : (header b fs.length ++ writeFrames fs).length ≤ n)
    (ih : ∀ f ∈ fs, ∀ {n rest rest'}, InMemory f → (writeFrame f).length ≤ n →
      readValueAt (n + 1) ended (writeFrame f ++ rest) = .done (img f) rest' → LineSafe f)
    (h : readValueAt (n + 1) ended (header b fs.length ++ writeFrames fs ++ rest) =
      .done (.array (imgAll fs)) rest') : ∀ f ∈ fs, LineSafe f := by
  obtain ⟨m, rfl⟩ : ∃ m, n = m + 1 := by
    refine ⟨n - 1, ?_⟩
    simp only [header, crlf, List.length_append, List.length_cons] at hn
    omega
  have hsize : (writeFrames fs).length ≤ m := by
    simp only [header, crlf, List.length_append, List.length_cons] at hn
    omega
  rw [header, List.append_assoc, readValueAt_headed c _ hb hc (lf_not_mem_repr _), hbody] at h
  obtain ⟨items, hi, ht⟩ := readBody_array hm h
  cases hi
  refine lineSafe_of_times hmem (fun f hf => ?_) (fun f hf rest rest' => ?_) ht
  · exact Nat.le_trans (length_writeFrame_le hf) hsize
  · exact ih f hf (hmem f hf) (Nat.le_trans (length_writeFrame_le hf) hsize)

theorem lineSafe_of_readValueAt (f : Resp3Frame) (hm : InMemory f)
    (hn : (writeFrame f).length ≤ n)
    (h : readValueAt (n + 1) ended (writeFrame f ++ rest) = .done (img f) rest') : LineSafe f := by
  induction f generalizing n rest rest' with
  | simpleString s =>
    have hlf := lf_not_mem_of_readValueAt (c := '+') (by decide) (by decide) (by decide)
      Response.string.inj (fun _ _ => rfl) h
    simpa [LineSafe, lineTexts] using hlf
  | simpleError s =>
    have hlf := lf_not_mem_of_readValueAt (c := '-') (by decide) (by decide) (by decide)
      Response.error.inj (fun _ _ => rfl) h
    simpa [LineSafe, lineTexts] using hlf
  | integer k => simp [LineSafe, lineTexts]
  | bulkString data => simp [LineSafe, lineTexts]
  | null => simp [LineSafe, lineTexts]
  | array fs ih =>
    have hlen := length_lt_of_inMemory (by decide) hm.1
    refine lineSafe_array.mpr (lineSafe_of_readItems (c := '*') (by decide) (by decide) ?_ hm.1
      (inMemoryAll_iff.mp hm.2) hn ih h)
    intro inner
    simp only [readBody, parseLength_repr hlen, Reader.pure_bind, ofInt_natCast_nonneg hlen,
      if_false]
  | push fs ih =>
    have hlen := length_lt_of_inMemory (by decide) hm.1
    refine lineSafe_push.mpr (lineSafe_of_readItems (c := '>') (by decide) (by decide) ?_ hm.1
      (inMemoryAll_iff.mp hm.2) hn ih h)
    intro inner
    simp only [readBody, parseLength_repr hlen, Reader.pure_bind]
  | map ps ih =>
    have hlen := length_lt_of_inMemory (by decide) hm.1
    have hlen' : ps.length < 2 ^ 64 := by omega
    have hmem := inMemoryPairs_iff.mp hm.2
    obtain ⟨m, rfl⟩ : ∃ m, n = m + 1 := by
      refine ⟨n - 1, ?_⟩
      simp only [writeFrame, header, crlf, List.length_append, List.length_cons] at hn
      omega
    have hsize : (writePairs ps).length ≤ m := by
      simp only [writeFrame, header, crlf, List.length_append, List.length_cons] at hn
      omega
    rw [writeFrame, header, List.append_assoc,
      readValueAt_headed '%' _ (by decide) (by decide) (lf_not_mem_repr _)] at h
    simp only [readBody, parseLength_repr hlen, Reader.pure_bind,
      withCapacity_ofInt hm.1 hlen'] at h
    obtain ⟨entries, mid, he, hend⟩ := Reader.bind_eq_done.mp h
    cases hend
    refine lineSafe_map.mpr (lineSafe_of_times_pairs hmem (fun p hp => ?_)
      (fun p hp rest rest' => ?_) he)
    · have := length_writePair_le hp
      omega
    · have := length_writePair_le hp
      exact ⟨(ih p hp).1 (hmem p hp).1 (by omega), (ih p hp).2 (hmem p hp).2 (by omega)⟩

/-- The client reads a frame back, and nothing after it, exactly when no text the frame puts on
a line holds a line feed. -/
theorem readValue_writeFrame_iff {f : Resp3Frame} (hm : InMemory f) :
    (∀ rest, readValue ended (writeFrame f ++ rest) = .done (img f) rest) ↔ LineSafe f := by
  constructor
  · intro h
    exact lineSafe_of_readValueAt f hm (by simp) (h [])
  · exact fun hs rest => reads_readValue hs hm ended rest

/-! ## The server's reader and the client's -/

theorem RepresentableAt.lineSafe {f : Resp3Frame} {level : Nat} (h : RepresentableAt level f) :
    LineSafe f := by
  induction f generalizing level with
  | simpleString s | simpleError s =>
    simp only [RepresentableAt, elements, List.forall_mem_singleton, Admissible] at h
    simpa [LineSafe, lineTexts] using h.2
  | integer k | bulkString data | null => simp [LineSafe, lineTexts]
  | array fs ih =>
    obtain ⟨-, -, hfs⟩ := representableAt_array.mp h
    exact lineSafe_array.mpr fun f hf => ih f hf (hfs f hf)
  | push fs ih =>
    obtain ⟨-, -, hfs⟩ := representableAt_push.mp h
    exact lineSafe_push.mpr fun f hf => ih f hf (hfs f hf)
  | map ps ih =>
    obtain ⟨-, -, hps⟩ := representableAt_map.mp h
    exact lineSafe_map.mpr fun p hp => ⟨(ih p hp).1 (hps p hp).1, (ih p hp).2 (hps p hp).2⟩

/-- The server's limits are far below what the client can allocate. -/
theorem RepresentableAt.inMemory {f : Resp3Frame} {level : Nat} (h : RepresentableAt level f) :
    InMemory f := by
  induction f generalizing level with
  | simpleString s | simpleError s | integer k | null => simp [InMemory]
  | bulkString data =>
    simp only [RepresentableAt, elements, List.forall_mem_singleton, Admissible, maxBulkSize] at h
    simp only [InMemory, maxAllocation]
    omega
  | array fs ih =>
    obtain ⟨-, hlen, hfs⟩ := representableAt_array.mp h
    simp only [maxCollectionSize] at hlen
    refine ⟨?_, inMemoryAll_iff.mpr fun f hf => ih f hf (hfs f hf)⟩
    simp only [responseSize, maxAllocation]
    omega
  | push fs ih =>
    obtain ⟨-, hlen, hfs⟩ := representableAt_push.mp h
    simp only [maxCollectionSize] at hlen
    refine ⟨?_, inMemoryAll_iff.mpr fun f hf => ih f hf (hfs f hf)⟩
    simp only [responseSize, maxAllocation]
    omega
  | map ps ih =>
    obtain ⟨-, hlen, hps⟩ := representableAt_map.mp h
    simp only [maxCollectionSize] at hlen
    refine ⟨?_, inMemoryPairs_iff.mpr fun p hp => ⟨(ih p hp).1 (hps p hp).1, (ih p hp).2 (hps p hp).2⟩⟩
    simp only [responseSize, maxAllocation]
    omega

theorem reads_times_writeFrames {ε α : Type} {r : Reader ε α} {view : Resp3Frame → α}
    {fs : List Resp3Frame} (h : ∀ f ∈ fs, Reader.Reads r (writeFrame f) (view f)) :
    Reader.Reads (Reader.times r fs.length) (writeFrames fs) (fs.map view) := by
  have hlen : fs.length = (fs.map view).length := by simp
  rw [writeFrames_eq, hlen]
  apply Reader.reads_times
  rw [List.forall₂_map_left_iff, List.forall₂_map_right_iff, List.forall₂_same]
  exact h

/-- The client reads what the server writes; on a stream within the server's own limits, reading
it as the client does is `img` after reading it as the server does. -/
theorem readValue_is_img_of_readFrame :
    (∀ f, LineSafe f → InMemory f → ∀ ended rest,
      readValue ended (writeFrame f ++ rest) = .done (img f) rest) ∧
    ∀ fs, (∀ f ∈ fs, Representable f) → ∀ ended rest,
      Reader.times readFrame fs.length ended (writeFrames fs ++ rest) = .done (fs.map some) rest ∧
      Reader.times readValue fs.length ended (writeFrames fs ++ rest) = .done (fs.map img) rest := by
  refine ⟨fun f hs hm => reads_readValue hs hm, fun fs h ended rest => ⟨?_, ?_⟩⟩
  · exact reads_times_writeFrames (fun f hf => reads_writeFrame f (h f hf)) ended rest
  · refine reads_times_writeFrames (fun f hf => ?_) ended rest
    exact reads_readValue (h f hf).lineSafe (h f hf).inMemory

def eventThenReply : List Resp3Frame :=
  [.push [.bulkString (utf8 "event"), .array [.integer 3, .null]],
    .map [(.bulkString (utf8 "status"), .simpleString "OK"), (.simpleError "ERR", .bulkString [255])]]

/-- The two frames are read, and the first byte of the next one is left. -/
theorem readValue_event_then_reply :
    (∀ f ∈ eventThenReply, Representable f) ∧
      Reader.times readValue 2 false (writeFrames eventThenReply ++ [43]) =
        .done [.array [.string "event", .array [.integer 3, .null]],
          .map [(.string "status", .string "OK"), (.error "ERR", .string "\uFFFD")]] [43] := by
  have h : ∀ f ∈ eventThenReply, Representable f := by decide
  exact ⟨h, (readValue_is_img_of_readFrame.2 eventThenReply h false [43]).2⟩

end Resp3Frame

end Shroudb
