import Shroudb.Wire.Truncated
import Shroudb.Resp3.RoundTrip
import Shroudb.MemoryStore
import Shroudb.Protocol.ParseCommand

/-! What `read_frame` makes of a frame whose stream ends before its last byte. -/
namespace Shroudb
open Wire

namespace Resp3Frame
open Reader

mutual
/-- Whether the last bytes of the encoding are a line, and not a counted payload. -/
def endsInLine : Resp3Frame → Bool
  | .simpleString _ => true
  | .simpleError _ => true
  | .integer _ => true
  | .bulkString _ => false
  | .array frames => endsInLineAll frames
  | .map pairs => endsInLinePairs pairs
  | .push frames => endsInLineAll frames
  | .null => false
/-- With no elements the count is the last line. -/
def endsInLineAll : List Resp3Frame → Bool
  | [] => true
  | f :: fs => if fs.isEmpty then endsInLine f else endsInLineAll fs
def endsInLinePairs : List (Resp3Frame × Resp3Frame) → Bool
  | [] => true
  | (_, v) :: ps => if ps.isEmpty then endsInLine v else endsInLinePairs ps
end

theorem endsInLineAll_iff {fs : List Resp3Frame} :
    endsInLineAll fs = true ↔ ∀ f, fs.getLast? = some f → endsInLine f = true := by
  induction fs with
  | nil => simp [endsInLineAll]
  | cons f fs ih =>
    cases fs with
    | nil => simp [endsInLineAll]
    | cons g gs =>
      rw [List.getLast?_cons_cons, ← ih]
      simp [endsInLineAll]

theorem endsInLinePairs_iff {ps : List (Resp3Frame × Resp3Frame)} :
    endsInLinePairs ps = true ↔ ∀ p, ps.getLast? = some p → endsInLine p.2 = true := by
  induction ps with
  | nil => simp [endsInLinePairs]
  | cons p ps ih =>
    cases ps with
    | nil => simp [endsInLinePairs]
    | cons q qs =>
      rw [List.getLast?_cons_cons, ← ih]
      simp [endsInLinePairs]

/-! ## The pieces of a frame -/

theorem endsOn_readLine {s : String} (h : '\n' ∉ s.toList) :
    EndsOn (Cut (utf8 s ++ crlf)) readLine fun t => Cut (utf8 s ++ crlf) (utf8 t) := by
  have hcr : (10 : UInt8) ∉ utf8 s ++ [13] := by simp [lf_mem_utf8, h]
  have hb : utf8 s ++ crlf = utf8 s ++ [13] ++ [10] := by simp [crlf]
  rw [hb]
  refine (EndsOn.line hcr).bind_last fun t ht => ?_
  obtain ⟨hlf, hcut⟩ := ht
  refine EndsOn.pure (fun q hq => hq) ?_
  rwa [chomp_of_not_mem (by rwa [lf_mem_utf8] at hlf)]

theorem early_readLine {s : String} (h : '\n' ∉ s.toList) :
    Early readLine (utf8 s ++ crlf) s := by
  have hlf : (10 : UInt8) ∉ utf8 s := by rwa [lf_mem_utf8]
  refine (Early.line hlf (by simp [crlf])).bind_last ?_
  rw [chomp_of_not_mem h]
  rfl

/-- A cut length line is read as a length with fewer digits, and so not as 0. -/
theorem endsOn_readLength {what : String} {limit n : Nat} :
    EndsOn (Cut (utf8 n.repr ++ crlf)) (readLength what limit) fun m => 0 < n → 0 < m := by
  refine (endsOn_readLine (lf_not_mem_repr n)).bind_last ?_
  rintro t ⟨x, -, hx⟩
  have hb : utf8 n.repr ++ crlf = utf8 (n.repr ++ "\r\n") := by
    have hcrlf : utf8 "\r\n" = crlf := by decide
    rw [utf8_append, hcrlf]
  rw [hb] at hx
  obtain ⟨cs, hcs⟩ := toList_append_of_utf8 hx
  rw [String.toList_append] at hcs
  cases hp : parseUnsigned (2 ^ 64 - 1) t with
  | error e => exact EndsOn.fail
  | ok m =>
    simp only
    split_ifs
    · exact EndsOn.fail
    · exact EndsOn.pure (fun q hq => hq) fun hn => parseUnsigned_pos hn hcs.symm hp

theorem early_readLength {what : String} {limit n : Nat} (h : n ≤ limit) (hw : n < 2 ^ 64) :
    Early (readLength what limit) (utf8 n.repr ++ crlf) n := by
  refine (early_readLine (lf_not_mem_repr n)).bind_last ?_
  have hn : ¬ n > limit := by omega
  simp only [parseUnsigned_repr (show n ≤ 2 ^ 64 - 1 by omega), hn, if_false]
  rfl

theorem endsOn_expectCrlf (what : String) :
    EndsOn (Cut crlf) (expectCrlf what) fun _ => False :=
  EndsOn.bind_of_refused (EndsOn.exactly (by decide))

theorem endsOn_expectCrlf_nil (what : String) :
    EndsOn (· = []) (expectCrlf what) fun _ => False := by
  refine EndsOn.bind_of_refused (EndsOn.exactly_nil.mono (fun q hq => hq) fun _ h => ?_)
  cases h

theorem readFrameDepth_nil {depth : Nat} (h : depth ≤ maxDepth) :
    readFrameDepth depth true [] = .done none [] := by
  rw [readFrameDepth_eq h]
  rfl

theorem readFrameDepth_cons {depth : Nat} (h : depth ≤ maxDepth) (typeByte : UInt8) (bs : Bytes) :
    readFrameDepth depth true (typeByte :: bs) =
      (do return some (← readPayload (readFrameDepth (depth + 1)) typeByte)) true bs := by
  have hend : (atEnd : Reader ProtocolError Bool) true (typeByte :: bs) =
      .done false (typeByte :: bs) := rfl
  have hbyte : readExact 1 true (typeByte :: bs) = .done [typeByte] bs := by
    simp [readExact, exactly]
  rw [readFrameDepth_eq h, bind_done hend]
  simp only [Bool.false_eq_true, if_false]
  rw [bind_done hbyte]
  rfl

theorem readFrameDepth_too_deep {depth : Nat} (h : maxDepth < depth) :
    readFrameDepth depth = Reader.fail .nestingTooDeep := by
  have hl : maxDepth + 1 - depth = 0 := by omega
  rw [readFrameDepth, hl]
  rfl

/-- A frame after its type byte. A stream that ends in front of the type byte yields no frame. -/
theorem endsOn_readFrameDepth {K : Bytes → Bytes → Prop} {depth : Nat} {typeByte : UInt8}
    {body : Bytes} {p : Prop} (hK : Splits K) (h : depth ≤ maxDepth)
    (hp : EndsOn (K body) (readPayload (readFrameDepth (depth + 1)) typeByte) fun _ => p) :
    EndsOn (K (typeByte :: body)) (readFrameDepth depth) fun o => o.isSome → p := by
  intro q hq o rest hdone
  rcases hK [typeByte] body q hq with hcut | ⟨q', rfl, hq'⟩
  · have hnil : q = [] := by
      rcases cut_cons hcut with rfl | ⟨q', -, hq'⟩
      · rfl
      · exact absurd hq' not_cut_nil
    rw [hnil, readFrameDepth_nil h] at hdone
    cases hdone
    exact ⟨rfl, fun hsome => by cases hsome⟩
  · rw [List.singleton_append, readFrameDepth_cons h] at hdone
    have hsome : EndsOn (K body)
        (do return some (← readPayload (readFrameDepth (depth + 1)) typeByte))
        fun o => o.isSome → p :=
      hp.bind_last fun f hp => EndsOn.pure (fun q hq => hq) fun _ => hp
    exact hsome q' hq' o rest hdone

theorem endsOn_readChild {S : Bytes → Prop} {inner : Reader ProtocolError (Option Resp3Frame)}
    {what : String} {p : Prop} (h : EndsOn S inner fun o => o.isSome → p) :
    EndsOn S (readChild inner what) fun _ => p := by
  refine h.bind_last fun o ho => ?_
  cases o with
  | none => exact EndsOn.fail
  | some f => exact EndsOn.pure (fun q hq => hq) (ho rfl)

theorem endsOn_readChild_nil (depth : Nat) (what : String) :
    EndsOn (· = []) (readChild (readFrameDepth depth) what) fun _ => False := by
  refine endsOn_readChild ?_
  rintro q rfl o rest hdone
  by_cases h : depth ≤ maxDepth
  · rw [readFrameDepth_nil h] at hdone
    cases hdone
    exact ⟨rfl, fun hsome => by cases hsome⟩
  · rw [readFrameDepth_too_deep (by omega)] at hdone
    cases hdone

/-! ## Cuts of a frame within the limits -/

theorem reads_readChild_of_representable {f : Resp3Frame} {level : Nat} (what : String)
    (h : RepresentableAt level f) :
    Reads (readChild (readFrameDepth level) what) (writeFrame f) f :=
  reads_readChild (reads_writeFrame f h)

/-- A line, and whatever is made of its text without reading on. -/
theorem endsOn_line {s : String} (h : '\n' ∉ s.toList)
    {f : String → Reader ProtocolError Resp3Frame}
    (hf : ∀ t, EndsOn (· = []) (f t) fun _ => True) :
    EndsOn (Cut (utf8 s ++ crlf)) (readLine >>= f) fun _ => true = true :=
  (endsOn_readLine h).bind_last fun t _ => (hf t).mono (fun _ hq => hq) fun _ _ => rfl

/-- A count and then that many elements, the last of which decides. -/
theorem endsOn_counted {α : Type} {r : Reader ProtocolError α} {mk : List α → Resp3Frame}
    {what : String} {bytes : α → Bytes} {ends : α → Prop} {as : List α}
    (hnil : EndsOn (· = []) r fun _ => False) (hreads : ∀ a ∈ as, Reads r (bytes a) a)
    (hcut : ∀ a ∈ as, EndsOn (Cut (bytes a)) r fun _ => ends a)
    (hcount : as.length ≤ maxCollectionSize) :
    EndsOn (Cut (utf8 as.length.repr ++ crlf ++ (as.map bytes).flatten))
      (do
        let count ← readLength what maxCollectionSize
        return mk (← times r count)) fun _ => ∀ a, as.getLast? = some a → ends a := by
  have hw := maxCollectionSize_lt
  refine EndsOn.bind splits_cut (reads_readLength hcount (by omega)) endsOn_readLength ?_ ?_
  · intro n hpos
    cases n with
    | zero =>
      have hempty : as = [] := List.length_eq_zero_iff.mp (by omega)
      subst hempty
      exact EndsOn.pure (fun q hq => hq) fun a ha => by cases ha
    | succ n => exact EndsOn.bind_of_refused (EndsOn.times_nil hnil n)
  · rcases List.eq_nil_or_concat as with rfl | ⟨init, last, rfl⟩
    · exact fun q hq => absurd hq not_cut_nil
    · simp only [List.concat_eq_append] at hreads hcut ⊢
      have hinit : List.Forall₂ (Reads r) (init.map bytes) init := by
        rw [List.forall₂_map_left_iff, List.forall₂_same]
        exact fun a ha => hreads a (List.mem_append_left _ ha)
      rw [List.map_append, List.flatten_append, List.length_append, List.map_singleton,
        List.flatten_singleton, ← hinit.length_eq]
      refine (EndsOn.times_append splits_cut hnil hinit ?_
        (EndsOn.times_one (hcut last (by simp)))).bind_last fun _ hp => ?_
      · intro m hm
        obtain ⟨a, ha, rfl⟩ := List.mem_map.mp hm
        exact (hcut a (List.mem_append_left _ ha)).mono (fun q hq => hq) fun _ _ => trivial
      · refine EndsOn.pure (fun q hq => hq) fun a ha => ?_
        rw [List.getLast?_concat] at ha
        cases ha
        exact hp

theorem reads_readPair {level : Nat} {p : Resp3Frame × Resp3Frame}
    (hk : RepresentableAt level p.1) (hv : RepresentableAt level p.2) :
    Reads (readPair (readFrameDepth level)) (writeFrame p.1 ++ writeFrame p.2) p :=
  (reads_readChild_of_representable _ hk).bind
    ((reads_readChild_of_representable _ hv).bind_last (reads_pure p))

theorem endsOn_readPair {level : Nat} {k v : Resp3Frame} (hk : RepresentableAt level k)
    (hcutk : EndsOn (Cut (writeFrame k)) (readFrameDepth level) fun o =>
      o.isSome → endsInLine k = true)
    (hcutv : EndsOn (Cut (writeFrame v)) (readFrameDepth level) fun o =>
      o.isSome → endsInLine v = true) :
    EndsOn (Cut (writeFrame k ++ writeFrame v)) (readPair (readFrameDepth level))
      fun _ => endsInLine v = true := by
  refine EndsOn.bind splits_cut (reads_readChild_of_representable _ hk)
    (endsOn_readChild hcutk) (fun f _ => ?_) ?_
  · exact EndsOn.bind_of_refused (endsOn_readChild_nil level _)
  · exact (endsOn_readChild hcutv).bind_last fun _ hp => EndsOn.pure (fun q hq => hq) hp

theorem endsOn_readPair_nil (level : Nat) :
    EndsOn (· = []) (readPair (readFrameDepth level)) fun _ => False :=
  EndsOn.bind_of_refused (endsOn_readChild_nil level _)

/-- Arrays and pushes. -/
theorem endsOn_frames {level : Nat} {what child : String} {mk : List Resp3Frame → Resp3Frame}
    {fs : List Resp3Frame} (hcount : fs.length ≤ maxCollectionSize)
    (hrep : ∀ f ∈ fs, RepresentableAt level f)
    (hcut : ∀ f ∈ fs, EndsOn (Cut (writeFrame f)) (readFrameDepth level) fun o =>
      o.isSome → endsInLine f = true) :
    EndsOn (Cut (utf8 fs.length.repr ++ crlf ++ writeFrames fs))
      (do
        let count ← readLength what maxCollectionSize
        return mk (← times (readChild (readFrameDepth level) child) count))
      fun _ => endsInLineAll fs = true := by
  rw [writeFrames_eq, endsInLineAll_iff]
  exact endsOn_counted (endsOn_readChild_nil level child)
    (fun f hf => reads_readChild_of_representable child (hrep f hf))
    (fun f hf => endsOn_readChild (hcut f hf)) hcount

/-- A cut frame is read, if it is, with nothing left over and only where a line was cut. -/
theorem endsOn_writeFrame (f : Resp3Frame) {level : Nat} (h : RepresentableAt level f) :
    EndsOn (Cut (writeFrame f)) (readFrameDepth level) fun o => o.isSome → endsInLine f = true := by
  have hl := h.level_le
  induction f generalizing level with
  | simpleString s =>
    have hs : '\n' ∉ s.toList := (h (level, .simpleString s) (by simp [elements])).2
    rw [writeFrame, List.cons_append]
    refine endsOn_readFrameDepth splits_cut hl (endsOn_line hs fun t => ?_)
    exact EndsOn.pure (fun q hq => hq) trivial
  | simpleError s =>
    have hs : '\n' ∉ s.toList := (h (level, .simpleError s) (by simp [elements])).2
    rw [writeFrame, List.cons_append]
    refine endsOn_readFrameDepth splits_cut hl (endsOn_line hs fun t => ?_)
    exact EndsOn.pure (fun q hq => hq) trivial
  | integer n =>
    rw [writeFrame, List.cons_append]
    refine endsOn_readFrameDepth splits_cut hl (endsOn_line (lf_not_mem_printInt64 n) fun t => ?_)
    cases parseInt64 t with
    | error e => exact EndsOn.fail
    | ok m => exact EndsOn.pure (fun q hq => hq) trivial
  | bulkString data =>
    have hd : data.length ≤ maxBulkSize := (h (level, .bulkString data) (by simp [elements])).2
    have hw := maxBulkSize_lt
    simp only [writeFrame, header, List.cons_append]
    refine endsOn_readFrameDepth splits_cut hl ?_
    rw [List.append_assoc]
    refine EndsOn.bind splits_cut (reads_readLength hd (by omega)) endsOn_readLength ?_ ?_
    · intro n _
      exact EndsOn.bind_last (P := fun _ => True) (EndsOn.exactly_nil.mono (fun q hq => hq)
        fun _ _ => trivial) fun _ _ => EndsOn.bind_of_refused (endsOn_expectCrlf_nil _)
    · refine EndsOn.bind splits_cut (reads_readExact data rfl)
        (EndsOn.exactly (Nat.le_refl _)) (fun _ hf => hf.elim) ?_
      exact EndsOn.bind_of_refused (endsOn_expectCrlf _)
  | array fs ih =>
    obtain ⟨_, hc, hf⟩ := representableAt_array.mp h
    rw [writeFrame, header, List.cons_append, List.cons_append]
    refine endsOn_readFrameDepth splits_cut hl (endsOn_frames hc hf ?_)
    exact fun f hm => ih f hm (hf f hm) (hf f hm).level_le
  | map ps ih =>
    obtain ⟨_, hc, hp⟩ := representableAt_map.mp h
    rw [writeFrame, header, List.cons_append, List.cons_append]
    rw [writePairs_eq, endsInLine, endsInLinePairs_iff]
    refine endsOn_readFrameDepth splits_cut hl (endsOn_counted (endsOn_readPair_nil _)
      (fun p hm => reads_readPair (hp p hm).1 (hp p hm).2) (fun p hm => ?_) hc)
    obtain ⟨hkey, hvalue⟩ := hp p hm
    exact endsOn_readPair hkey ((ih p hm).1 hkey hkey.level_le) ((ih p hm).2 hvalue hvalue.level_le)
  | push fs ih =>
    obtain ⟨_, hc, hf⟩ := representableAt_push.mp h
    rw [writeFrame, header, List.cons_append, List.cons_append]
    refine endsOn_readFrameDepth splits_cut hl (endsOn_frames hc hf ?_)
    exact fun f hm => ih f hm (hf f hm) (hf f hm).level_le
  | null =>
    refine endsOn_readFrameDepth splits_cut hl ?_
    exact EndsOn.bind_of_refused (endsOn_expectCrlf _)

/-! ## Frames beyond the limits -/

/-- Beyond the deepest level nothing is read at all. -/
theorem refused_readFrameDepth {level : Nat} {typeByte : UInt8} {body : Bytes}
    (h : level ≤ maxDepth →
      EndsOn (Along body) (readPayload (readFrameDepth (level + 1)) typeByte) fun _ => False) :
    EndsOn (Along (typeByte :: body)) (readFrameDepth level) fun o => o.isSome → False := by
  by_cases hl : level ≤ maxDepth
  · exact endsOn_readFrameDepth splits_along hl (h hl)
  · rw [readFrameDepth_too_deep (by omega)]
    exact EndsOn.fail

/-- More elements than are allowed, or one among them that is refused. -/
theorem refused_counted {α : Type} {r : Reader ProtocolError α} {mk : List α → Resp3Frame}
    {what : String} {bytes : α → Bytes} {ok : α → Prop} {as : List α}
    (hnil : EndsOn (· = []) r fun _ => False)
    (hok : ∀ a ∈ as, ok a → Reads r (bytes a) a ∧ EndsOn (Cut (bytes a)) r fun _ => True)
    (hrefused : ∀ a ∈ as, ¬ ok a → EndsOn (Along (bytes a)) r fun _ => False)
    (h : ¬ (as.length ≤ maxCollectionSize ∧ ∀ a ∈ as, ok a)) :
    EndsOn (Along (utf8 as.length.repr ++ crlf ++ (as.map bytes).flatten))
      (do
        let count ← readLength what maxCollectionSize
        return mk (← times r count)) fun _ => False := by
  have hw := maxCollectionSize_lt
  have hpos : 0 < as.length := by
    by_contra hzero
    have hempty : as = [] := List.length_eq_zero_iff.mp (by omega)
    subst hempty
    exact h ⟨Nat.zero_le _, fun a ha => by cases ha⟩
  have hcount : ∀ n : Nat, (0 < as.length → 0 < n) →
      EndsOn (· = []) (do return mk (← times r n)) fun _ => False := by
    intro n hn
    obtain ⟨k, rfl⟩ : ∃ k, n = k + 1 := ⟨n - 1, by have := hn hpos; omega⟩
    exact EndsOn.bind_of_refused (EndsOn.times_nil hnil k)
  by_cases hmany : maxCollectionSize < as.length
  · exact EndsOn.bind_of_fails splits_along (fails_readLength hmany) endsOn_readLength hcount
  · obtain ⟨bad, hmem, hbad⟩ : ∃ a ∈ as, ¬ ok a := by
      by_contra hnone
      refine h ⟨by omega, fun a ha => ?_⟩
      by_contra hbad
      exact hnone ⟨a, ha, hbad⟩
    refine EndsOn.bind splits_along (reads_readLength (by omega) (by omega)) endsOn_readLength
      hcount (EndsOn.bind_of_refused ?_)
    have hlen : as.length = (as.map bytes).length := (List.length_map bytes).symm
    rw [hlen]
    refine EndsOn.times_of_refused hnil ?_ ⟨_, List.mem_map_of_mem hmem, hrefused bad hmem hbad⟩
    intro m hm
    obtain ⟨a, ha, rfl⟩ := List.mem_map.mp hm
    by_cases hgood : ok a
    · exact Or.inl ⟨⟨a, (hok a ha hgood).1⟩, (hok a ha hgood).2⟩
    · exact Or.inr (hrefused a ha hgood)

theorem refused_frames {level : Nat} {what child : String} {mk : List Resp3Frame → Resp3Frame}
    {fs : List Resp3Frame}
    (hrefused : ∀ f ∈ fs, ¬ RepresentableAt level f →
      EndsOn (Along (writeFrame f)) (readFrameDepth level) fun o => o.isSome → False)
    (h : ¬ (fs.length ≤ maxCollectionSize ∧ ∀ f ∈ fs, RepresentableAt level f)) :
    EndsOn (Along (utf8 fs.length.repr ++ crlf ++ writeFrames fs))
      (do
        let count ← readLength what maxCollectionSize
        return mk (← times (readChild (readFrameDepth level) child) count)) fun _ => False := by
  rw [writeFrames_eq]
  refine refused_counted (endsOn_readChild_nil level child) (fun f _ hrep => ⟨?_, ?_⟩)
    (fun f hf hbad => endsOn_readChild (hrefused f hf hbad)) h
  · exact reads_readChild_of_representable child hrep
  · exact (endsOn_readChild (endsOn_writeFrame f hrep)).mono (fun q hq => hq) fun _ _ => trivial

theorem refused_readPair {level : Nat} {k v : Resp3Frame}
    (hk : ¬ RepresentableAt level k →
      EndsOn (Along (writeFrame k)) (readFrameDepth level) fun o => o.isSome → False)
    (hv : ¬ RepresentableAt level v →
      EndsOn (Along (writeFrame v)) (readFrameDepth level) fun o => o.isSome → False)
    (h : ¬ (RepresentableAt level k ∧ RepresentableAt level v)) :
    EndsOn (Along (writeFrame k ++ writeFrame v)) (readPair (readFrameDepth level))
      fun _ => False := by
  by_cases hkey : RepresentableAt level k
  · have hvalue : ¬ RepresentableAt level v := fun hvalue => h ⟨hkey, hvalue⟩
    refine EndsOn.bind splits_along (reads_readChild_of_representable _ hkey)
      (endsOn_readChild (endsOn_writeFrame k hkey)) (fun f _ => ?_) ?_
    · exact EndsOn.bind_of_refused (endsOn_readChild_nil level _)
    · exact EndsOn.bind_of_refused (endsOn_readChild (hv hvalue))
  · refine EndsOn.bind_of_refused ?_
    exact (endsOn_readChild (hk hkey)).mono (fun q hq => hq.of_append) fun _ hf => hf

/-- No stream that agrees with the encoding of such a frame is read as a frame, wherever it
ends. -/
theorem refused_writeFrame (f : Resp3Frame) {level : Nat} (hs : LineSafe f)
    (h : ¬ RepresentableAt level f) :
    EndsOn (Along (writeFrame f)) (readFrameDepth level) fun o => o.isSome → False := by
  induction f generalizing level with
  | simpleString s =>
    rw [writeFrame, List.cons_append]
    refine refused_readFrameDepth fun hl => absurd ?_ h
    exact (representableAt_leaf (by rw [elements])).mpr ⟨hl, hs s (by simp [lineTexts])⟩
  | simpleError s =>
    rw [writeFrame, List.cons_append]
    refine refused_readFrameDepth fun hl => absurd ?_ h
    exact (representableAt_leaf (by rw [elements])).mpr ⟨hl, hs s (by simp [lineTexts])⟩
  | integer n =>
    rw [writeFrame, List.cons_append]
    refine refused_readFrameDepth fun hl => absurd ?_ h
    exact (representableAt_leaf (by rw [elements])).mpr ⟨hl, trivial⟩
  | bulkString data =>
    simp only [writeFrame, header, List.cons_append]
    refine refused_readFrameDepth fun hl => ?_
    rw [List.append_assoc]
    have hlarge : maxBulkSize < data.length := by
      by_contra hle
      exact h ((representableAt_leaf (by rw [elements])).mpr ⟨hl, Nat.not_lt.mp hle⟩)
    refine EndsOn.bind_of_fails splits_along (fails_readLength hlarge) endsOn_readLength ?_
    intro n _
    exact EndsOn.bind_last (P := fun _ => True) (EndsOn.exactly_nil.mono (fun q hq => hq)
      fun _ _ => trivial) fun _ _ => EndsOn.bind_of_refused (endsOn_expectCrlf_nil _)
  | array fs ih =>
    simp only [writeFrame, header, List.cons_append]
    refine refused_readFrameDepth fun hl => refused_frames ?_ ?_
    · exact fun f hf hbad => ih f hf (lineSafe_array.mp hs f hf) hbad
    · exact fun hrep => h (representableAt_array.mpr ⟨hl, hrep⟩)
  | map ps ih =>
    simp only [writeFrame, header, List.cons_append]
    rw [writePairs_eq]
    refine refused_readFrameDepth fun hl => refused_counted (endsOn_readPair_nil _)
      (fun p _ hrep => ⟨reads_readPair hrep.1 hrep.2, ?_⟩) (fun p hp hbad => ?_)
      fun hrep => h (representableAt_map.mpr ⟨hl, hrep⟩)
    · exact (endsOn_readPair hrep.1 (endsOn_writeFrame p.1 hrep.1)
        (endsOn_writeFrame p.2 hrep.2)).mono (fun q hq => hq) fun _ _ => trivial
    · obtain ⟨hkey, hvalue⟩ := lineSafe_map.mp hs p hp
      exact refused_readPair (fun h => (ih p hp).1 hkey h) (fun h => (ih p hp).2 hvalue h) hbad
  | push fs ih =>
    simp only [writeFrame, header, List.cons_append]
    refine refused_readFrameDepth fun hl => refused_frames ?_ ?_
    · exact fun f hf hbad => ih f hf (lineSafe_push.mp hs f hf) hbad
    · exact fun hrep => h (representableAt_push.mpr ⟨hl, hrep⟩)
  | null =>
    refine refused_readFrameDepth fun hl => absurd ?_ h
    exact (representableAt_leaf (by rw [elements])).mpr ⟨hl, trivial⟩

/-! ## Frames that end in a line -/

theorem early_readFrameDepth {depth : Nat} {typeByte : UInt8} {body : Bytes} {f : Resp3Frame}
    (h : depth ≤ maxDepth)
    (hp : Early (readPayload (readFrameDepth (depth + 1)) typeByte) body f) :
    Early (readFrameDepth depth) (typeByte :: body) (some f) := by
  obtain ⟨q, ⟨x, hx, hq⟩, hdone⟩ := hp.bind_last (f := fun f => pure (some f)) rfl
  refine ⟨typeByte :: q, ⟨x, hx, by rw [List.cons_append, hq]⟩, ?_⟩
  rw [readFrameDepth_cons h]
  exact hdone

theorem early_counted {α : Type} {r : Reader ProtocolError α} {mk : List α → Resp3Frame}
    {what : String} {bytes : α → Bytes} {as : List α} (hreads : ∀ a ∈ as, Reads r (bytes a) a)
    (hearly : ∀ a, as.getLast? = some a → Early r (bytes a) a)
    (hcount : as.length ≤ maxCollectionSize) :
    Early (do
        let count ← readLength what maxCollectionSize
        return mk (← times r count))
      (utf8 as.length.repr ++ crlf ++ (as.map bytes).flatten) (mk as) := by
  have hw := maxCollectionSize_lt
  rcases List.eq_nil_or_concat as with rfl | ⟨init, last, rfl⟩
  · rw [List.map_nil, List.flatten_nil, List.append_nil]
    exact (early_readLength (Nat.zero_le _) (by decide)).bind_last rfl
  · simp only [List.concat_eq_append] at hreads hearly hcount ⊢
    have hinit : List.Forall₂ (Reads r) (init.map bytes) init := by
      rw [List.forall₂_map_left_iff, List.forall₂_same]
      exact fun a ha => hreads a (List.mem_append_left _ ha)
    refine Early.bind (reads_readLength hcount (by omega)) ?_
    rw [List.map_append, List.flatten_append, List.length_append, List.map_singleton,
      List.flatten_singleton, ← hinit.length_eq]
    exact (Early.times hinit (hearly last List.getLast?_concat)).bind_last rfl

theorem early_readChild {inner : Reader ProtocolError (Option Resp3Frame)} {what : String}
    {bs : Bytes} {f : Resp3Frame} (h : Early inner bs (some f)) :
    Early (readChild inner what) bs f :=
  h.bind_last rfl

/-- Such a frame is already read from a stream that lacks the end of its last line. -/
theorem early_writeFrame (f : Resp3Frame) {level : Nat} (h : RepresentableAt level f)
    (hline : endsInLine f = true) : Early (readFrameDepth level) (writeFrame f) (some f) := by
  have hl := h.level_le
  induction f generalizing level with
  | simpleString s =>
    have hs : '\n' ∉ s.toList := (h (level, .simpleString s) (by simp [elements])).2
    rw [writeFrame, List.cons_append]
    exact early_readFrameDepth hl ((early_readLine hs).bind_last rfl)
  | simpleError s =>
    have hs : '\n' ∉ s.toList := (h (level, .simpleError s) (by simp [elements])).2
    rw [writeFrame, List.cons_append]
    exact early_readFrameDepth hl ((early_readLine hs).bind_last rfl)
  | integer n =>
    rw [writeFrame, List.cons_append]
    refine early_readFrameDepth hl ((early_readLine (lf_not_mem_printInt64 n)).bind_last ?_)
    simp only [parseInt64_print]
    rfl
  | bulkString data => cases hline
  | array fs ih =>
    obtain ⟨_, hc, hf⟩ := representableAt_array.mp h
    simp only [writeFrame, header, List.cons_append, writeFrames_eq]
    refine early_readFrameDepth hl (early_counted
      (fun f hm => reads_readChild_of_representable _ (hf f hm)) (fun f hlast => ?_) hc)
    have hm := List.mem_of_getLast? hlast
    exact early_readChild
      (ih f hm (hf f hm) (endsInLineAll_iff.mp hline f hlast) (hf f hm).level_le)
  | map ps ih =>
    obtain ⟨_, hc, hp⟩ := representableAt_map.mp h
    simp only [writeFrame, header, List.cons_append, writePairs_eq]
    refine early_readFrameDepth hl (early_counted
      (fun p hm => reads_readPair (hp p hm).1 (hp p hm).2) (fun p hlast => ?_) hc)
    have hm := List.mem_of_getLast? hlast
    obtain ⟨hkey, hvalue⟩ := hp p hm
    have hearly := (ih p hm).2 hvalue (endsInLinePairs_iff.mp hline p hlast) hvalue.level_le
    exact Early.bind (reads_readChild_of_representable _ hkey)
      ((early_readChild hearly).bind_last rfl)
  | push fs ih =>
    obtain ⟨_, hc, hf⟩ := representableAt_push.mp h
    simp only [writeFrame, header, List.cons_append, writeFrames_eq]
    refine early_readFrameDepth hl (early_counted
      (fun f hm => reads_readChild_of_representable _ (hf f hm)) (fun f hlast => ?_) hc)
    have hm := List.mem_of_getLast? hlast
    exact early_readChild
      (ih f hm (hf f hm) (endsInLineAll_iff.mp hline f hlast) (hf f hm).level_le)
  | null => cases hline

/-- No stream that ends within the encoding of `f` is read as a frame. -/
def NeverShort (f : Resp3Frame) : Prop :=
  ∀ p x, x ≠ [] → p ++ x = writeFrame f → ∀ g rest, readFrame true p ≠ .done (some g) rest

/-- A request that is cut short is never read as a frame exactly when it does not end in a line,
or is not read when complete. -/
theorem neverShort_iff {f : Resp3Frame} (hsafe : LineSafe f) :
    NeverShort f ↔ ¬ Representable f ∨ endsInLine f = false := by
  constructor
  · intro h
    by_cases hrep : Representable f
    · right
      by_contra hline
      obtain ⟨q, ⟨x, hx, hq⟩, hdone⟩ := early_writeFrame f hrep (by simpa using hline)
      exact h q x hx hq f [] hdone
    · exact Or.inl hrep
  · rintro h p x hx hp g rest hdone
    by_cases hrep : Representable f
    · have hline := (endsOn_writeFrame f hrep p ⟨x, hx, hp⟩ _ _ hdone).2 rfl
      rw [h.resolve_left (fun hn => hn hrep)] at hline
      cases hline
    · refine (refused_writeFrame f hsafe hrep p ⟨x, [], ?_⟩ _ _ hdone).2 rfl
      rw [hp, List.append_nil]

/-- `DELETE a key10` with the key as a simple string. -/
def deleteRequest : Resp3Frame :=
  .array [.bulkString (utf8 "DELETE"), .bulkString (utf8 "a"), .simpleString "key10"]

/-- The same request with the key as a bulk string is never read short. -/
theorem neverShort_delete_bulk :
    NeverShort (.array
      [.bulkString (utf8 "DELETE"), .bulkString (utf8 "a"), .bulkString (utf8 "key10")]) :=
  (neverShort_iff (by simp [LineSafe, lineTexts, lineTextsAll])).mpr (Or.inr rfl)

/-- Cut in the key, the request is read as the deletion of another key. -/
theorem deleteRequest_cut :
    parseCommand (C := Memory.crates) deleteRequest = .ok (.delete "a" (utf8 "key10")) ∧
      writeFrame deleteRequest = utf8 "*3\r\n$6\r\nDELETE\r\n$1\r\na\r\n+key1" ++ utf8 "0\r\n" ∧
      readFrame true (utf8 "*3\r\n$6\r\nDELETE\r\n$1\r\na\r\n+key1") =
        .done (some (.array
          [.bulkString (utf8 "DELETE"), .bulkString (utf8 "a"), .simpleString "key1"])) [] ∧
      parseCommand (C := Memory.crates) (.array
          [.bulkString (utf8 "DELETE"), .bulkString (utf8 "a"), .simpleString "key1"]) =
        .ok (.delete "a" (utf8 "key1")) ∧
      ¬ NeverShort deleteRequest := by
  have hcut : readFrame true (utf8 "*3\r\n$6\r\nDELETE\r\n$1\r\na\r\n+key1") =
      .done (some (.array
        [.bulkString (utf8 "DELETE"), .bulkString (utf8 "a"), .simpleString "key1"])) [] := rfl
  refine ⟨rfl, by decide, hcut, rfl, fun h => ?_⟩
  exact h _ (utf8 "0\r\n") (by decide) (by decide) _ _ hcut

end Resp3Frame

end Shroudb
