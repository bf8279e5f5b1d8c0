import Shroudb.Wire.Decode
import Shroudb.Resp3.Reader

/-! Which frames survive `write_frame` followed by `read_frame`. -/
namespace Shroudb
open Wire

namespace Resp3Frame

mutual
/-- A frame and everything nested in it, each with its nesting level. -/
def elements (level : Nat) : Resp3Frame → List (Nat × Resp3Frame)
  | .simpleString s => [(level, .simpleString s)]
  | .simpleError s => [(level, .simpleError s)]
  | .integer n => [(level, .integer n)]
  | .bulkString data => [(level, .bulkString data)]
  | .array frames => (level, .array frames) :: elementsAll (level + 1) frames
  | .map pairs => (level, .map pairs) :: elementsPairs (level + 1) pairs
  | .push frames => (level, .push frames) :: elementsAll (level + 1) frames
  | .null => [(level, .null)]
def elementsAll (level : Nat) : List Resp3Frame → List (Nat × Resp3Frame)
  | [] => []
  | f :: fs => elements level f ++ elementsAll level fs
def elementsPairs (level : Nat) : List (Resp3Frame × Resp3Frame) → List (Nat × Resp3Frame)
  | [] => []
  | (k, v) :: ps => elements level k ++ elements level v ++ elementsPairs level ps
end

/-- The limits on one element, whatever is nested in it. -/
def Admissible : Resp3Frame → Prop
  | .simpleString s => '\n' ∉ s.toList
  | .simpleError s => '\n' ∉ s.toList
  | .bulkString data => data.length ≤ maxBulkSize
  | .array frames => frames.length ≤ maxCollectionSize
  | .map pairs => pairs.length ≤ maxCollectionSize
  | .push frames => frames.length ≤ maxCollectionSize
  | .integer _ => True
  | .null => True

instance : DecidablePred Admissible := fun f =>
  match f with
  | .simpleString s => inferInstanceAs (Decidable ('\n' ∉ s.toList))
  | .simpleError s => inferInstanceAs (Decidable ('\n' ∉ s.toList))
  | .bulkString data => inferInstanceAs (Decidable (data.length ≤ maxBulkSize))
  | .array frames => inferInstanceAs (Decidable (frames.length ≤ maxCollectionSize))
  | .map pairs => inferInstanceAs (Decidable (pairs.length ≤ maxCollectionSize))
  | .push frames => inferInstanceAs (Decidable (frames.length ≤ maxCollectionSize))
  | .integer _ => .isTrue trivial
  | .null => .isTrue trivial

def RepresentableAt (level : Nat) (f : Resp3Frame) : Prop :=
  ∀ e ∈ elements level f, e.1 ≤ maxDepth ∧ Admissible e.2

/-- The outermost frame is at level 0. -/
def Representable (f : Resp3Frame) : Prop := RepresentableAt 0 f

instance : DecidablePred Representable := fun f =>
  inferInstanceAs (Decidable (∀ e ∈ elements 0 f, e.1 ≤ maxDepth ∧ Admissible e.2))

theorem elementsAll_eq (level : Nat) (fs : List Resp3Frame) :
    elementsAll level fs = fs.flatMap (elements level) := by
  induction fs with
  | nil => rfl
  | cons f fs ih => simp [elementsAll, ih]

theorem elementsPairs_eq (level : Nat) (ps : List (Resp3Frame × Resp3Frame)) :
    elementsPairs level ps = ps.flatMap fun p => elements level p.1 ++ elements level p.2 := by
  induction ps with
  | nil => rfl
  | cons p ps ih => simp [elementsPairs, ih]

/-- Frames that have nothing nested in them. -/
theorem representableAt_leaf {level : Nat} {f : Resp3Frame}
    (helements : elements level f = [(level, f)]) :
    RepresentableAt level f ↔ level ≤ maxDepth ∧ Admissible f := by
  simp only [RepresentableAt, helements, List.mem_singleton, forall_eq]

/-- Arrays and pushes: a frame with `fs` as its children. -/
theorem representableAt_frames {level : Nat} {f : Resp3Frame} {fs : List Resp3Frame}
    (helements : elements level f = (level, f) :: elementsAll (level + 1) fs) :
    RepresentableAt level f ↔
      level ≤ maxDepth ∧ Admissible f ∧ ∀ f ∈ fs, RepresentableAt (level + 1) f := by
  simp only [RepresentableAt, helements, elementsAll_eq, List.mem_cons, List.mem_flatMap]
  constructor
  · intro h
    exact ⟨(h _ (Or.inl rfl)).1, (h _ (Or.inl rfl)).2, fun f hf e he => h e (Or.inr ⟨f, hf, he⟩)⟩
  · rintro ⟨hl, hc, hf⟩ e (rfl | ⟨f, hm, he⟩)
    · exact ⟨hl, hc⟩
    · exact hf f hm e he

theorem representableAt_array {level : Nat} {fs : List Resp3Frame} :
    RepresentableAt level (.array fs) ↔
      level ≤ maxDepth ∧ fs.length ≤ maxCollectionSize ∧ ∀ f ∈ fs, RepresentableAt (level + 1) f :=
  representableAt_frames (by rw [elements])

theorem representableAt_push {level : Nat} {fs : List Resp3Frame} :
    RepresentableAt level (.push fs) ↔
      level ≤ maxDepth ∧ fs.length ≤ maxCollectionSize ∧ ∀ f ∈ fs, RepresentableAt (level + 1) f :=
  representableAt_frames (by rw [elements])

theorem representableAt_map {level : Nat} {ps : List (Resp3Frame × Resp3Frame)} :
    RepresentableAt level (.map ps) ↔
      level ≤ maxDepth ∧ ps.length ≤ maxCollectionSize ∧
        ∀ p ∈ ps, RepresentableAt (level + 1) p.1 ∧ RepresentableAt (level + 1) p.2 := by
  simp only [RepresentableAt, elements, elementsPairs_eq, List.mem_cons, List.mem_flatMap,
    List.mem_append]
  constructor
  · intro h
    exact ⟨(h _ (Or.inl rfl)).1, (h _ (Or.inl rfl)).2, fun p hp =>
      ⟨fun e he => h e (Or.inr ⟨p, hp, Or.inl he⟩), fun e he => h e (Or.inr ⟨p, hp, Or.inr he⟩)⟩⟩
  · rintro ⟨hl, hc, hp⟩ e (rfl | ⟨p, hm, he | he⟩)
    · exact ⟨hl, hc⟩
    · exact (hp p hm).1 e he
    · exact (hp p hm).2 e he

/-- Every element sits at or below the level its frame starts from. -/
theorem RepresentableAt.level_le {level : Nat} {f : Resp3Frame} (h : RepresentableAt level f) :
    level ≤ maxDepth := by
  have hm : (level, f) ∈ elements level f := by cases f <;> simp [elements]
  exact (h _ hm).1

/-! ## Reading back what was written -/

theorem chomp_crlf (s : String) : chomp (s ++ "\r" ++ "\n") = s := by
  have hr : (s ++ "\r" ++ "\n").toList.reverse = '\n' :: '\r' :: s.toList.reverse := by simp
  rw [chomp, hr]
  simp

theorem chomp_of_not_mem {s : String} (h : '\n' ∉ s.toList) : chomp s = s := by
  have hr : '\n' ∉ s.toList.reverse := by simpa using h
  rw [chomp]
  split
  · simp_all
  · simp_all
  · rfl

theorem reads_readLine {s : String} (h : '\n' ∉ s.toList) :
    Reader.Reads readLine (utf8 s ++ crlf) s := by
  have hb : utf8 s ++ crlf = utf8 (s ++ "\r" ++ "\n") ++ [] := by
    have hr : utf8 "\r" = [13] := by decide
    have hn : utf8 "\n" = [10] := by decide
    simp [hr, hn, crlf]
  rw [hb]
  refine (Reader.reads_line (by simpa using h)).bind ?_
  rw [chomp_crlf]
  exact Reader.reads_pure s

theorem reads_readLength {what : String} {limit n : Nat} (h : n ≤ limit) (hw : n < 2 ^ 64) :
    Reader.Reads (readLength what limit) (utf8 n.repr ++ crlf) n := by
  refine (reads_readLine (lf_not_mem_repr n)).bind_last ?_
  have hn : ¬ n > limit := by omega
  simp only [parseUnsigned_repr (show n ≤ 2 ^ 64 - 1 by omega), hn, if_false]
  exact Reader.reads_pure n

theorem fails_readLength {what : String} {limit n : Nat} (h : limit < n) :
    Reader.Fails (readLength what limit) (utf8 n.repr ++ crlf) := by
  have hline := reads_readLine (lf_not_mem_repr n)
  rw [← List.append_nil (utf8 n.repr ++ crlf)]
  refine hline.bind_fails ?_
  cases hparse : parseUnsigned (2 ^ 64 - 1) n.repr with
  | error e => exact Reader.fails_fail _
  | ok m =>
    obtain rfl := eq_of_parseUnsigned_repr hparse
    simp only [if_pos h]
    exact Reader.fails_fail _

theorem reads_readExact (data : Bytes) {n : Nat} (h : data.length = n) :
    Reader.Reads (readExact n) data data :=
  Reader.reads_exactly h

theorem reads_expectCrlf (what : String) : Reader.Reads (expectCrlf what) crlf () := by
  rw [expectCrlf]
  refine (reads_readExact crlf (by rfl)).bind_last ?_
  rw [if_pos rfl]
  exact Reader.reads_pure ()

theorem readFrameDepth_eq {depth : Nat} (h : depth ≤ maxDepth) :
    readFrameDepth depth = (do
      if ← Reader.atEnd then return none
      else do
        let typeByte ← readExact 1
        return some (← readPayload (readFrameDepth (depth + 1)) (typeByte.headD 0))) := by
  have hl : maxDepth + 1 - depth = (maxDepth + 1 - (depth + 1)) + 1 := by omega
  rw [readFrameDepth, hl, readFrameAt]
  rfl

theorem reads_readFrameDepth {depth : Nat} {typeByte : UInt8} {body : Bytes} {f : Resp3Frame}
    (h : depth ≤ maxDepth)
    (hp : Reader.Reads (readPayload (readFrameDepth (depth + 1)) typeByte) body f) :
    Reader.Reads (readFrameDepth depth) (typeByte :: body) (some f) := by
  rw [readFrameDepth_eq h]
  apply Reader.reads_atEnd_cons
  simp only [Bool.false_eq_true, if_false]
  change Reader.Reads _ ([typeByte] ++ body) (some f)
  refine (reads_readExact [typeByte] (by rfl)).bind ?_
  exact hp.bind_last (Reader.reads_pure _)

theorem reads_readChild {inner : Reader ProtocolError (Option Resp3Frame)} {what : String}
    {f : Resp3Frame} (h : Reader.Reads inner (writeFrame f) (some f)) :
    Reader.Reads (readChild inner what) (writeFrame f) f :=
  h.bind_last (Reader.reads_pure f)

theorem reads_children {inner : Reader ProtocolError (Option Resp3Frame)} {what : String}
    {fs : List Resp3Frame} (h : ∀ f ∈ fs, Reader.Reads inner (writeFrame f) (some f)) :
    Reader.Reads (Reader.times (readChild inner what) fs.length) (writeFrames fs) fs := by
  rw [writeFrames_eq]
  apply Reader.reads_times
  rw [List.forall₂_map_left_iff, List.forall₂_same]
  exact fun f hf => reads_readChild (h f hf)

theorem reads_pairs {inner : Reader ProtocolError (Option Resp3Frame)}
    {ps : List (Resp3Frame × Resp3Frame)}
    (h : ∀ p ∈ ps, Reader.Reads inner (writeFrame p.1) (some p.1) ∧
      Reader.Reads inner (writeFrame p.2) (some p.2)) :
    Reader.Reads (Reader.times (readPair inner) ps.length) (writePairs ps) ps := by
  rw [writePairs_eq]
  apply Reader.reads_times
  rw [List.forall₂_map_left_iff, List.forall₂_same]
  intro p hp
  obtain ⟨hkey, hvalue⟩ := h p hp
  exact (reads_readChild hkey).bind ((reads_readChild hvalue).bind_last (Reader.reads_pure p))

theorem maxCollectionSize_lt : maxCollectionSize < 2 ^ 64 := by decide

theorem maxBulkSize_lt : maxBulkSize < 2 ^ 64 := by decide

/-- What follows the type byte of an array or a push. -/
theorem reads_frames {inner : Reader ProtocolError (Option Resp3Frame)} {what child : String}
    {fs : List Resp3Frame} (mk : List Resp3Frame → Resp3Frame)
    (hcount : fs.length ≤ maxCollectionSize)
    (h : ∀ f ∈ fs, Reader.Reads inner (writeFrame f) (some f)) :
    Reader.Reads (do
        let count ← readLength what maxCollectionSize
        return mk (← Reader.times (readChild inner child) count))
      (utf8 fs.length.repr ++ crlf ++ writeFrames fs) (mk fs) := by
  have hw := maxCollectionSize_lt
  refine (reads_readLength hcount (by omega)).bind ?_
  exact (reads_children h).bind_last (Reader.reads_pure _)

/-- A frame within the limits is read back from its own encoding, before any continuation. -/
theorem reads_writeFrame (f : Resp3Frame) {level : Nat} (h : RepresentableAt level f) :
    Reader.Reads (readFrameDepth level) (writeFrame f) (some f) := by
  have hl := h.level_le
  induction f generalizing level with
  | simpleString s =>
    have hs : '\n' ∉ s.toList := (h (level, .simpleString s) (by simp [elements])).2
    simp only [writeFrame, List.cons_append]
    refine reads_readFrameDepth hl ?_
    exact (reads_readLine hs).bind_last (Reader.reads_pure _)
  | simpleError s =>
    have hs : '\n' ∉ s.toList := (h (level, .simpleError s) (by simp [elements])).2
    simp only [writeFrame, List.cons_append]
    refine reads_readFrameDepth hl ?_
    exact (reads_readLine hs).bind_last (Reader.reads_pure _)
  | integer n =>
    simp only [writeFrame, List.cons_append]
    refine reads_readFrameDepth hl ?_
    refine (reads_readLine (lf_not_mem_printInt64 n)).bind_last ?_
    simp only [parseInt64_print]
    exact Reader.reads_pure _
  | bulkString data =>
    have hd : data.length ≤ maxBulkSize := (h (level, .bulkString data) (by simp [elements])).2
    have hw := maxBulkSize_lt
    simp only [writeFrame, header, List.cons_append]
    refine reads_readFrameDepth hl ?_
    rw [List.append_assoc]
    refine (reads_readLength hd (by omega)).bind ?_
    refine (reads_readExact data rfl).bind ?_
    exact (reads_expectCrlf _).bind_last (Reader.reads_pure _)
  | array fs ih =>
    obtain ⟨_, hc, hf⟩ := representableAt_array.mp h
    simp only [writeFrame, header, List.cons_append]
    refine reads_readFrameDepth hl (reads_frames .array hc ?_)
    exact fun f hm => ih f hm (hf f hm) (hf f hm).level_le
  | map ps ih =>
    obtain ⟨_, hc, hp⟩ := representableAt_map.mp h
    have hw := maxCollectionSize_lt
    simp only [writeFrame, header, List.cons_append]
    refine reads_readFrameDepth hl ?_
    refine (reads_readLength hc (by omega)).bind ?_
    refine (reads_pairs ?_).bind_last (Reader.reads_pure _)
    exact fun p hm => ⟨(ih p hm).1 (hp p hm).1 (hp p hm).1.level_le,
      (ih p hm).2 (hp p hm).2 (hp p hm).2.level_le⟩
  | push fs ih =>
    obtain ⟨_, hc, hf⟩ := representableAt_push.mp h
    simp only [writeFrame, header, List.cons_append]
    refine reads_readFrameDepth hl (reads_frames .push hc ?_)
    exact fun f hm => ih f hm (hf f hm) (hf f hm).level_le
  | null =>
    refine reads_readFrameDepth hl ?_
    exact (reads_expectCrlf _).bind_last (Reader.reads_pure _)

/-! ## Whatever is read is within the limits -/

variable {ended : Bool} {bs rest : Bytes}

theorem lf_not_mem_chomp {s : String}
    (h : '\n' ∉ s.toList ∨ ∃ body, '\n' ∉ body ∧ s.toList = body ++ ['\n']) :
    '\n' ∉ (chomp s).toList := by
  rcases h with h | ⟨body, hb, hs⟩
  · have hr : '\n' ∉ s.toList.reverse := by simpa using h
    rw [chomp]
    split
    · simp_all
    · simp_all
    · exact h
  · have hr : '\n' ∉ body.reverse := by simpa using hb
    rw [chomp, hs, List.reverse_append]
    cases hb' : body.reverse with
    | nil => simp
    | cons c cs =>
      rw [hb'] at hr
      have hcs : '\n' ∉ cs := fun hm => hr (List.mem_cons_of_mem _ hm)
      by_cases hc : c = '\r'
      · subst hc
        simpa using hcs
      · simpa [hc, and_comm] using hr

theorem readLine_eq_done {s : String} (h : readLine ended bs = .done s rest) :
    '\n' ∉ s.toList := by
  obtain ⟨l, mid, hl, h⟩ := Reader.bind_eq_done.mp h
  cases h
  exact lf_not_mem_chomp (Reader.line_eq_done hl)

theorem readLength_eq_done {what : String} {limit n : Nat}
    (h : readLength what limit ended bs = .done n rest) : n ≤ limit := by
  obtain ⟨l, mid, -, h⟩ := Reader.bind_eq_done.mp h
  cases hp : parseUnsigned (2 ^ 64 - 1) l with
  | error e =>
    simp only [hp] at h
    cases h
  | ok m =>
    simp only [hp] at h
    by_cases hn : m > limit
    · simp [hn] at h
    · simp only [hn, if_false, Reader.pure_apply, Poll.done.injEq] at h
      omega

theorem readChild_eq_done {inner : Reader ProtocolError (Option Resp3Frame)} {what : String}
    {f : Resp3Frame} (h : readChild inner what ended bs = .done f rest) :
    inner ended bs = .done (some f) rest := by
  obtain ⟨o, mid, ho, h⟩ := Reader.bind_eq_done.mp h
  cases o with
  | none => cases h
  | some g =>
    cases h
    exact ho

/-- The frames `inner` returns are within the limits when they sit at `level`. -/
def ReturnsAt (level : Nat) (inner : Reader ProtocolError (Option Resp3Frame)) : Prop :=
  ∀ ended bs f rest, inner ended bs = .done (some f) rest → RepresentableAt level f

variable {inner : Reader ProtocolError (Option Resp3Frame)} {level : Nat}

theorem ReturnsAt.children {what : String} {n : Nat} {fs : List Resp3Frame}
    (hi : ReturnsAt level inner)
    (h : Reader.times (readChild inner what) n ended bs = .done fs rest) :
    fs.length = n ∧ ∀ f ∈ fs, RepresentableAt level f := by
  obtain ⟨hl, hr⟩ := Reader.times_eq_done h
  refine ⟨hl, fun f hf => ?_⟩
  obtain ⟨bs', rest', hread⟩ := hr f hf
  exact hi _ _ _ _ (readChild_eq_done hread)

theorem ReturnsAt.pairs {n : Nat} {ps : List (Resp3Frame × Resp3Frame)}
    (hi : ReturnsAt level inner) (h : Reader.times (readPair inner) n ended bs = .done ps rest) :
    ps.length = n ∧ ∀ p ∈ ps, RepresentableAt level p.1 ∧ RepresentableAt level p.2 := by
  obtain ⟨hl, hr⟩ := Reader.times_eq_done h
  refine ⟨hl, fun p hp => ?_⟩
  obtain ⟨bs', rest', hread⟩ := hr p hp
  obtain ⟨k, mid, hk, hread⟩ := Reader.bind_eq_done.mp hread
  obtain ⟨v, mid', hv, hread⟩ := Reader.bind_eq_done.mp hread
  cases hread
  exact ⟨hi _ _ _ _ (readChild_eq_done hk), hi _ _ _ _ (readChild_eq_done hv)⟩

theorem ReturnsAt.payload {typeByte : UInt8} {f : Resp3Frame} (hi : ReturnsAt (level + 1) inner)
    (hl : level ≤ maxDepth) (h : readPayload inner typeByte ended bs = .done f rest) :
    RepresentableAt level f := by
  rw [readPayload] at h
  split_ifs at h
  case pos =>
    obtain ⟨s, mid, hs, h⟩ := Reader.bind_eq_done.mp h
    cases h
    exact (representableAt_leaf (by rw [elements])).mpr ⟨hl, readLine_eq_done hs⟩
  case pos =>
    obtain ⟨s, mid, hs, h⟩ := Reader.bind_eq_done.mp h
    cases h
    exact (representableAt_leaf (by rw [elements])).mpr ⟨hl, readLine_eq_done hs⟩
  case pos =>
    obtain ⟨s, mid, hs, h⟩ := Reader.bind_eq_done.mp h
    cases hp : parseInt64 s with
    | error e =>
      simp only [hp] at h
      cases h
    | ok n =>
      simp only [hp] at h
      cases h
      exact (representableAt_leaf (by rw [elements])).mpr ⟨hl, trivial⟩
  case pos =>
    obtain ⟨n, mid, hn, h⟩ := Reader.bind_eq_done.mp h
    obtain ⟨data, mid', hd, h⟩ := Reader.bind_eq_done.mp h
    obtain ⟨_, mid'', _, h⟩ := Reader.bind_eq_done.mp h
    cases h
    have hlen : data.length ≤ maxBulkSize := by
      rw [(Reader.exactly_eq_done hd).1]
      exact readLength_eq_done hn
    exact (representableAt_leaf (by rw [elements])).mpr ⟨hl, hlen⟩
  case pos =>
    obtain ⟨n, mid, hn, h⟩ := Reader.bind_eq_done.mp h
    obtain ⟨fs, mid', hfs, h⟩ := Reader.bind_eq_done.mp h
    cases h
    obtain ⟨hlen, hrep⟩ := hi.children hfs
    exact representableAt_array.mpr ⟨hl, hlen ▸ readLength_eq_done hn, hrep⟩
  case pos =>
    obtain ⟨n, mid, hn, h⟩ := Reader.bind_eq_done.mp h
    obtain ⟨ps, mid', hps, h⟩ := Reader.bind_eq_done.mp h
    cases h
    obtain ⟨hlen, hrep⟩ := hi.pairs hps
    exact representableAt_map.mpr ⟨hl, hlen ▸ readLength_eq_done hn, hrep⟩
  case pos =>
    obtain ⟨n, mid, hn, h⟩ := Reader.bind_eq_done.mp h
    obtain ⟨fs, mid', hfs, h⟩ := Reader.bind_eq_done.mp h
    cases h
    obtain ⟨hlen, hrep⟩ := hi.children hfs
    exact representableAt_push.mpr ⟨hl, hlen ▸ readLength_eq_done hn, hrep⟩
  case pos =>
    obtain ⟨_, mid, _, h⟩ := Reader.bind_eq_done.mp h
    cases h
    exact (representableAt_leaf (by rw [elements])).mpr ⟨hl, trivial⟩
  case neg => cases h

theorem returnsAt_readFrameAt (levels : Nat) {level : Nat} (h : level + levels = maxDepth + 1) :
    ReturnsAt level (readFrameAt levels) := by
  induction levels generalizing level with
  | zero =>
    intro ended bs f rest hr
    cases hr
  | succ levels ih =>
    intro ended bs f rest hr
    obtain ⟨e, mid, he, hr⟩ := Reader.bind_eq_done.mp hr
    cases e with
    | true => cases hr
    | false =>
      obtain ⟨b, mid', hb, hr⟩ := Reader.bind_eq_done.mp hr
      obtain ⟨g, mid'', hg, hr⟩ := Reader.bind_eq_done.mp hr
      cases hr
      exact ReturnsAt.payload (ih (by omega)) (by omega) hg

/-- Every frame `read_frame` accepts, from any bytes, is representable. -/
theorem representable_of_readFrame {f : Resp3Frame} (h : readFrame ended bs = .done (some f) rest) :
    Representable f :=
  returnsAt_readFrameAt (maxDepth + 1) (Nat.zero_add _) _ _ _ _ h

theorem writeFrame_ne_nil (f : Resp3Frame) : writeFrame f ≠ [] := by
  cases f <;> simp [writeFrame, header]

theorem decode_writeFrames {fs : List Resp3Frame} (h : ∀ f ∈ fs, Representable f) :
    Reader.decode readFrame true (writeFrames fs) = (fs, .finished) := by
  rw [writeFrames_eq]
  refine Reader.decode_flatten rfl ?_ ?_
  · rw [List.forall₂_map_left_iff, List.forall₂_same]
    exact fun f hf => reads_writeFrame f (h f hf)
  · simp only [List.mem_map]
    rintro _ ⟨f, -, rfl⟩
    exact writeFrame_ne_nil f

/-- A frame reads back from its encoding exactly when it is representable, and a stream of
representable frames reads back as those frames and then a clean end. -/
theorem readFrame_writeFrame :
    (∀ f ended, (∀ rest, readFrame ended (writeFrame f ++ rest) = .done (some f) rest) ↔
      Representable f) ∧
    ∀ fs, (∀ f ∈ fs, Representable f) →
      Reader.decode readFrame true (writeFrames fs) = (fs, .finished) := by
  refine ⟨fun f ended => ⟨fun h => ?_, fun h => ?_⟩, fun fs => decode_writeFrames⟩
  · exact representable_of_readFrame (h [])
  · exact fun rest => reads_writeFrame f h ended rest

theorem readFrame_writeFrame_map_then_error :
    (∀ f ∈ [.map [(.bulkString (utf8 "version"), .integer (-7))], .simpleError "ERR"],
      Representable f) ∧
    Reader.decode readFrame true
        (writeFrames [.map [(.bulkString (utf8 "version"), .integer (-7))], .simpleError "ERR"]) =
      ([.map [(.bulkString (utf8 "version"), .integer (-7))], .simpleError "ERR"], .finished) :=
  ⟨by decide, readFrame_writeFrame.2 _ (by decide)⟩

end Resp3Frame

end Shroudb
