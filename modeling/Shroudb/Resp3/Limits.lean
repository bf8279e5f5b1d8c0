import Mathlib.Data.List.TakeWhile
import Shroudb.Resp3.RoundTrip
import Shroudb.Wire.Stops

/-! The limits of `read_frame`, and the strings that no limit holds for. -/
namespace Shroudb
open Wire

namespace Resp3Frame

/-- The bytes of a string frame. -/
def payload : Resp3Frame → Bytes
  | .simpleString s => utf8 s
  | .simpleError s => utf8 s
  | .bulkString data => data
  | _ => []

/-- The number of entries of a collection. -/
def entries : Resp3Frame → Nat
  | .array frames => frames.length
  | .map pairs => pairs.length
  | .push frames => frames.length
  | _ => 0

/-- No element lies too deep, has too many entries or is too long a string. -/
def HoldsLimits (f : Resp3Frame) : Prop :=
  ∀ e ∈ elements 0 f, e.1 ≤ maxDepth ∧ e.2.entries ≤ maxCollectionSize ∧
    e.2.payload.length ≤ maxBulkSize

/-- The text that an element itself puts on a line. -/
def ownTexts : Resp3Frame → List String
  | .simpleString s => [s]
  | .simpleError s => [s]
  | _ => []

theorem lineTexts_eq (f : Resp3Frame) (level : Nat) :
    lineTexts f = (elements level f).flatMap fun e => ownTexts e.2 := by
  induction f generalizing level with
  | simpleString s | simpleError s | integer n | bulkString data | null =>
    simp [lineTexts, elements, ownTexts]
  | array fs ih | push fs ih =>
    rw [lineTexts, lineTextsAll_eq, elements, elementsAll_eq, List.flatMap_cons,
      List.flatMap_assoc]
    exact List.flatMap_congr fun f hf => ih f hf (level + 1)
  | map ps ih =>
    rw [lineTexts, lineTextsPairs_eq, elements, elementsPairs_eq, List.flatMap_cons,
      List.flatMap_assoc]
    refine List.flatMap_congr fun p hp => ?_
    rw [List.flatMap_append, ← (ih p hp).1, ← (ih p hp).2]

/-- The limits of the reader, but for the length of a line. -/
theorem holdsLimits_iff {f : Resp3Frame} (h : Representable f) :
    HoldsLimits f ↔ ∀ t ∈ lineTexts f, (utf8 t).length ≤ maxBulkSize := by
  rw [lineTexts_eq f 0]
  simp only [List.mem_flatMap]
  constructor
  · rintro hlimits t ⟨e, he, ht⟩
    obtain ⟨-, -, hpayload⟩ := hlimits e he
    obtain ⟨level, g⟩ := e
    cases g with
    | simpleString s | simpleError s =>
      obtain rfl : t = s := by simpa [ownTexts] using ht
      exact hpayload
    | _ => simp [ownTexts] at ht
  · rintro hlines ⟨level, g⟩ he
    obtain ⟨hlevel, hadmissible⟩ := h _ he
    refine ⟨hlevel, ?_⟩
    cases g with
    | simpleString s | simpleError s =>
      exact ⟨Nat.zero_le _, hlines s ⟨_, he, by simp [ownTexts]⟩⟩
    | bulkString data => exact ⟨Nat.zero_le _, hadmissible⟩
    | array fs | map ps | push fs => exact ⟨hadmissible, Nat.zero_le _⟩
    | integer n | null => exact ⟨Nat.zero_le _, Nat.zero_le _⟩

/-! ## The lines of the input -/

/-- The text of the line at the front: the bytes before its line feed, and before the carriage
return in front of that. -/
def lineText (bs : Bytes) : Bytes :=
  let text := bs.takeWhile (· ≠ 10)
  if (10 : UInt8) ∈ bs ∧ text.getLast? = some 13 then text.dropLast else text

/-- The frames that a collection of `n` entries announces. -/
def children (typeByte : UInt8) (n : Nat) : Nat :=
  if typeByte = 42 ∨ typeByte = 62 then n else if typeByte = 37 then 2 * n else 0

/-- With `levels` left, reading a frame at the first bytes comes to read a frame, nested at any
depth, at the second ones. -/
inductive Starts (ended : Bool) : Nat → Bytes → Bytes → Prop
  | here (levels : Nat) (bs : Bytes) : Starts ended levels bs bs
  | child {levels n k : Nat} {typeByte : UInt8} {after body mid start : Bytes} {line : String}
      (head : readLine ended after = .done line body)
      (count : parseUnsigned (2 ^ 64 - 1) line = .ok n) (within : k < children typeByte n)
      (earlier : Reader.Passes (readFrameAt levels) ended k body mid)
      (nested : Starts ended levels mid start) : Starts ended (levels + 1) (typeByte :: after) start

/-- If a frame starts here with one of these type bytes, the line after it is short enough. -/
def ShortLine (types : List UInt8) (start : Bytes) : Prop :=
  ∀ typeByte after, start = typeByte :: after → typeByte ∈ types →
    (lineText after).length ≤ maxBulkSize

/-- A string that is built in reading a frame: a line, or the data of a bulk string. -/
inductive Held (ended : Bool) (levels : Nat) (bs : Bytes) : Bytes → Prop
  | line {typeByte : UInt8} {after : Bytes} (start : Starts ended levels bs (typeByte :: after))
      (hasLine : typeByte ∈ ([43, 45, 58, 36, 42, 37, 62] : List UInt8)) :
      Held ended levels bs (lineText after)
  | bulk {n : Nat} {after body data rest : Bytes} (start : Starts ended levels bs (36 :: after))
      (length : readLength "bulk" maxBulkSize ended after = .done n body)
      (read : readExact n ended body = .done data rest) : Held ended levels bs data

section
variable {ended : Bool} {bs rest : Bytes} {levels : Nat}

theorem lineText_append {text : Bytes} (h : (10 : UInt8) ∉ text) :
    lineText (text ++ 10 :: rest) =
      if text.getLast? = some 13 then text.dropLast else text := by
  have htake : (text ++ 10 :: rest).takeWhile (· ≠ 10) = text := by
    rw [List.takeWhile_append_of_pos, List.takeWhile_cons_of_neg, List.append_nil]
    · decide
    · intro b hb
      exact decide_eq_true fun heq => h (heq ▸ hb)
  have hmem : (10 : UInt8) ∈ text ++ 10 :: rest := by simp
  simp only [lineText, htake, hmem, true_and]

theorem chomp_concat {body : List Char} (s : String) (hs : s.toList = body ++ ['\n']) :
    chomp s = String.ofList (if body.getLast? = some '\r' then body.dropLast else body) := by
  rw [chomp, hs, List.reverse_append]
  cases hr : body.reverse with
  | nil =>
    obtain rfl : body = [] := List.reverse_eq_nil_iff.mp hr
    rfl
  | cons c cs =>
    obtain rfl : body = cs.reverse ++ [c] := by
      rw [← List.reverse_cons, ← hr, List.reverse_reverse]
    rw [List.getLast?_concat, List.dropLast_concat]
    by_cases hc : c = '\r'
    · subst hc
      rfl
    · have hother : some c ≠ some '\r' := fun h => hc (Option.some.inj h)
      rw [if_neg hother]
      simp [hc, List.reverse_cons]

/-- A text ends in a carriage return exactly when its encoding does. -/
theorem getLast?_flatMap_cr (cs : List Char) :
    (cs.flatMap String.utf8EncodeChar).getLast? = some 13 ↔ cs.getLast? = some '\r' := by
  have hcr : String.utf8EncodeChar '\r' = [13] := by decide
  rcases List.eq_nil_or_concat cs with rfl | ⟨init, c, rfl⟩
  · simp
  · rw [List.concat_eq_append, List.flatMap_append, List.flatMap_singleton, List.getLast?_concat,
      List.getLast?_append_of_ne_nil _ String.utf8EncodeChar_ne_nil, Option.some_inj]
    constructor
    · exact fun h => cr_mem_utf8EncodeChar.mp (List.mem_of_getLast? h)
    · rintro rfl
      rw [hcr]
      rfl

/-- What `read_line` returns is the text of the line. -/
theorem utf8_readLine {line : String} (h : readLine ended bs = .done line rest) :
    utf8 line = lineText bs := by
  obtain ⟨s, mid, hs, h⟩ := Reader.bind_eq_done.mp h
  cases h
  rw [Reader.line] at hs
  split at hs
  case h_1 l rest' hsplit =>
    obtain ⟨text, htext, rfl, rfl⟩ := Reader.splitLine_eq_some hsplit
    split at hs
    case h_2 => cases hs
    case h_1 hdecoded =>
      cases hs
      have hutf8 := utf8_of_fromUtf8? hdecoded
      obtain ⟨body, -, hbody⟩ := lf_last_of_utf8 hutf8 htext
      have hlf : String.utf8EncodeChar '\n' = [10] := by decide
      rw [utf8_eq_flatMap, hbody, List.flatMap_append, List.flatMap_singleton, hlf] at hutf8
      obtain rfl := List.append_cancel_right hutf8
      rw [lineText_append htext, chomp_concat s hbody, utf8_eq_flatMap, String.toList_ofList]
      simp only [getLast?_flatMap_cr]
      split_ifs with hcr
      · obtain ⟨init, rfl⟩ := List.getLast?_eq_some_iff.mp hcr
        simp [show String.utf8EncodeChar '\r' = [13] by decide]
      · rfl
  case h_2 hnone =>
    split_ifs at hs
    split at hs
    case h_2 => cases hs
    case h_1 hdecoded =>
      cases hs
      have hutf8 := utf8_of_fromUtf8? hdecoded
      have hlf := Reader.splitLine_eq_none hnone
      have htake : bs.takeWhile (· ≠ 10) = bs :=
        List.takeWhile_eq_self_iff.mpr fun b hb => decide_eq_true fun heq => hlf (heq ▸ hb)
      have hchomp : chomp s = s := by
        rw [← hutf8, lf_mem_utf8] at hlf
        exact chomp_of_not_mem hlf
      rw [hchomp, hutf8, lineText, htake, if_neg fun h => hlf h.1]

theorem readLength_line {what : String} {limit n : Nat}
    (h : readLength what limit ended bs = .done n rest) :
    ∃ line, readLine ended bs = .done line rest ∧ parseUnsigned (2 ^ 64 - 1) line = .ok n := by
  obtain ⟨line, mid, hline, h⟩ := Reader.bind_eq_done.mp h
  cases hp : parseUnsigned (2 ^ 64 - 1) line with
  | error e =>
    simp only [hp] at h
    cases h
  | ok m =>
    simp only [hp] at h
    split_ifs at h
    · cases h
    · cases h
      exact ⟨line, hline, hp⟩

theorem children_eq_zero {typeByte : UInt8} (h : typeByte ∉ ([42, 62, 37] : List UInt8)) (n : Nat) :
    children typeByte n = 0 := by
  simp only [List.mem_cons, List.not_mem_nil, or_false, not_or] at h
  rw [children, if_neg (by simp [h]), if_neg h.2.2]

/-- Where a frame starts with one line only, nothing starts inside it. -/
theorem starts_plain {typeByte : UInt8} {after : Bytes} (h : ∀ n, children typeByte n = 0)
    {P : Bytes → Prop} :
    (∀ start, Starts ended levels (typeByte :: after) start → P start) ↔ P (typeByte :: after) := by
  refine ⟨fun hall => hall _ (.here _ _), fun hp start hstart => ?_⟩
  cases hstart with
  | here => exact hp
  | child head count within earlier nested =>
    rw [h] at within
    exact absurd within (Nat.not_lt_zero _)

/-- In a collection, the frames start one after the other. -/
theorem starts_collection {typeByte : UInt8} {after body : Bytes} {line : String} {n : Nat}
    (hline : readLine ended after = .done line body)
    (hcount : parseUnsigned (2 ^ 64 - 1) line = .ok n) {P : Bytes → Prop} :
    (∀ start, Starts ended (levels + 1) (typeByte :: after) start → P start) ↔
      P (typeByte :: after) ∧ ∀ k mid, k < children typeByte n →
        Reader.Passes (readFrameAt levels) ended k body mid →
          ∀ start, Starts ended levels mid start → P start := by
  constructor
  · intro hall
    exact ⟨hall _ (.here _ _), fun k mid hk hpasses start hstart =>
      hall _ (.child hline hcount hk hpasses hstart)⟩
  · rintro ⟨hp, hchildren⟩ start hstart
    cases hstart with
    | here => exact hp
    | child head count within earlier nested =>
      cases head.symm.trans hline
      cases count.symm.trans hcount
      exact hchildren _ _ within earlier _ nested

section
variable {inner : Reader ProtocolError (Option Resp3Frame)} {P : Resp3Frame → Prop}
  {Q : Bytes → Prop}

/-- What the frames of a collection satisfy, in terms of where they are read. -/
theorem forall_children_iff {what : String} {n : Nat} {fs : List Resp3Frame}
    (hinner : ∀ bs f rest, inner ended bs = .done (some f) rest → (P f ↔ Q bs))
    (h : Reader.times (readChild inner what) n ended bs = .done fs rest) :
    (∀ f ∈ fs, P f) ↔ ∀ k mid, k < n → Reader.Passes inner ended k bs mid → Q mid := by
  induction n generalizing bs fs with
  | zero =>
    cases h
    simp
  | succ n ih =>
    obtain ⟨f, next, hf, h⟩ := Reader.bind_eq_done.mp h
    obtain ⟨fs', mid', hfs, h⟩ := Reader.bind_eq_done.mp h
    cases h
    have hread := readChild_eq_done hf
    rw [List.forall_mem_cons, hinner _ _ _ hread, ih hfs]
    constructor
    · rintro ⟨hfirst, hrest⟩ k mid hk hpasses
      cases k with
      | zero =>
        obtain rfl := Reader.passes_zero.mp hpasses
        exact hfirst
      | succ k =>
        obtain ⟨a, next', ha, hpasses⟩ := Reader.passes_succ.mp hpasses
        cases ha.symm.trans hread
        exact hrest k mid (Nat.lt_of_succ_lt_succ hk) hpasses
    · intro hall
      exact ⟨hall 0 bs (Nat.succ_pos n) (Reader.passes_zero.mpr rfl), fun k mid hk hpasses =>
        hall (k + 1) mid (Nat.succ_lt_succ hk) (Reader.passes_succ.mpr ⟨_, _, hread, hpasses⟩)⟩

/-- The frames of a map are read as twice as many. -/
theorem times_readPair {n : Nat} {ps : List (Resp3Frame × Resp3Frame)}
    (h : Reader.times (readPair inner) n ended bs = .done ps rest) :
    Reader.times (readChild inner "map") (2 * n) ended bs =
      .done (ps.flatMap fun p => [p.1, p.2]) rest := by
  have hchild : ∀ {bs f rest what}, readChild inner what ended bs = .done f rest →
      readChild inner "map" ended bs = .done f rest := fun hf =>
    Reader.bind_done (readChild_eq_done hf)
  induction n generalizing bs ps with
  | zero =>
    cases h
    rfl
  | succ n ih =>
    obtain ⟨p, mid, hp, h⟩ := Reader.bind_eq_done.mp h
    obtain ⟨ps', mid', hps, h⟩ := Reader.bind_eq_done.mp h
    cases h
    obtain ⟨key, next, hkey, hp⟩ := Reader.bind_eq_done.mp hp
    obtain ⟨value, next', hvalue, hp⟩ := Reader.bind_eq_done.mp hp
    cases hp
    have hrest : Reader.times (readChild inner "map") (2 * n + 1) ended next =
        .done (value :: ps'.flatMap fun p => [p.1, p.2]) rest := by
      rw [Reader.times, Reader.bind_done (hchild hvalue), Reader.bind_done (ih hps),
        Reader.pure_apply]
    rw [Nat.mul_succ, Reader.times, Reader.bind_done (hchild hkey), Reader.bind_done hrest,
      Reader.pure_apply, List.flatMap_cons]
    rfl

end

end

section
variable {ended : Bool} {bs rest : Bytes}

/-- Frames with nothing nested in them, and no text on a line. -/
theorem short_iff_plain {levels : Nat} {typeByte : UInt8} {after : Bytes} {f : Resp3Frame}
    (hchildren : ∀ n, children typeByte n = 0) (htype : typeByte ∉ ([43, 45] : List UInt8))
    (htexts : lineTexts f = []) :
    (∀ t ∈ lineTexts f, (utf8 t).length ≤ maxBulkSize) ↔
      ∀ start, Starts ended levels (typeByte :: after) start → ShortLine [43, 45] start := by
  rw [starts_plain hchildren]
  refine iff_of_true (by simp [htexts]) ?_
  rintro _ _ ⟨⟩ hmem
  exact absurd hmem htype

/-- A frame that is one line of text. -/
theorem short_iff_text {levels : Nat} {typeByte : UInt8} {after : Bytes} {f : Resp3Frame}
    {s : String} (hchildren : ∀ n, children typeByte n = 0)
    (htype : typeByte ∈ ([43, 45] : List UInt8)) (hline : readLine ended after = .done s rest)
    (htexts : lineTexts f = [s]) :
    (∀ t ∈ lineTexts f, (utf8 t).length ≤ maxBulkSize) ↔
      ∀ start, Starts ended levels (typeByte :: after) start → ShortLine [43, 45] start := by
  rw [starts_plain hchildren, htexts]
  simp only [List.mem_singleton, forall_eq, utf8_readLine hline]
  constructor
  · rintro hshort _ _ ⟨⟩ -
    exact hshort
  · exact fun hshort => hshort _ _ rfl htype

/-- A collection whose frames, in order, are `fs`. -/
theorem short_iff_collection {levels n : Nat} {typeByte : UInt8} {after body : Bytes}
    {f : Resp3Frame} {fs : List Resp3Frame} {what what' : String}
    (hinner : ∀ bs f rest, readFrameAt levels ended bs = .done (some f) rest →
      ((∀ t ∈ lineTexts f, (utf8 t).length ≤ maxBulkSize) ↔
        ∀ start, Starts ended levels bs start → ShortLine [43, 45] start))
    (htype : typeByte ∉ ([43, 45] : List UInt8))
    (hcount : readLength what maxCollectionSize ended after = .done n body)
    (hread : Reader.times (readChild (readFrameAt levels) what') (children typeByte n) ended body =
      .done fs rest)
    (htexts : lineTexts f = fs.flatMap lineTexts) :
    (∀ t ∈ lineTexts f, (utf8 t).length ≤ maxBulkSize) ↔
      ∀ start, Starts ended (levels + 1) (typeByte :: after) start → ShortLine [43, 45] start := by
  obtain ⟨line, hline, hparse⟩ := readLength_line hcount
  have hhere : ShortLine [43, 45] (typeByte :: after) := by
    rintro _ _ ⟨⟩ hmem
    exact absurd hmem htype
  rw [starts_collection hline hparse, htexts, and_iff_right hhere,
    ← forall_children_iff hinner hread]
  simp only [List.mem_flatMap]
  exact ⟨fun h f hf t ht => h t ⟨f, hf, ht⟩, fun h t ⟨f, hf, ht⟩ => h f hf t ht⟩

theorem readFrameAt_eq_done {levels : Nat} {f : Resp3Frame}
    (h : readFrameAt (levels + 1) ended bs = .done (some f) rest) :
    ∃ typeByte after, bs = typeByte :: after ∧
      readPayload (readFrameAt levels) typeByte ended after = .done f rest := by
  obtain ⟨e, mid, he, h⟩ := Reader.bind_eq_done.mp h
  cases e with
  | true => cases h
  | false =>
    obtain ⟨b, mid', hb, h⟩ := Reader.bind_eq_done.mp h
    obtain ⟨g, mid'', hg, h⟩ := Reader.bind_eq_done.mp h
    cases h
    cases bs with
    | nil =>
      rw [Reader.atEnd] at he
      split_ifs at he
      cases he
    | cons typeByte after =>
      cases he
      cases hb
      exact ⟨typeByte, after, rfl, hg⟩

/-- The texts of an accepted frame are short exactly when the lines they were read from are. -/
theorem short_iff_starts (levels : Nat) {f : Resp3Frame}
    (h : readFrameAt levels ended bs = .done (some f) rest) :
    (∀ t ∈ lineTexts f, (utf8 t).length ≤ maxBulkSize) ↔
      ∀ start, Starts ended levels bs start → ShortLine [43, 45] start := by
  induction levels generalizing bs f rest with
  | zero => cases h
  | succ levels ih =>
    replace h := readFrameAt_eq_done h
    obtain ⟨typeByte, after, rfl, h⟩ := h
    rw [readPayload] at h
    split_ifs at h with h43 h45 h58 h36 h42 h37 h62 h95
    case pos =>
      obtain ⟨s, mid, hs, h⟩ := Reader.bind_eq_done.mp h
      cases h
      subst h43
      exact short_iff_text (children_eq_zero (by decide)) (by decide) hs (by rw [lineTexts])
    case pos =>
      obtain ⟨s, mid, hs, h⟩ := Reader.bind_eq_done.mp h
      cases h
      subst h45
      exact short_iff_text (children_eq_zero (by decide)) (by decide) hs (by rw [lineTexts])
    case pos =>
      obtain ⟨s, mid, -, h⟩ := Reader.bind_eq_done.mp h
      cases hp : parseInt64 s with
      | error e =>
        simp only [hp] at h
        cases h
      | ok n =>
        simp only [hp] at h
        cases h
        subst h58
        exact short_iff_plain (children_eq_zero (by decide)) (by decide) (by rw [lineTexts])
    case pos =>
      obtain ⟨n, mid, -, h⟩ := Reader.bind_eq_done.mp h
      obtain ⟨data, mid', -, h⟩ := Reader.bind_eq_done.mp h
      obtain ⟨_, mid'', -, h⟩ := Reader.bind_eq_done.mp h
      cases h
      subst h36
      exact short_iff_plain (children_eq_zero (by decide)) (by decide) (by rw [lineTexts])
    case pos =>
      obtain ⟨n, mid, hn, h⟩ := Reader.bind_eq_done.mp h
      obtain ⟨fs, mid', hfs, h⟩ := Reader.bind_eq_done.mp h
      cases h
      subst h42
      exact short_iff_collection (fun _ _ _ => ih) (by decide) hn hfs
        (by rw [lineTexts, lineTextsAll_eq])
    case pos =>
      obtain ⟨n, mid, hn, h⟩ := Reader.bind_eq_done.mp h
      obtain ⟨ps, mid', hps, h⟩ := Reader.bind_eq_done.mp h
      cases h
      subst h37
      refine short_iff_collection (fun _ _ _ => ih) (by decide) hn (times_readPair hps) ?_
      rw [lineTexts, lineTextsPairs_eq, List.flatMap_assoc]
      exact List.flatMap_congr fun p _ => by simp
    case pos =>
      obtain ⟨n, mid, hn, h⟩ := Reader.bind_eq_done.mp h
      obtain ⟨fs, mid', hfs, h⟩ := Reader.bind_eq_done.mp h
      cases h
      subst h62
      exact short_iff_collection (fun _ _ _ => ih) (by decide) hn hfs
        (by rw [lineTexts, lineTextsAll_eq])
    case pos =>
      obtain ⟨_, mid, -, h⟩ := Reader.bind_eq_done.mp h
      cases h
      subst h95
      exact short_iff_plain (children_eq_zero (by decide)) (by decide) (by rw [lineTexts])
    case neg => cases h

/-- Whatever is accepted is within all limits exactly when the lines of its simple strings and
errors are short enough: nothing else in it can be too deep, too many or too long. No larger string
is built in reading it exactly when all of its lines are, those of integers and lengths included. -/
theorem accepted_within_limits_iff {f : Resp3Frame}
    (h : readFrame ended bs = .done (some f) rest) :
    (HoldsLimits f ↔
      ∀ start, Starts ended (maxDepth + 1) bs start → ShortLine [43, 45] start) ∧
    ((∀ s, Held ended (maxDepth + 1) bs s → s.length ≤ maxBulkSize) ↔
      ∀ start, Starts ended (maxDepth + 1) bs start →
        ShortLine [43, 45, 58, 36, 42, 37, 62] start) := by
  constructor
  · rw [holdsLimits_iff (representable_of_readFrame h)]
    exact short_iff_starts (maxDepth + 1) h
  · constructor
    · rintro hheld _ hstart typeByte after rfl htype
      exact hheld _ (.line hstart htype)
    · intro hlines s hheld
      cases hheld with
      | line start hasLine => exact hlines _ start _ _ rfl hasLine
      | bulk start length read =>
        rw [(Reader.exactly_eq_done read).1]
        exact readLength_eq_done length

end

theorem short_line_within_limits :
    readFrame false (utf8 "+OK\r\n") = .done (some (.simpleString "OK")) [] ∧
      HoldsLimits (.simpleString "OK") := by
  have hread : readFrame false (utf8 "+OK\r\n") = .done (some (.simpleString "OK")) [] :=
    reads_writeFrame (.simpleString "OK") (show Representable _ by decide) false []
  refine ⟨hread, (accepted_within_limits_iff hread).1.mpr ?_⟩
  have hbytes : utf8 "+OK\r\n" = 43 :: [79, 75, 13, 10] := by decide
  rw [hbytes, starts_plain fun n => rfl]
  rintro _ _ ⟨⟩ -
  decide

/-- So many letters. -/
def longText (n : Nat) : String := String.ofList (List.replicate n 'a')

theorem utf8_longText (n : Nat) : utf8 (longText n) = List.replicate n 97 :=
  utf8_replicate (by decide) n

/-- So many zeros. -/
def longZero (n : Nat) : String := String.ofList (List.replicate n '0')

theorem accumulate_zeros (limit : Nat) (overflow : IntErrorKind) (n : Nat) :
    accumulate limit overflow (List.replicate n '0') 0 = .ok 0 := by
  have hzero : 0 * 10 + digitValue '0' = 0 := rfl
  induction n with
  | zero => rfl
  | succ n ih =>
    rw [List.replicate_succ, accumulate, hzero, if_pos (by decide), if_pos (Nat.zero_le _), ih]

theorem parseInt64_longZero (n : Nat) : parseInt64 (longZero (n + 1)) = .ok 0 := by
  rw [parseInt64, longZero, String.toList_ofList]
  change (accumulate (2 ^ 63 - 1) .posOverflow (List.replicate (n + 1) '0') 0).map _ = _
  rw [accumulate_zeros]
  rfl

/-- A line with one byte more than a bulk string may have, and a number that is written as long. -/
theorem long_line_accepted :
    (readFrame false (43 :: List.replicate (maxBulkSize + 1) 97 ++ crlf) =
        .done (some (.simpleString (longText (maxBulkSize + 1)))) [] ∧
      ¬ HoldsLimits (.simpleString (longText (maxBulkSize + 1)))) ∧
    readFrame false (58 :: List.replicate (maxBulkSize + 1) 48 ++ crlf) =
      .done (some (.integer 0)) [] := by
  constructor
  · have hline : Representable (.simpleString (longText (maxBulkSize + 1))) := by
      intro e he
      obtain rfl : e = (0, .simpleString (longText (maxBulkSize + 1))) := by
        simpa [elements] using he
      refine ⟨Nat.zero_le _, ?_⟩
      rw [Admissible, longText, String.toList_ofList]
      intro hmem
      exact absurd (List.eq_of_mem_replicate hmem) (by decide)
    have hread := reads_writeFrame _ hline false []
    rw [writeFrame, utf8_longText, List.append_nil] at hread
    refine ⟨hread, fun hlimits => ?_⟩
    obtain ⟨-, -, hpayload⟩ :=
      hlimits (0, .simpleString (longText (maxBulkSize + 1))) (by simp [elements])
    rw [payload, utf8_longText, List.length_replicate] at hpayload
    omega
  · have hlf : '\n' ∉ (longZero (maxBulkSize + 1)).toList := by
      rw [longZero, String.toList_ofList]
      intro hmem
      exact absurd (List.eq_of_mem_replicate hmem) (by decide)
    have hpayload : Reader.Reads (readPayload (readFrameDepth 1) 58)
        (utf8 (longZero (maxBulkSize + 1)) ++ crlf) (.integer 0) := by
      refine (reads_readLine hlf).bind_last ?_
      simp only [parseInt64_longZero]
      exact Reader.reads_pure _
    have hread := reads_readFrameDepth (Nat.zero_le _) hpayload false []
    rwa [longZero, utf8_replicate (b := 48) (by decide), List.append_nil] at hread

end Resp3Frame

end Shroudb
