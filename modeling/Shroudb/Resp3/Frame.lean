import Shroudb.Wire.Utf8
import Shroudb.Wire.Decimal

/-! RESP3 frames and the bytes `write_frame` sends for them. -/
namespace Shroudb
open Wire

inductive Resp3Frame where
  | simpleString (s : String)
  | simpleError (s : String)
  | integer (n : Int64)
  | bulkString (data : Bytes)
  | array (frames : List Resp3Frame)
  | map (pairs : List (Resp3Frame × Resp3Frame))
  | push (frames : List Resp3Frame)
  | null
deriving BEq, Repr

namespace Resp3Frame

def crlf : Bytes := [13, 10]

def header (typeByte : UInt8) (n : Nat) : Bytes := typeByte :: utf8 n.repr ++ crlf

mutual
def writeFrame : Resp3Frame → Bytes
  | .simpleString s => 43 :: utf8 s ++ crlf
  | .simpleError s => 45 :: utf8 s ++ crlf
  | .integer n => 58 :: utf8 (printInt64 n) ++ crlf
  | .bulkString data => header 36 data.length ++ data ++ crlf
  | .array frames => header 42 frames.length ++ writeFrames frames
  | .map pairs => header 37 pairs.length ++ writePairs pairs
  | .push frames => header 62 frames.length ++ writeFrames frames
  | .null => 95 :: crlf
def writeFrames : List Resp3Frame → Bytes
  | [] => []
  | f :: fs => writeFrame f ++ writeFrames fs
def writePairs : List (Resp3Frame × Resp3Frame) → Bytes
  | [] => []
  | (k, v) :: ps => writeFrame k ++ writeFrame v ++ writePairs ps
end

mutual
/-- The texts a frame puts on a line of their own, unescaped. -/
def lineTexts : Resp3Frame → List String
  | .simpleString s => [s]
  | .simpleError s => [s]
  | .integer _ => []
  | .bulkString _ => []
  | .array frames => lineTextsAll frames
  | .map pairs => lineTextsPairs pairs
  | .push frames => lineTextsAll frames
  | .null => []
def lineTextsAll : List Resp3Frame → List String
  | [] => []
  | f :: fs => lineTexts f ++ lineTextsAll fs
def lineTextsPairs : List (Resp3Frame × Resp3Frame) → List String
  | [] => []
  | (k, v) :: ps => lineTexts k ++ lineTexts v ++ lineTextsPairs ps
end

def LineSafe (f : Resp3Frame) : Prop := ∀ t ∈ lineTexts f, '\n' ∉ t.toList

theorem writeFrames_eq (fs : List Resp3Frame) : writeFrames fs = (fs.map writeFrame).flatten := by
  induction fs with
  | nil => rfl
  | cons f fs ih => simp [writeFrames, ih]

theorem writePairs_eq (ps : List (Resp3Frame × Resp3Frame)) :
    writePairs ps = (ps.map fun p => writeFrame p.1 ++ writeFrame p.2).flatten := by
  induction ps with
  | nil => rfl
  | cons p ps ih => simp [writePairs, ih]

theorem lineTextsAll_eq (fs : List Resp3Frame) : lineTextsAll fs = fs.flatMap lineTexts := by
  induction fs with
  | nil => rfl
  | cons f fs ih => simp [lineTextsAll, ih]

theorem lineTextsPairs_eq (ps : List (Resp3Frame × Resp3Frame)) :
    lineTextsPairs ps = ps.flatMap fun p => lineTexts p.1 ++ lineTexts p.2 := by
  induction ps with
  | nil => rfl
  | cons p ps ih => simp [lineTextsPairs, ih]

theorem lineSafe_array {fs : List Resp3Frame} : LineSafe (.array fs) ↔ ∀ f ∈ fs, LineSafe f := by
  simp only [LineSafe, lineTexts, lineTextsAll_eq, List.mem_flatMap]
  exact ⟨fun h f hf t ht => h t ⟨f, hf, ht⟩, fun h t ⟨f, hf, ht⟩ => h f hf t ht⟩

theorem lineSafe_push {fs : List Resp3Frame} : LineSafe (.push fs) ↔ ∀ f ∈ fs, LineSafe f :=
  lineSafe_array

theorem lineSafe_map {ps : List (Resp3Frame × Resp3Frame)} :
    LineSafe (.map ps) ↔ ∀ p ∈ ps, LineSafe p.1 ∧ LineSafe p.2 := by
  simp only [LineSafe, lineTexts, lineTextsPairs_eq, List.mem_flatMap, List.mem_append]
  constructor
  · exact fun h p hp => ⟨fun t ht => h t ⟨p, hp, Or.inl ht⟩, fun t ht => h t ⟨p, hp, Or.inr ht⟩⟩
  · rintro h t ⟨p, hp, ht | ht⟩
    · exact (h p hp).1 t ht
    · exact (h p hp).2 t ht

/-- Induction over frames, with the hypothesis for every child of a collection. -/
@[induction_eliminator]
theorem frame_induction {P : Resp3Frame → Prop}
    (simpleString : ∀ s, P (.simpleString s)) (simpleError : ∀ s, P (.simpleError s))
    (integer : ∀ n, P (.integer n)) (bulkString : ∀ data, P (.bulkString data))
    (array : ∀ fs, (∀ f ∈ fs, P f) → P (.array fs))
    (map : ∀ ps, (∀ p ∈ ps, P p.1 ∧ P p.2) → P (.map ps))
    (push : ∀ fs, (∀ f ∈ fs, P f) → P (.push fs)) (null : P .null) (f : Resp3Frame) : P f := by
  refine @Resp3Frame.rec P (fun fs => ∀ f ∈ fs, P f) (fun ps => ∀ p ∈ ps, P p.1 ∧ P p.2)
    (fun p => P p.1 ∧ P p.2) simpleString simpleError integer bulkString array map push null ?_ ?_ ?_ ?_ ?_ f
  · simp
  · intro f fs hf hfs g hg
    rcases List.mem_cons.mp hg with rfl | hg
    · exact hf
    · exact hfs g hg
  · simp
  · intro p ps hp hps q hq
    rcases List.mem_cons.mp hq with rfl | hq
    · exact hp
    · exact hps q hq
  · intro k v hk hv
    exact ⟨hk, hv⟩

end Resp3Frame

end Shroudb
