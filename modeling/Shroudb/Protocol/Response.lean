import Shroudb.Crates
import Shroudb.Resp3.Frame

/-! Command errors and responses, and the frames they are serialized to. -/
namespace Shroudb
open Wire

/-- The message of `badArg` is given in two parts: its fixed text and what it quotes after it. -/
inductive CommandError (C : Crates) where
  | notFound
  | namespaceNotFound (ns : String)
  | namespaceExists (ns : String)
  | namespaceNotEmpty (ns : String)
  | versionNotFound (version : UInt64)
  | validationFailed (errors : String)
  | denied (reason : String)
  | notAuthenticated
  | notReady (state : String)
  | badArg (message quoted : String)
  | pipelineAborted (index : Nat) (reason : String)
  | versionConflict (current : UInt64)
  | prefixTooLarge (matched limit : UInt64)
  | store (e : StoreError C.ValidationError)
  | internal (message : String)

/-- What the error displays, as `thiserror` derives it. -/
def CommandError.text {C : Crates} : CommandError C → String
  | .notFound => "not found"
  | .namespaceNotFound ns => "namespace not found: " ++ ns
  | .namespaceExists ns => "namespace already exists: " ++ ns
  | .namespaceNotEmpty ns => "namespace not empty: " ++ ns
  | .versionNotFound version => "version not found: " ++ printUInt64 version
  | .validationFailed errors => "validation failed: " ++ errors
  | .denied reason => "permission denied: " ++ reason
  | .notAuthenticated => "not authenticated"
  | .notReady state => "not ready: server is in " ++ state ++ " state"
  | .badArg message quoted => "bad argument: " ++ message ++ quoted
  | .pipelineAborted index reason =>
    "pipeline aborted: command " ++ index.repr ++ " failed: " ++ reason
  | .versionConflict current => "VERSIONCONFLICT current=" ++ printUInt64 current
  | .prefixTooLarge matched limit =>
    "PREFIXTOOLARGE matched=" ++ printUInt64 matched ++ " limit=" ++ printUInt64 limit
  | .store e => "store error: " ++ C.storeErrorText e
  | .internal message => "internal error: " ++ message

inductive ResponseValue (C : Crates) where
  | string (s : String)
  | integer (n : Int64)
  | float (f : C.F64)
  | boolean (b : Bool)
  | bytes (data : Bytes)
  | null
  | map (fields : List (String × ResponseValue C))
  | array (items : List (ResponseValue C))
  | json (value : Json)

abbrev ResponseMap (C : Crates) := List (String × ResponseValue C)

namespace ResponseMap
variable {C : Crates}

def ok : ResponseMap C := [("status", .string "OK")]

/-- `with`, which is a keyword here. -/
def field (m : ResponseMap C) (key : String) (value : ResponseValue C) : ResponseMap C :=
  m ++ [(key, value)]

end ResponseMap

inductive CommandResponse (C : Crates) where
  | success (map : ResponseMap C)
  | error (e : CommandError C)
  | array (items : List (CommandResponse C))
  | cachedFrame (frame : Resp3Frame)

section Serialize
variable {C : Crates}

mutual
def responseValueToFrame : ResponseValue C → Resp3Frame
  | .string s => .bulkString (utf8 s)
  | .integer n => .integer n
  | .float f => .bulkString (utf8 (C.f64Text f))
  | .boolean b => .bulkString (if b then utf8 "true" else utf8 "false")
  | .bytes data => .bulkString data
  | .null => .null
  | .map fields => .map (responseFieldsToPairs fields)
  | .array items => .array (responseValuesToFrames items)
  | .json value => .bulkString (utf8 (C.jsonToString value))
def responseValuesToFrames : List (ResponseValue C) → List Resp3Frame
  | [] => []
  | v :: vs => responseValueToFrame v :: responseValuesToFrames vs
def responseFieldsToPairs : List (String × ResponseValue C) → List (Resp3Frame × Resp3Frame)
  | [] => []
  | (k, v) :: fields => (.bulkString (utf8 k), responseValueToFrame v) :: responseFieldsToPairs fields
end

def responseMapToFrame (m : ResponseMap C) : Resp3Frame := .map (responseFieldsToPairs m)

mutual
def responseToFrame : CommandResponse C → Resp3Frame
  | .success m => responseMapToFrame m
  | .error e => .simpleError e.text
  | .array items => .array (responsesToFrames items)
  | .cachedFrame frame => frame
def responsesToFrames : List (CommandResponse C) → List Resp3Frame
  | [] => []
  | r :: rs => responseToFrame r :: responsesToFrames rs
end

theorem responseValuesToFrames_eq (vs : List (ResponseValue C)) :
    responseValuesToFrames vs = vs.map responseValueToFrame := by
  induction vs with
  | nil => rfl
  | cons v vs ih => simp [responseValuesToFrames, ih]

theorem responseFieldsToPairs_eq (fields : List (String × ResponseValue C)) :
    responseFieldsToPairs fields =
      fields.map fun p => (.bulkString (utf8 p.1), responseValueToFrame p.2) := by
  induction fields with
  | nil => rfl
  | cons p fields ih => simp [responseFieldsToPairs, ih]

theorem responsesToFrames_eq (rs : List (CommandResponse C)) :
    responsesToFrames rs = rs.map responseToFrame := by
  induction rs with
  | nil => rfl
  | cons r rs ih => simp [responsesToFrames, ih]

open Resp3Frame

/-! A success has no text in its lines: every string goes out as a bulk string. -/

mutual
theorem lineTexts_value : ∀ v : ResponseValue C, lineTexts (responseValueToFrame v) = []
  | .string _ | .integer _ | .float _ | .boolean _ | .bytes _ | .null | .json _ => rfl
  | .map fields => lineTexts_fields fields
  | .array items => lineTexts_values items
theorem lineTexts_values :
    ∀ vs : List (ResponseValue C), lineTextsAll (responseValuesToFrames vs) = []
  | [] => rfl
  | v :: vs => by
    rw [responseValuesToFrames, lineTextsAll, lineTexts_value v, lineTexts_values vs]
    rfl
theorem lineTexts_fields :
    ∀ fs : List (String × ResponseValue C), lineTextsPairs (responseFieldsToPairs fs) = []
  | [] => rfl
  | (k, v) :: fs => by
    rw [responseFieldsToPairs, lineTextsPairs, lineTexts_value v, lineTexts_fields fs]
    rfl
end

theorem lineTexts_success (m : ResponseMap C) :
    lineTexts (responseToFrame (C := C) (.success m)) = [] := by
  rw [responseToFrame, responseMapToFrame, lineTexts]
  exact lineTexts_fields m

end Serialize

end Shroudb
