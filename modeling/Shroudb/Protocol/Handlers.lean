import Shroudb.Effect.Program
import Shroudb.Store
import Shroudb.Protocol.ParseCommand

/-! The command handlers, as programs that call the store and the engine. -/
namespace Shroudb
open Wire Effect

/-- What a handler asks of its surroundings. -/
inductive Op (C : Crates) where
  | call (c : Call C)
  | systemTime

/-- `systemTime` is answered in seconds since the epoch, or not at all before it. -/
def Op.Answer {C : Crates} : Op C → Type
  | .call c => c.Answer
  | .systemTime => Option UInt64

abbrev Plan (C : Crates) := Program (Op.Answer (C := C)) (Except (CommandError C) (ResponseMap C))

namespace Handlers
variable {C : Crates}

def reply (m : ResponseMap C) : Plan C := .pure (.ok m)

def refuse (e : CommandError C) : Plan C := .pure (.error e)

/-- One call, whose answer settles the reply. -/
def query (c : Call C) (finish : c.Answer → Except (CommandError C) (ResponseMap C)) : Plan C :=
  .ask (.call c) fun answer => .pure (finish answer)

def version (v : UInt64) : ResponseMap C := ResponseMap.ok.field "version" (.integer v.toInt64)

/-- The path the handlers put before an unexpected store error. -/
def atKey (ns : String) (key : Bytes) (e : StoreError C.ValidationError) : CommandError C :=
  .internal (ns ++ "/" ++ fromUtf8Lossy key ++ ": " ++ C.storeErrorText e)

def inNamespace (ns : String) (e : StoreError C.ValidationError) : CommandError C :=
  .internal (ns ++ ": " ++ C.storeErrorText e)

/-! ## Data operations -/

def parseMetadata : Option Json → Except (CommandError C) (Option C.Metadata)
  | none => .ok none
  | some json =>
    match C.metadataFromJson json with
    | .ok m => .ok (some m)
    | .error e => .error (.badArg "invalid metadata: " e)

def put (ns : String) (key value : Bytes) (metadataJson : Option Json) (ttlMs : Option UInt64) :
    Plan C :=
  match parseMetadata metadataJson with
  | .error e => refuse e
  | .ok metadata => query (.putWithOptions ns key value ⟨metadata, ttlMs, none⟩) fun
    | .ok v => .ok (version v)
    | .error e => .error (.store e)

def keyError (ns : String) (key : Bytes) : StoreError C.ValidationError → CommandError C
  | .notFound => .notFound
  | .namespaceNotFound _ => .namespaceNotFound ns
  | e => atKey ns key e

def get (ns : String) (key : Bytes) (v : Option UInt64) (includeMeta : Bool) : Plan C :=
  query (.get ns key v) fun
  | .error e => .error (keyError ns key e)
  | .ok entry =>
    let resp := ((ResponseMap.ok.field "key" (.bytes entry.key)).field "value"
      (.bytes entry.value)).field "version" (.integer entry.version.toInt64)
    .ok (if includeMeta then resp.field "metadata" (.json (C.metadataToJson entry.metadata))
      else resp)

def delete (ns : String) (key : Bytes) : Plan C :=
  query (.delete ns key) fun
  | .ok v => .ok (version v)
  | .error e => .error (keyError ns key e)

def putIfError (ns : String) (key : Bytes) : StoreError C.ValidationError → CommandError C
  | .versionConflict current => .versionConflict current
  | .namespaceNotFound _ => .namespaceNotFound ns
  | .validationFailed errors => .validationFailed (C.validationErrorsDebug errors)
  | e => atKey ns key e

def putIf (ns : String) (key value : Bytes) (metadataJson : Option Json) (expected : UInt64) :
    Plan C :=
  match parseMetadata metadataJson with
  | .error e => refuse e
  | .ok metadata => query (.putIfVersion ns key value metadata expected) fun
    | .ok v => .ok (version v)
    | .error e => .error (putIfError ns key e)

def delIfError (ns : String) (key : Bytes) : StoreError C.ValidationError → CommandError C
  | .versionConflict current => .versionConflict current
  | .notFound => .notFound
  | .namespaceNotFound _ => .namespaceNotFound ns
  | e => atKey ns key e

def delIf (ns : String) (key : Bytes) (expected : UInt64) : Plan C :=
  query (.deleteIfVersion ns key expected) fun
  | .ok v => .ok (version v)
  | .error e => .error (delIfError ns key e)

/-- Whether `needle` occurs in `text`. -/
def contains (text needle : String) : Bool :=
  text.toList.tails.any needle.toList.isPrefixOf

def delPrefixError (ns : String) : StoreError C.ValidationError → CommandError C
  | .prefixTooLarge matched limit => .prefixTooLarge matched limit
  | .namespaceNotFound _ => .namespaceNotFound ns
  | .storage message =>
    if contains message "empty prefix" then .badArg "" message
    else inNamespace ns (.storage message)
  | e => inNamespace ns e

def delPrefix (ns : String) (keyPrefix : Bytes) : Plan C :=
  query (.deletePrefix ns keyPrefix) fun
  | .ok deleted => .ok (ResponseMap.ok.field "deleted" (.integer deleted.toInt64))
  | .error e => .error (delPrefixError ns e)

def listError (ns : String) : StoreError C.ValidationError → CommandError C
  | .namespaceNotFound _ => .namespaceNotFound ns
  | .invalidCursor message => .badArg "" message
  | e => inNamespace ns e

/-- A page goes out under `name`, with its cursor when there is one. -/
def pageFields (name : String) (items : List (ResponseValue C)) (cursor : Option String) :
    ResponseMap C :=
  let resp := ResponseMap.ok.field name (.array items)
  match cursor with
  | some cursor => resp.field "cursor" (.string cursor)
  | none => resp

def list (ns : String) (keyPrefix : Option Bytes) (cursor : Option String) (limit : UInt64) :
    Plan C :=
  query (.list ns keyPrefix cursor limit) fun
  | .error e => .error (listError ns e)
  | .ok page => .ok (pageFields "keys" (page.keys.map .bytes) page.cursor)

def stateText : EntryState → String
  | .active => "active"
  | .deleted => "deleted"

def versionEntry (v : VersionInfo) : ResponseValue C :=
  .map ((((ResponseMap.ok.field "version" (.integer v.version.toInt64)).field "state"
    (.string (stateText v.state))).field "updated_at" (.integer v.updatedAt.toInt64)).field "actor"
    (.string v.actor))

def versions (ns : String) (key : Bytes) (limit : UInt64) (fromVersion : Option UInt64) : Plan C :=
  query (.versions ns key limit fromVersion) fun
  | .error e => .error (atKey ns key e)
  | .ok infos => .ok (ResponseMap.ok.field "versions" (.array (infos.map versionEntry)))

/-! ## Namespace operations -/

def parseConfig (schemaJson : Option Json) (maxVersions retention : Option UInt64) :
    Except (CommandError C) (NamespaceConfig C) :=
  match schemaJson with
  | none => .ok ⟨none, maxVersions, retention⟩
  | some json =>
    match C.schemaFromValue json with
    | .ok schema => .ok ⟨some schema, maxVersions, retention⟩
    | .error e => .error (.badArg "invalid schema: " e)

/-- The end of the handlers that answer a bare OK and pass a store error on as it is. -/
def acknowledge : Except (StoreError C.ValidationError) Unit →
    Except (CommandError C) (ResponseMap C)
  | .ok () => .ok ResponseMap.ok
  | .error e => .error (.store e)

def namespaceCreate (name : String) (schemaJson : Option Json)
    (maxVersions retention : Option UInt64) : Plan C :=
  match parseConfig schemaJson maxVersions retention with
  | .error e => refuse e
  | .ok config => query (.namespaceCreate name config) acknowledge

def namespaceDrop (name : String) (force : Bool) : Plan C :=
  query (.namespaceDrop name force) acknowledge

def namespaceList (cursor : Option String) (limit : UInt64) : Plan C :=
  query (.namespaceList cursor limit) fun
  | .error e => .error (.store e)
  | .ok page =>
    .ok (pageFields "namespaces" (page.keys.map fun k => .string (fromUtf8Lossy k)) page.cursor)

def namespaceInfo (name : String) : Plan C :=
  query (.namespaceInfo name) fun
  | .error e => .error (.store e)
  | .ok info => .ok (((ResponseMap.ok.field "name" (.string info.name)).field "key_count"
      (.integer info.keyCount.toInt64)).field "created_at" (.integer info.createdAt.toInt64))

def namespaceAlter (name : String) (schemaJson : Option Json)
    (maxVersions retention : Option UInt64) : Plan C :=
  match parseConfig schemaJson maxVersions retention with
  | .error e => refuse e
  | .ok config => query (.namespaceAlter name config) acknowledge

def reportEntry (r : ValidationReport C) : ResponseValue C :=
  .map (((ResponseMap.ok.field "key" (.bytes r.key)).field "version"
    (.integer r.version.toInt64)).field "errors"
    (.array (r.errors.map fun e => .string (C.validationErrorText e))))

def namespaceValidate (name : String) : Plan C :=
  query (.namespaceValidate name) fun
  | .error e => .error (.store e)
  | .ok reports => .ok ((ResponseMap.ok.field "count"
      (.integer (Int64.ofNat reports.length))).field "reports" (.array (reports.map reportEntry)))

/-! ## Operational commands -/

def health : Plan C := reply (ResponseMap.ok.field "message" (.string "healthy"))

def commandNames : List String :=
  ["AUTH", "PING", "PUT", "GET", "DELETE", "LIST", "VERSIONS", "NAMESPACE CREATE",
   "NAMESPACE DROP", "NAMESPACE LIST", "NAMESPACE INFO", "NAMESPACE ALTER", "NAMESPACE VALIDATE",
   "PIPELINE", "SUBSCRIBE", "UNSUBSCRIBE", "HEALTH", "CONFIG GET", "CONFIG SET", "COMMAND LIST"]

def commandList : Plan C :=
  reply ((ResponseMap.ok.field "count" (.integer (Int64.ofNat commandNames.length))).field
    "commands" (.array (commandNames.map .string)))

def configGet (key : String) : Plan C :=
  query (.configGet key) fun
  | some entry => .ok (((ResponseMap.ok.field "key" (.string key)).field "value"
      (.string entry.value)).field "source" (.string entry.source))
  | none => .ok ((ResponseMap.ok.field "key" (.string key)).field "value" .null)

def configStored : Except String Unit → Except (CommandError C) (ResponseMap C)
  | .error e => .error (.badArg "" e)
  | .ok () => .ok ResponseMap.ok

def configApplied (key value : String) (timestamp : UInt64) : Except String Unit → Plan C
  | .error e => refuse (.internal e)
  | .ok () => query (.configStore key value timestamp) configStored

def configValidated (key value : String) (timestamp : UInt64) : Except String Unit → Plan C
  | .error e => refuse (.badArg "" e)
  | .ok () => .ask (.call (.configApply key value)) (configApplied key value timestamp)

def configTimed (key value : String) : Option UInt64 → Plan C
  | none => refuse (.internal "system clock error")
  | some timestamp =>
    .ask (.call (.configValidate key value)) (configValidated key value timestamp)

/-- The value is validated, then logged, then stored in memory. -/
def configSet (key value : String) : Plan C := .ask .systemTime (configTimed key value)

def hexDigit (c : Char) : Option Nat :=
  if '0' ≤ c ∧ c ≤ '9' then some (c.toNat - '0'.toNat)
  else if 'a' ≤ c ∧ c ≤ 'f' then some (c.toNat - 'a'.toNat + 10)
  else if 'A' ≤ c ∧ c ≤ 'F' then some (c.toNat - 'A'.toNat + 10)
  else none

/-- `u8::from_str_radix` in base 16 on a slice of two bytes; a sign is a digit less. -/
def hexByte (s : String) : Except String UInt8 :=
  match s.toList with
  | ['+', c] =>
    match hexDigit c with
    | some n => .ok (UInt8.ofNat n)
    | none => .error IntErrorKind.invalidDigit.text
  | [c, d] =>
    match hexDigit c, hexDigit d with
    | some m, some n => .ok (UInt8.ofNat (16 * m + n))
    | _, _ => .error IntErrorKind.invalidDigit.text
  | _ => .error IntErrorKind.invalidDigit.text

/-- Slicing off a character boundary panics. No key that `parse_rekey` accepts gets there. -/
def decodeHexPairs : Bytes → Except String Bytes
  | [] => .ok []
  | [_] => .error "odd number of hex characters"
  | b :: b' :: rest =>
    match fromUtf8? [b, b'] with
    | none => .error "byte index is not a char boundary"
    | some s =>
      match hexByte s with
      | .error e => .error e
      | .ok byte => (decodeHexPairs rest).map (byte :: ·)

def decodeHex (hex : String) : Except String Bytes :=
  if (utf8 hex).length % 2 ≠ 0 then .error "odd number of hex characters"
  else decodeHexPairs (utf8 hex)

def rekey (newKeyHex : String) : Plan C :=
  match decodeHex newKeyHex with
  | .error e => refuse (.badArg "invalid hex key: " e)
  | .ok key =>
    if key.length ≠ 32 then
      refuse (.badArg ("key must be 32 bytes (64 hex chars), got " ++ key.length.repr) "")
    else query (.beginRekey key) fun
      | .error e => .error (.internal e)
      | .ok () => .ok (ResponseMap.ok.field "message" (.string "rekey started"))

def rekeyStatus : Plan C :=
  query .rekeyStatus fun
  | some p => .ok (((((ResponseMap.ok.field "in_progress" (.boolean p.inProgress)).field "progress"
      (.string (C.percentText p.progress))).field "segments_completed"
      (.integer p.segmentsCompleted.toInt64)).field "total_segments"
      (.integer p.totalSegments.toInt64)).field "started_at" (.integer p.startedAt.toInt64))
  | none => .ok ((ResponseMap.ok.field "in_progress" (.boolean false)).field "message"
      (.string "no rekey in progress"))

end Handlers

end Shroudb
