import Shroudb.Protocol.Handlers
import Shroudb.Client.Response

/-! `RemoteStore`: store calls sent as commands, and replies read as store answers. -/
namespace Shroudb
open Wire

/-- What arrives of bytes that are sent as text. -/
abbrev arriving (b : Bytes) : Bytes := utf8 (fromUtf8Lossy b)

@[simp] theorem arriving_arriving (b : Bytes) : arriving (arriving b) = arriving b := by
  simp [arriving]

/-! ## Fields of a response -/

namespace Response

def asStr : Response → Option String
  | .string s => some s
  | _ => none

def asInt : Response → Option Int64
  | .integer n => some n
  | _ => none

def toDisplayString : Response → String
  | .string s => s
  | .error e => "(error) " ++ e
  | .integer n => printInt64 n
  | .null => "(nil)"
  | .array _ => "(array)"
  | .map _ => "(map)"

def getField (r : Response) (key : String) : Option Response :=
  match r with
  | .map entries => (entries.find? fun p => p.1.toDisplayString == key).map (·.2)
  | _ => none

def getStringField (r : Response) (key : String) : Option String := (r.getField key).bind asStr

def getIntField (r : Response) (key : String) : Option Int64 :=
  (r.getField key).bind fun
    | .integer n => some n
    | .string s => (parseInt64 s).toOption
    | _ => none

mutual
def toJson (C : Crates) : Response → Json
  | .string s => .string s
  | .error e => C.jsonObject [("error", .string e)]
  | .integer n => .number (if n < 0 then .signed n else .unsigned n.toUInt64)
  | .null => .null
  | .array items => .array (toJsons C items)
  | .map entries => C.jsonObject (toJsonFields C entries)
def toJsons (C : Crates) : List Response → List Json
  | [] => []
  | r :: rs => toJson C r :: toJsons C rs
def toJsonFields (C : Crates) : List (Response × Response) → List (String × Json)
  | [] => []
  | (k, v) :: entries => (k.toDisplayString, toJson C v) :: toJsonFields C entries
end

def checkOk : Response → Except ClientError Unit
  | .error e => .error (.server e)
  | .null => .error (.responseFormat "unexpected null")
  | _ => .ok ()

end Response

/-! ## Errors -/

/-- The characters that `char::is_whitespace` accepts. -/
def isWhitespace (c : Char) : Bool :=
  let n := c.toNat
  (9 ≤ n && n ≤ 13) || n == 0x20 || n == 0x85 || n == 0xA0 || n == 0x1680 ||
    (0x2000 ≤ n && n ≤ 0x200A) || n == 0x2028 || n == 0x2029 || n == 0x202F || n == 0x205F ||
    n == 0x3000

def splitWhitespace (cs : List Char) : List (List Char) :=
  (cs.splitOnP isWhitespace).filter (· ≠ [])

/-- What follows `start`, when `cs` starts with it. -/
def stripStart (start : String) (cs : List Char) : Option (List Char) :=
  if start.toList.isPrefixOf cs then some (cs.drop start.toList.length) else none

theorem stripStart_append (start t : String) :
    stripStart start (start ++ t).toList = some t.toList := by
  simp [stripStart, String.toList_append]

theorem stripStart_cons {start : String} {a b : Char} {as bs : List Char}
    (hs : start.toList = a :: as) (hne : a ≠ b) : stripStart start (b :: bs) = none := by
  simp [stripStart, hs, hne]

def parseU64 (cs : List Char) : Option UInt64 := (parseUInt64 (String.ofList cs)).toOption

def parseVersionConflict (msg : String) : Option UInt64 := do
  let body ← stripStart "VERSIONCONFLICT " msg.toList
  let current ← stripStart "current=" (body.dropWhile isWhitespace)
  parseU64 current

/-- Later fields overwrite earlier ones, also with nothing. -/
def scanPrefixTooLarge : List (List Char) → Option UInt64 × Option UInt64 →
    Option UInt64 × Option UInt64
  | [], found => found
  | field :: fields, (matched, limit) =>
    match stripStart "matched=" field with
    | some v => scanPrefixTooLarge fields (parseU64 v, limit)
    | none =>
      match stripStart "limit=" field with
      | some v => scanPrefixTooLarge fields (matched, parseU64 v)
      | none => scanPrefixTooLarge fields (matched, limit)

def parsePrefixTooLarge (msg : String) : Option (UInt64 × UInt64) := do
  let body ← stripStart "PREFIXTOOLARGE " msg.toList
  let found := scanPrefixTooLarge (splitWhitespace (body.dropWhile isWhitespace)) (none, none)
  return (← found.1, ← found.2)

/-- The branches in the order of the source: what holds "not found" is not found, also when it
is about a namespace. -/
def serverErr {V : Type} (msg : String) : StoreError V :=
  match parseVersionConflict msg with
  | some current => .versionConflict current
  | none =>
    match parsePrefixTooLarge msg with
    | some (matched, limit) => .prefixTooLarge matched limit
    | none =>
      if Handlers.contains msg "not found" then .notFound
      else if Handlers.contains msg "namespace not found" then .namespaceNotFound msg
      else if Handlers.contains msg "namespace already exists" then .namespaceExists msg
      else if Handlers.contains msg "namespace not empty" then .namespaceNotEmpty msg
      else if Handlers.contains msg "invalid cursor" then .invalidCursor msg
      else .storage msg

def clientErr {V : Type} : ClientError → StoreError V
  | .server msg => serverErr msg
  | .connection message => .connection message
  | .timeout => .connection "timeout"
  | other => .storage other.text

/-! ## Methods -/

/-- A method sends one command and decodes its reply. -/
structure Method (C : Crates) (α : Type) where
  args : List String
  decode : Response → Except (StoreError C.ValidationError) α

/-- A method fails with a store error, or it panics. -/
inductive RemoteFailure (V : Type) where
  | store (e : StoreError V)
  | panic (reason : String)

def remoteErr {V : Type} : ReadFailure → RemoteFailure V
  | .error e => .store (clientErr e)
  | .panic reason => .panic reason

/-- `send` is `Connection::send_command` on a connection in state `τ`. -/
def Method.run {C : Crates} {α τ : Type} (m : Method C α)
    (send : List String → τ → Except ReadFailure Response × τ) (s : τ) :
    Except (RemoteFailure C.ValidationError) α × τ :=
  match send m.args s with
  | (.ok response, s) => ((m.decode response).mapError .store, s)
  | (.error e, s) => (.error (remoteErr e), s)

namespace RemoteStore
variable {C : Crates}

/-- How `ShrouDBClient` reads the version that PUT and DELETE reply. -/
def clientVersion (response : Response) : Except ClientError UInt64 := do
  response.checkOk
  match response.getIntField "version" with
  | some v => .ok v.toUInt64
  | none => .error (.responseFormat "missing version field")

/-- How the raw commands read their number. -/
def rawNumber (field : String) (response : Response) :
    Except (StoreError C.ValidationError) UInt64 :=
  match response with
  | .error msg => .error (clientErr (.server msg))
  | response =>
    match (response.getField field).bind Response.asInt with
    | some n => .ok n.toUInt64
    | none => .error (.storage ("missing " ++ field ++ " field"))

def put (ns : String) (key value : Bytes) (metadata : Option C.Metadata) : Method C UInt64 where
  args :=
    match metadata with
    | some m => ["PUT", ns, fromUtf8Lossy key, "VALUE", fromUtf8Lossy value, "META",
        C.jsonToString (C.metadataToJson m)]
    | none => ["PUT", ns, fromUtf8Lossy key, fromUtf8Lossy value]
  decode response := (clientVersion response).mapError clientErr

structure GetResult where
  key : Bytes
  value : Bytes
  version : UInt64
  metadata : Option Json

def missingInGet (field : String) : ClientError :=
  .responseFormat ("missing '" ++ field ++ "' field in GET response")

def parseGetResult (C : Crates) (response : Response) : Except ClientError GetResult :=
  match response.getStringField "key", response.getStringField "value",
    response.getIntField "version" with
  | none, _, _ => .error (missingInGet "key")
  | some _, none, _ => .error (missingInGet "value")
  | some _, some _, none => .error (missingInGet "version")
  | some key, some value, some version =>
    .ok ⟨utf8 key, utf8 value, version.toUInt64,
      (response.getField "metadata").map (Response.toJson C)⟩

/-- Metadata that does not decode is replaced by the default. -/
def decodeMetadata (C : Crates) : Option Json → C.Metadata
  | none => C.metadataDefault
  | some json =>
    match C.metadataFromValue json with
    | .ok m => m
    | .error _ => C.metadataDefault

def decodeEntry (response : Response) : Except ClientError (Entry C) := do
  response.checkOk
  let gr ← parseGetResult C response
  return ⟨gr.key, gr.value, gr.version, decodeMetadata C gr.metadata, 0, 0⟩

def get (ns : String) (key : Bytes) (version : Option UInt64) : Method C (Entry C) where
  args :=
    match version with
    | some v => ["GET", ns, fromUtf8Lossy key, "VERSION", printUInt64 v]
    | none => ["GET", ns, fromUtf8Lossy key]
  decode response := (decodeEntry response).mapError clientErr

def delete (ns : String) (key : Bytes) : Method C UInt64 where
  args := ["DELETE", ns, fromUtf8Lossy key]
  decode response := (clientVersion response).mapError clientErr

def putIfVersion (ns : String) (key value : Bytes) (metadata : Option C.Metadata)
    (expectedVersion : UInt64) : Method C UInt64 where
  args := ["PUTIF", ns, fromUtf8Lossy key, fromUtf8Lossy value, "EXPECT",
      printUInt64 expectedVersion] ++
    match metadata with
    | some m => ["META", C.jsonToString (C.metadataToJson m)]
    | none => []
  decode := rawNumber "version"

def deleteIfVersion (ns : String) (key : Bytes) (expectedVersion : UInt64) : Method C UInt64 where
  args := ["DELIF", ns, fromUtf8Lossy key, "EXPECT", printUInt64 expectedVersion]
  decode := rawNumber "version"

def deletePrefix (ns : String) (keyPrefix : Bytes) : Method C UInt64 where
  args := ["DELPREFIX", ns, fromUtf8Lossy keyPrefix]
  decode := rawNumber "deleted"

/-- A keyword and its value, when there is one. -/
def optionArgs (word : String) : Option String → List String
  | some v => [word, v]
  | none => []

/-- A page under `field`. Items that are no strings are dropped. -/
def decodePage (field : String) (response : Response) :
    Except (StoreError C.ValidationError) Page :=
  match response.getField field with
  | none => .error (.storage ("missing " ++ field ++ " field"))
  | some items =>
    let keys :=
      match items with
      | .array items => items.filterMap fun r => r.asStr.map utf8
      | _ => []
    .ok ⟨keys, response.getStringField "cursor"⟩

def list (ns : String) (keyPrefix : Option Bytes) (cursor : Option String) (limit : UInt64) :
    Method C Page where
  args := ["LIST", ns] ++ optionArgs "PREFIX" (keyPrefix.map fromUtf8Lossy) ++
    optionArgs "CURSOR" cursor ++ ["LIMIT", printUInt64 limit]
  decode := decodePage "keys"

def decodeState : String → EntryState
  | "active" => .active
  | "deleted" => .deleted
  | _ => .active

def decodeVersion (item : Response) : VersionInfo where
  version := ((item.getIntField "version").getD 0).toUInt64
  state := decodeState ((item.getStringField "state").getD "")
  updatedAt := ((item.getIntField "updated_at").getD 0).toUInt64
  actor := (item.getStringField "actor").getD ""

def versions (ns : String) (key : Bytes) (limit : UInt64) (fromVersion : Option UInt64) :
    Method C (List VersionInfo) where
  args := ["VERSIONS", ns, fromUtf8Lossy key, "LIMIT", printUInt64 limit] ++
    optionArgs "FROM" (fromVersion.map printUInt64)
  decode response :=
    match response.getField "versions" with
    | none => .error (.storage "missing versions field")
    | some (.array items) => .ok (items.map decodeVersion)
    | some _ => .error (.storage "versions not an array")

/-- The options of NAMESPACE CREATE and NAMESPACE ALTER. -/
def configArgs (config : NamespaceConfig C) : List String :=
  optionArgs "MAX_VERSIONS" (config.maxVersions.map printUInt64) ++
    optionArgs "TOMBSTONE_RETENTION" (config.tombstoneRetentionSecs.map printUInt64) ++
    optionArgs "SCHEMA" (config.metaSchema.map C.schemaToString)

def decodeOk (response : Response) : Except (StoreError C.ValidationError) Unit :=
  response.checkOk.mapError clientErr

def namespaceCreate (ns : String) (config : NamespaceConfig C) : Method C Unit where
  args := ["NAMESPACE", "CREATE", ns] ++ configArgs config
  decode := decodeOk

def namespaceDrop (ns : String) (force : Bool) : Method C Unit where
  args := if force then ["NAMESPACE", "DROP", ns, "FORCE"] else ["NAMESPACE", "DROP", ns]
  decode := decodeOk

def namespaceList (cursor : Option String) (limit : UInt64) : Method C Page where
  args := ["NAMESPACE", "LIST"] ++ optionArgs "CURSOR" cursor ++ ["LIMIT", printUInt64 limit]
  decode := decodePage "namespaces"

def missingInInfo (field : String) : ClientError :=
  .responseFormat ("missing '" ++ field ++ "' field in NAMESPACE INFO response")

/-- The configuration is not sent: it is `NamespaceConfig::default()`, given here as `config`. -/
def decodeInfo (config : NamespaceConfig C) (response : Response) :
    Except ClientError (NamespaceInfo C) := do
  response.checkOk
  match response.getStringField "name", response.getIntField "key_count",
    response.getIntField "created_at" with
  | none, _, _ => .error (missingInInfo "name")
  | some _, none, _ => .error (missingInInfo "key_count")
  | some _, some _, none => .error (missingInInfo "created_at")
  | some name, some keyCount, some createdAt =>
    .ok ⟨name, keyCount.toUInt64, createdAt.toUInt64, config⟩

def namespaceInfo (config : NamespaceConfig C) (ns : String) : Method C (NamespaceInfo C) where
  args := ["NAMESPACE", "INFO", ns]
  decode response := (decodeInfo config response).mapError clientErr

def namespaceAlter (ns : String) (config : NamespaceConfig C) : Method C Unit where
  args := ["NAMESPACE", "ALTER", ns] ++ configArgs config
  decode := decodeOk

end RemoteStore

end Shroudb
