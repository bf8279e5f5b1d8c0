import Shroudb.Effect.Schedule
import Shroudb.Client.Moat
import Shroudb.Client.Simulation

/-! `ShrouDBClient`: what its methods make of the replies, and what they are for. -/
namespace Shroudb
open Wire Effect Resp3Frame

/-! ## Replies -/

namespace TypedClient

/-- A page of results. -/
structure PageResult where
  items : List String
  cursor : Option String

/-- An entry of VERSIONS. -/
structure VersionEntry where
  version : UInt64
  state : String
  updatedAt : UInt64
  actor : String

/-- What NAMESPACE INFO says. -/
structure NamespaceSummary where
  name : String
  keyCount : UInt64
  createdAt : UInt64

/-- The strings of an array. Items that are no strings are dropped. -/
def strings (items : List Response) : List String := items.filterMap Response.asStr

/-- A page under `field`. A field that is no array is an empty page. -/
def parsePage (field : String) (response : Response) : Except ClientError PageResult :=
  match response.getField field with
  | none => .error (.responseFormat ("missing " ++ field ++ " field"))
  | some (.array items) => .ok ⟨strings items, response.getStringField "cursor"⟩
  | some _ => .ok ⟨[], response.getStringField "cursor"⟩

def parseKeyList : Response → Except ClientError PageResult := parsePage "keys"

def parseNamespaceList : Response → Except ClientError PageResult := parsePage "namespaces"

def missingInVersions (field : String) (i : Nat) : ClientError :=
  .responseFormat ("missing '" ++ field ++ "' in versions[" ++ i.repr ++ "]")

def parseVersionEntry (i : Nat) (item : Response) : Except ClientError VersionEntry :=
  match item.getIntField "version", item.getStringField "state", item.getIntField "updated_at",
    item.getStringField "actor" with
  | none, _, _, _ => .error (missingInVersions "version" i)
  | some _, none, _, _ => .error (missingInVersions "state" i)
  | some _, some _, none, _ => .error (missingInVersions "updated_at" i)
  | some _, some _, some _, none => .error (missingInVersions "actor" i)
  | some version, some state, some updatedAt, some actor =>
    .ok ⟨version.toUInt64, state, updatedAt.toUInt64, actor⟩

/-- The entries from number `i` on. The first that lacks a field fails the call. -/
def parseVersionEntries : Nat → List Response → Except ClientError (List VersionEntry)
  | _, [] => .ok []
  | i, item :: items => do
    let entry ← parseVersionEntry i item
    let entries ← parseVersionEntries (i + 1) items
    return entry :: entries

def parseVersions (response : Response) : Except ClientError (List VersionEntry) :=
  match response.getField "versions" with
  | none => .error (.responseFormat "missing versions field")
  | some (.array items) => parseVersionEntries 0 items
  | some _ => .error (.responseFormat "versions field is not an array")

def parseNamespaceInfo (response : Response) : Except ClientError NamespaceSummary :=
  match response.getStringField "name", response.getIntField "key_count",
    response.getIntField "created_at" with
  | none, _, _ => .error (RemoteStore.missingInInfo "name")
  | some _, none, _ => .error (RemoteStore.missingInInfo "key_count")
  | some _, some _, none => .error (RemoteStore.missingInInfo "created_at")
  | some name, some keyCount, some createdAt => .ok ⟨name, keyCount.toUInt64, createdAt.toUInt64⟩

def parseCommandList (response : Response) : Except ClientError (List String) :=
  match response.getField "commands" with
  | none => .error (.responseFormat "missing commands field")
  | some (.array items) => .ok (strings items)
  | some _ => .error (.responseFormat "commands field is not an array")

/-- `check_ok`, then `parse`. -/
def checked {α : Type} (parse : Response → Except ClientError α) (response : Response) :
    Except ClientError α := do
  response.checkOk
  parse response

end TypedClient

namespace ClientOp
open TypedClient

def Result : ClientOp → Type
  | .put .. | .putWithMetadata .. | .delete .. => UInt64
  | .get .. | .getVersion .. => RemoteStore.GetResult
  | .list .. | .listPrefix .. | .listCursor .. | .namespaceList => PageResult
  | .versions .. => List VersionEntry
  | .namespaceInfo .. => NamespaceSummary
  | .configGet .. => Option String
  | .commandList => List String
  | .pipeline .. => List Response
  | .rawCommand .. => Response
  | .auth .. | .ping | .namespaceCreate .. | .namespaceDrop .. | .health | .configSet .. => Unit

/-- What a method makes of the reply to its request. -/
def decode (C : Crates) : (op : ClientOp) → Response → Except ClientError op.Result
  | .put .. | .putWithMetadata .. | .delete .. => RemoteStore.clientVersion
  | .get .. | .getVersion .. => checked (RemoteStore.parseGetResult C)
  | .list .. | .listPrefix .. | .listCursor .. => checked parseKeyList
  | .namespaceList => checked TypedClient.parseNamespaceList
  | .versions .. => checked TypedClient.parseVersions
  | .namespaceInfo .. => checked TypedClient.parseNamespaceInfo
  | .configGet .. => checked fun response => .ok (response.getStringField "value")
  | .commandList => checked parseCommandList
  | .pipeline .. => pipelineItems
  | .rawCommand .. => .ok
  | .auth .. | .ping | .namespaceCreate .. | .namespaceDrop .. | .health | .configSet .. =>
    Response.checkOk

end ClientOp

section
variable {C : Crates} {σ : Type}

/-- A method of a client that is connected to the server itself. -/
def ClientOp.run (B : Backend C σ) (auth : Option C.AuthContext) (op : ClientOp)
    (conn : ClientConnection C σ) : Except ReadFailure op.Result × ClientConnection C σ :=
  match conn.submit B auth (op.direct C) with
  | (.ok response, conn) => ((op.decode C response).mapError .error, conn)
  | (.error e, conn) => (.error e, conn)

/-! ## What the methods are for -/

/-- One call, and what it returns. -/
def inquire {α : Type} (c : Call C) (f : c.Answer → Except (CommandError C) α) :
    Program (Op.Answer (C := C)) (Except (CommandError C) α) :=
  .ask (.call c) fun answer => .pure (f answer)

def typedEntry (entry : Entry C) : RemoteStore.GetResult :=
  ⟨arriving entry.key, arriving entry.value, entry.version, none⟩

def typedPage (page : Page) : TypedClient.PageResult :=
  ⟨page.keys.map fromUtf8Lossy, page.cursor⟩

def typedVersion (info : VersionInfo) : TypedClient.VersionEntry :=
  ⟨info.version, Handlers.stateText info.state, info.updatedAt, info.actor⟩

def noConfig : CommandError C := .internal "CONFIG not available in remote store mode"

/-- A new value is checked, logged and stored, in this order, at the time of the clock. -/
def setConfig (key value : String) :
    Program (Op.Answer (C := C)) (Except (CommandError C) Unit) :=
  .ask .systemTime fun
  | none => .pure (.error (.internal "system clock error"))
  | some timestamp => .ask (.call (.configValidate key value)) fun
    | .error e => .pure (.error (.badArg "" e))
    | .ok () => .ask (.call (.configApply key value)) fun
      | .error e => .pure (.error (.internal e))
      | .ok () => inquire (.configStore key value timestamp) fun r =>
        r.mapError fun e => .badArg "" e

namespace ClientOp

/-- What a method does to the store, as if the store were at hand. AUTH belongs to the connection,
and pipelines and raw commands mean whatever is in them. -/
def meaning (C : Crates) (hasEngine : Bool) :
    (op : ClientOp) → Option (Program (Op.Answer (C := C)) (Except (CommandError C) op.Result))
  | .ping => some (.pure (.ok ()))
  | .put ns key value => some <|
    inquire (.putWithOptions ns (arriving key) (arriving value) ⟨none, none, none⟩)
      fun r => r.mapError .store
  | .putWithMetadata ns key value json => some <|
    match Handlers.parseMetadata (some json) with
    | .error e => .pure (.error e)
    | .ok metadata =>
      inquire (.putWithOptions ns (arriving key) (arriving value) ⟨metadata, none, none⟩)
        fun r => r.mapError .store
  | .get ns key => some (inquire (.get ns (arriving key) none) fun r =>
      (r.map typedEntry).mapError (Handlers.keyError ns (arriving key)))
  | .getVersion ns key version => some (inquire (.get ns (arriving key) (some version)) fun r =>
      (r.map typedEntry).mapError (Handlers.keyError ns (arriving key)))
  | .delete ns key => some (inquire (.delete ns (arriving key)) fun r =>
      r.mapError (Handlers.keyError ns (arriving key)))
  | .list ns => some (inquire (.list ns none none 100) fun r =>
      (r.map typedPage).mapError (Handlers.listError ns))
  | .listPrefix ns start => some (inquire (.list ns (some (utf8 start)) none 100) fun r =>
      (r.map typedPage).mapError (Handlers.listError ns))
  | .listCursor ns cursor limit => some (inquire (.list ns none (some cursor) limit) fun r =>
      (r.map typedPage).mapError (Handlers.listError ns))
  | .versions ns key => some (inquire (.versions ns (arriving key) 100 none) fun r =>
      (r.map (List.map typedVersion)).mapError (Handlers.atKey ns (arriving key)))
  | .namespaceCreate name => some (inquire (.namespaceCreate name ⟨none, none, none⟩) fun r =>
      r.mapError .store)
  | .namespaceDrop name force => some (inquire (.namespaceDrop name force) fun r =>
      r.mapError .store)
  | .namespaceList => some (inquire (.namespaceList none 100) fun r =>
      (r.map typedPage).mapError .store)
  | .namespaceInfo name => some (inquire (.namespaceInfo name) fun r =>
      (r.map fun info => ⟨info.name, info.keyCount, info.createdAt⟩).mapError .store)
  | .health => some (.pure (.ok ()))
  | .configGet key => some <|
    if hasEngine then inquire (.configGet key) fun entry => .ok (entry.map (·.value))
    else .pure (.error noConfig)
  | .configSet key value => some <|
    if hasEngine then setConfig key value else .pure (.error noConfig)
  | .commandList => some (.pure (.ok Handlers.commandNames))
  | .auth _ | .pipeline .. | .rawCommand _ => none

/-- The access a method needs. -/
def access : ClientOp → AclRequirement
  | .put ns .. | .putWithMetadata ns .. | .delete ns _ => .inNamespace ns .write none
  | .get ns _ | .getVersion ns .. | .list ns | .listPrefix ns _ | .listCursor ns .. | .versions ns _
  | .namespaceInfo ns => .inNamespace ns .read none
  | .namespaceCreate _ | .namespaceDrop .. | .configSet .. => .admin
  | _ => .none

/-- A method without the wire: the access check, and then what the method is for. -/
def outcome (B : Backend C σ) (auth : Option C.AuthContext) (op : ClientOp)
    (program : Program (Op.Answer (C := C)) (Except (CommandError C) op.Result))
    (d : Dispatcher C σ) : Except (CommandError C) op.Result × Dispatcher C σ :=
  match aclCheck auth op.access with
  | some e => (.error e, d)
  | none => program.run (Dispatcher.answer B) d

/-- What a method without the wire leaves behind. -/
def after (B : Backend C σ) (auth : Option C.AuthContext) (op : ClientOp) (d : Dispatcher C σ) :
    Dispatcher C σ :=
  match op.meaning C B.hasEngine with
  | some program => (op.outcome B auth program d).2
  | none => d

/-- The client can send the method's request: it is within the server's limits, and JSON in it
reads back. -/
structure Sendable (C : Crates) (op : ClientOp) : Prop where
  limits : Representable (op.request C).frame
  json : ∀ ns key value json, op = .putWithMetadata ns key value json →
    C.jsonFromStr (C.jsonToString json) = .ok json

/-- The client can read the reply to the method's request. -/
def Readable (B : Backend C σ) (auth : Option C.AuthContext) (op : ClientOp)
    (d : Dispatcher C σ) : Prop :=
  Legible (serveFrame B auth (op.request C).frame d).1

/-- A call that leaves nothing behind on the connection. -/
structure Served (B : Backend C σ) (auth : Option C.AuthContext) (conn : ClientConnection C σ)
    (op : ClientOp) : Prop where
  sendable : op.Sendable C
  meant : (op.meaning C B.hasEngine).isSome
  readable : op.Readable B auth conn.dispatcher

end ClientOp

/-! ## Replies as they arrive -/

/-- The client reads from the reply to a command what the method returns. Errors are passed on. -/
inductive Delivers (op : ClientOp) :
    Except (CommandError C) (ResponseMap C) → Except (CommandError C) op.Result → Prop
  | ok {m : ResponseMap C} {a : op.Result}
    (h : op.decode C (img (responseMapToFrame m)) = .ok a) : Delivers op (.ok m) (.ok a)
  | error (e : CommandError C) : Delivers op (.error e) (.error e)

theorem eq_ok_of_mapError {ε ε' α : Type} {f : ε → ε'} {r : Except ε α} {a : α}
    (h : r.mapError f = .ok a) : r = .ok a := by
  cases r with
  | error e => cases h
  | ok b => simpa [Except.mapError] using h

theorem decode_version (v : UInt64) :
    RemoteStore.clientVersion (img (responseMapToFrame (C := C) (Handlers.version v))) = .ok v :=
  eq_ok_of_mapError (RemoteStore.clientVersion_version C v)

variable (C) in
theorem decode_ok : Response.checkOk (img (responseMapToFrame (C := C) ResponseMap.ok)) = .ok () :=
  rfl

theorem img_lossy (data : Bytes) :
    img (responseValueToFrame (C := C) (.bytes data)) = .string (fromUtf8Lossy data) := by
  simp [responseValueToFrame, img]

namespace TypedClient

theorem checked_map {α : Type} (parse : Response → Except ClientError α)
    (entries : List (Response × Response)) :
    checked parse (.map entries) = parse (.map entries) := rfl

theorem strings_map (texts : List String) : strings (texts.map .string) = texts := by
  simp [strings, List.filterMap_map, Function.comp_def, Response.asStr]

theorem parsePage_pageFields {name : String} (hstatus : name ≠ "status") (hname : name ≠ "cursor")
    {items : List (ResponseValue C)} {texts : List String}
    (hitems : items.map (fun v => img (responseValueToFrame v)) = texts.map .string)
    (cursor : Option String) :
    checked (parsePage name) (img (responseMapToFrame (Handlers.pageFields name items cursor))) =
      .ok ⟨texts, cursor⟩ := by
  rw [img_responseMapToFrame, checked_map]
  cases cursor <;>
    simp [parsePage, Handlers.pageFields, ResponseMap.ok, ResponseMap.field, hstatus.symm, hname,
      Response.getStringField, hitems, strings_map, asStr_string]

theorem parseKeyList_keys (page : Page) :
    checked parseKeyList (img (responseMapToFrame (C := C)
      (Handlers.pageFields "keys" (page.keys.map .bytes) page.cursor))) = .ok (typedPage page) :=
  parsePage_pageFields (by decide) (by decide)
    (by simp [img_lossy, Function.comp_def]) page.cursor

theorem parseNamespaceList_namespaces (page : Page) :
    checked TypedClient.parseNamespaceList (img (responseMapToFrame (C := C)
      (Handlers.pageFields "namespaces" (page.keys.map fun k => .string (fromUtf8Lossy k))
        page.cursor))) = .ok (typedPage page) :=
  parsePage_pageFields (by decide) (by decide) (by simp [Function.comp_def]) page.cursor

theorem parseVersionEntry_versionEntry (i : Nat) (info : VersionInfo) :
    parseVersionEntry i (img (responseValueToFrame (C := C) (Handlers.versionEntry info))) =
      .ok (typedVersion info) := by
  have hentry : img (responseValueToFrame (C := C) (Handlers.versionEntry info)) = .map
      [(.string "status", .string "OK"), (.string "version", .integer info.version.toInt64),
       (.string "state", .string (Handlers.stateText info.state)),
       (.string "updated_at", .integer info.updatedAt.toInt64),
       (.string "actor", .string info.actor)] := by
    rw [Handlers.versionEntry, responseValueToFrame]
    refine (img_responseMapToFrame _).trans ?_
    simp [ResponseMap.ok, ResponseMap.field]
  rw [hentry]
  simp [parseVersionEntry, Response.getIntField, Response.getStringField, Response.asStr,
    typedVersion]

theorem parseVersionEntries_map (i : Nat) (infos : List VersionInfo) :
    parseVersionEntries i (infos.map fun info =>
      img (responseValueToFrame (C := C) (Handlers.versionEntry info))) =
      .ok (infos.map typedVersion) := by
  induction infos generalizing i with
  | nil => rfl
  | cons info infos ih =>
    rw [List.map_cons, parseVersionEntries, parseVersionEntry_versionEntry, ih]
    rfl

theorem parseVersions_versions (infos : List VersionInfo) :
    checked TypedClient.parseVersions (img (responseMapToFrame (C := C)
      (ResponseMap.ok.field "versions" (.array (infos.map Handlers.versionEntry))))) =
      .ok (infos.map typedVersion) := by
  rw [img_responseMapToFrame, checked_map]
  simp [TypedClient.parseVersions, ResponseMap.ok, ResponseMap.field, Function.comp_def,
    parseVersionEntries_map]

theorem parseGetResult_get (entry : Entry C) :
    checked (RemoteStore.parseGetResult C) (img (responseMapToFrame (C := C)
      (((ResponseMap.ok.field "key" (.bytes entry.key)).field "value"
        (.bytes entry.value)).field "version" (.integer entry.version.toInt64)))) =
      .ok (typedEntry entry) := by
  rw [img_responseMapToFrame, checked_map]
  simp [RemoteStore.parseGetResult, ResponseMap.ok, ResponseMap.field, img_lossy,
    Response.getIntField, Response.getStringField, Response.asStr, typedEntry, arriving]

theorem getValue_configGet (key : String) (value : ResponseValue C) (entries : ResponseMap C)
    {text : Option String} (hvalue : (img (responseValueToFrame value)).asStr = text) :
    checked (fun response => .ok (response.getStringField "value")) (img (responseMapToFrame (C := C)
      ([("status", .string "OK"), ("key", .string key), ("value", value)] ++ entries))) =
      .ok text := by
  rw [img_responseMapToFrame, checked_map]
  simp [Response.getStringField, hvalue]

theorem parseCommandList_commandList :
    checked parseCommandList (img (responseMapToFrame (C := C)
      ((ResponseMap.ok.field "count" (.integer (Int64.ofNat Handlers.commandNames.length))).field
        "commands" (.array (Handlers.commandNames.map .string))))) =
      .ok Handlers.commandNames := by
  rw [img_responseMapToFrame, checked_map]
  simp [parseCommandList, ResponseMap.ok, ResponseMap.field, Function.comp_def, strings_map]

theorem parseNamespaceInfo_info (info : NamespaceInfo C) :
    checked TypedClient.parseNamespaceInfo (img (responseMapToFrame (C := C)
      (((ResponseMap.ok.field "name" (.string info.name)).field "key_count"
        (.integer info.keyCount.toInt64)).field "created_at"
        (.integer info.createdAt.toInt64)))) =
      .ok ⟨info.name, info.keyCount, info.createdAt⟩ := by
  rw [img_responseMapToFrame, checked_map]
  simp [TypedClient.parseNamespaceInfo, ResponseMap.ok, ResponseMap.field, Response.getIntField,
    Response.getStringField, Response.asStr]

end TypedClient

/-! ## Requests as they are understood -/

/-- The command that a method's request is parsed as asks the store what the method is for, and its
reply says what came of it. -/
structure Understood (hasEngine : Bool) (op : ClientOp)
    (program : Program (Op.Answer (C := C)) (Except (CommandError C) op.Result))
    (cmd : Command) : Prop where
  parse : parseCommand (C := C) (op.request C).frame = .ok cmd
  leaf : cmd.isPipeline = false
  access : cmd.aclRequirement = op.access
  plan : Program.Matches (Delivers op) (dispatch hasEngine cmd) program

theorem matches_query {op : ClientOp} {c : Call C}
    {finish : c.Answer → Except (CommandError C) (ResponseMap C)}
    {f : c.Answer → Except (CommandError C) op.Result}
    (h : ∀ answer, Delivers op (finish answer) (f answer)) :
    Program.Matches (Delivers op) (Handlers.query c finish) (inquire c f) :=
  .ask fun answer => .pure (h answer)

theorem matches_setConfig (key value : String) :
    Program.Matches (Delivers (.configSet key value)) (Handlers.configSet (C := C) key value)
      (setConfig key value) := by
  refine .ask ?_
  rintro (_ | timestamp)
  · exact .pure (.error _)
  refine .ask ?_
  rintro (e | _)
  · exact .pure (.error _)
  refine .ask ?_
  rintro (e | _)
  · exact .pure (.error _)
  refine matches_query ?_
  rintro (e | _)
  · exact .error _
  · exact .ok (decode_ok C)

/-! The requests whose options have to be read. -/

namespace ClientOp

theorem parse_putWithMetadata (ns : String) (key value : Bytes) {json : Json}
    (hjson : C.jsonFromStr (C.jsonToString json) = .ok json) :
    parseCommand (C := C) ((putWithMetadata ns key value json).request C).frame =
      .ok (.put ns (arriving key) (arriving value) (some json) none) := by
  refine (parseCommand_commandFrame parsePut (by decide) rfl).trans ?_
  rw [parsePut, parseOptions_sets valueOption rfl (sets_text _),
    parseOptions_sets metaOption rfl (sets_json hjson)]
  · rfl
  · simp

theorem parse_getVersion (ns : String) (key : Bytes) (version : UInt64) :
    parseCommand (C := C) ((getVersion ns key version).request C).frame =
      .ok (.get ns (arriving key) (some version) false) := by
  refine (parseCommand_commandFrame parseGet (by decide) rfl).trans ?_
  rw [parseGet, parseOptions_sets versionOption rfl (sets_number version)]
  rfl

theorem parse_listPrefix (ns start : String) :
    parseCommand (C := C) ((listPrefix ns start).request C).frame =
      .ok (.list ns (some (utf8 start)) none none) := by
  refine (parseCommand_commandFrame parseList (by decide) rfl).trans ?_
  rw [parseList, parseOptions_sets prefixOption rfl (sets_text start)]
  rfl

theorem parse_listCursor (ns cursor : String) (limit : UInt64) :
    parseCommand (C := C) ((listCursor ns cursor limit).request C).frame =
      .ok (.list ns none (some cursor) (some limit)) := by
  refine (parseCommand_commandFrame parseList (by decide) rfl).trans ?_
  rw [parseList, parseOptions_sets cursorOption rfl (sets_text cursor),
    parseOptions_sets limitOption rfl (sets_number limit)]
  rfl

end ClientOp

/-- Every method that has a meaning is understood. The cases follow the methods: how the request is
parsed, and what is read from each reply to the one call that is made. -/
theorem ClientOp.exists_understood {hasEngine : Bool} {op : ClientOp}
    {program : Program (Op.Answer (C := C)) (Except (CommandError C) op.Result)}
    (hmeaning : op.meaning C hasEngine = some program) (hsend : op.Sendable C) :
    ∃ cmd, Understood hasEngine op program cmd := by
  cases op with
  | auth token => cases hmeaning
  | pipeline commands requestId => cases hmeaning
  | rawCommand args => cases hmeaning
  | ping =>
    obtain rfl := Option.some.inj hmeaning
    exact ⟨.ping, parseCommand_commandFrame (fun _ => .ok .ping) (by decide) rfl, rfl, rfl,
      .pure (.ok rfl)⟩
  | put ns key value =>
    obtain rfl := Option.some.inj hmeaning
    refine ⟨_, parseCommand_commandFrame parsePut (by decide) rfl, rfl, rfl, matches_query ?_⟩
    rintro (e | v)
    · exact .error _
    · exact .ok (decode_version v)
  | putWithMetadata ns key value json =>
    obtain rfl := Option.some.inj hmeaning
    have hjson := hsend.json ns key value json rfl
    refine ⟨_, parse_putWithMetadata ns key value hjson, rfl, rfl, ?_⟩
    simp only [dispatch, Handlers.put]
    cases Handlers.parseMetadata (C := C) (some json) with
    | error e => exact .pure (.error e)
    | ok metadata =>
      refine matches_query ?_
      rintro (e | v)
      · exact .error _
      · exact .ok (decode_version v)
  | get ns key =>
    obtain rfl := Option.some.inj hmeaning
    refine ⟨_, parseCommand_commandFrame parseGet (by decide) rfl, rfl, rfl, matches_query ?_⟩
    rintro (e | entry)
    · exact .error _
    · exact .ok (TypedClient.parseGetResult_get entry)
  | getVersion ns key version =>
    obtain rfl := Option.some.inj hmeaning
    refine ⟨_, parse_getVersion ns key version, rfl, rfl, matches_query ?_⟩
    rintro (e | entry)
    · exact .error _
    · exact .ok (TypedClient.parseGetResult_get entry)
  | delete ns key =>
    obtain rfl := Option.some.inj hmeaning
    refine ⟨_, parseCommand_commandFrame parseDelete (by decide) rfl, rfl, rfl, matches_query ?_⟩
    rintro (e | v)
    · exact .error _
    · exact .ok (decode_version v)
  | list ns =>
    obtain rfl := Option.some.inj hmeaning
    refine ⟨_, parseCommand_commandFrame parseList (by decide) rfl, rfl, rfl, matches_query ?_⟩
    rintro (e | page)
    · exact .error _
    · exact .ok (TypedClient.parseKeyList_keys page)
  | listPrefix ns start =>
    obtain rfl := Option.some.inj hmeaning
    refine ⟨_, parse_listPrefix ns start, rfl, rfl, matches_query ?_⟩
    rintro (e | page)
    · exact .error _
    · exact .ok (TypedClient.parseKeyList_keys page)
  | listCursor ns cursor limit =>
    obtain rfl := Option.some.inj hmeaning
    refine ⟨_, parse_listCursor ns cursor limit, rfl, rfl, matches_query ?_⟩
    rintro (e | page)
    · exact .error _
    · exact .ok (TypedClient.parseKeyList_keys page)
  | versions ns key =>
    obtain rfl := Option.some.inj hmeaning
    refine ⟨_, parseCommand_commandFrame parseVersions (by decide) rfl, rfl, rfl,
      matches_query ?_⟩
    rintro (e | infos)
    · exact .error _
    · exact .ok (TypedClient.parseVersions_versions infos)
  | namespaceCreate name =>
    obtain rfl := Option.some.inj hmeaning
    refine ⟨_, parseCommand_commandFrame parseNamespace (by decide) rfl, rfl, rfl,
      matches_query ?_⟩
    rintro (e | _)
    · exact .error _
    · exact .ok (decode_ok C)
  | namespaceDrop name force =>
    obtain rfl := Option.some.inj hmeaning
    refine ⟨_, RemoteStore.parse_namespaceDrop name force, rfl, rfl, matches_query ?_⟩
    rintro (e | _)
    · exact .error _
    · exact .ok (decode_ok C)
  | namespaceList =>
    obtain rfl := Option.some.inj hmeaning
    refine ⟨_, parseCommand_commandFrame parseNamespace (by decide) rfl, rfl, rfl,
      matches_query ?_⟩
    rintro (e | page)
    · exact .error _
    · exact .ok (TypedClient.parseNamespaceList_namespaces page)
  | namespaceInfo name =>
    obtain rfl := Option.some.inj hmeaning
    refine ⟨_, parseCommand_commandFrame parseNamespace (by decide) rfl, rfl, rfl,
      matches_query ?_⟩
    rintro (e | info)
    · exact .error _
    · exact .ok (TypedClient.parseNamespaceInfo_info info)
  | health =>
    obtain rfl := Option.some.inj hmeaning
    exact ⟨.health, parseCommand_commandFrame (fun _ => .ok .health) (by decide) rfl, rfl, rfl,
      .pure (.ok rfl)⟩
  | configGet key =>
    obtain rfl := Option.some.inj hmeaning
    refine ⟨_, parseCommand_commandFrame parseConfig (by decide) rfl, rfl, rfl, ?_⟩
    cases hasEngine with
    | false => exact .pure (.error _)
    | true =>
      refine matches_query ?_
      rintro (_ | entry)
      · exact .ok (TypedClient.getValue_configGet key .null [] rfl)
      · exact .ok (TypedClient.getValue_configGet key (.string entry.value)
          [("source", .string entry.source)] (by simp [asStr_string]))
  | configSet key value =>
    obtain rfl := Option.some.inj hmeaning
    refine ⟨_, parseCommand_commandFrame parseConfig (by decide) rfl, rfl, rfl, ?_⟩
    cases hasEngine with
    | false => exact .pure (.error _)
    | true => exact matches_setConfig key value
  | commandList =>
    obtain rfl := Option.some.inj hmeaning
    exact ⟨_, parseCommand_commandFrame parseCommandSub (by decide) rfl, rfl, rfl,
      .pure (.ok TypedClient.parseCommandList_commandList)⟩

/-! ## Refinement -/

section
variable {B : Backend C σ} {auth : Option C.AuthContext} {d : Dispatcher C σ} {op : ClientOp}
  {program : Program (Op.Answer (C := C)) (Except (CommandError C) op.Result)} {cmd : Command}

/-- The server's reply says what the method without the wire returns. -/
theorem Understood.serveFrame_eq (h : Understood B.hasEngine op program cmd)
    (auth : Option C.AuthContext) (d : Dispatcher C σ) :
    ∃ result, serveFrame B auth (op.request C).frame d =
        (responseToFrame (toResponse result), (op.outcome B auth program d).2) ∧
      Delivers op result (op.outcome B auth program d).1 := by
  have hran : ((dispatch B.hasEngine cmd).run (Dispatcher.answer B) d).2 =
      (program.run (Dispatcher.answer B) d).2 ∧ _ := h.plan.run d
  obtain ⟨hstate, hresult⟩ := hran
  simp only [serveFrame, h.parse, execute_leaf h.leaf, executeLeaf, h.access, ClientOp.outcome]
  cases aclCheck auth op.access with
  | some e => exact ⟨.error e, rfl, .error e⟩
  | none => exact ⟨_, by rw [← hstate], hresult⟩

theorem ClientOp.decode_error {hasEngine : Bool} (h : op.meaning C hasEngine = some program)
    (text : String) : op.decode C (.error text) = .error (.server text) := by
  cases op <;> first | rfl | cases h

theorem ClientOp.readFrame_direct (hsend : op.Sendable C) :
    readFrame false (op.direct C) = .done (some (op.request C).frame) [] := by
  have hread := reads_writeFrame (op.request C).frame hsend.limits false []
  rw [List.append_nil] at hread
  rw [ClientOp.direct, Request.written_none]
  exact hread

variable {conn : ClientConnection C σ}

/-- Whatever the client reads, the server does what the method is for. -/
theorem ClientOp.run_dispatcher (hmeaning : op.meaning C B.hasEngine = some program)
    (hsend : op.Sendable C) :
    (op.run B auth conn).2.dispatcher = (op.outcome B auth program conn.dispatcher).2 := by
  obtain ⟨cmd, hcmd⟩ := exists_understood hmeaning hsend
  obtain ⟨result, hserve, -⟩ := hcmd.serveFrame_eq auth conn.dispatcher
  have hsubmit : (conn.submit B auth (op.direct C)).2.dispatcher =
      (op.outcome B auth program conn.dispatcher).2 := by
    rw [ClientConnection.submit_dispatcher (readFrame_direct hsend), hserve]
  rw [← hsubmit, ClientOp.run]
  generalize conn.submit B auth (op.direct C) = submitted
  obtain ⟨response | response, after⟩ := submitted <;> rfl

/-- On a connection with nothing unread, a call whose reply can be read returns what the method is
for, and leaves nothing unread. -/
theorem ClientOp.run_eq (hmeaning : op.meaning C B.hasEngine = some program)
    (hsend : op.Sendable C) (hunread : conn.unread = [])
    (hreadable : op.Readable B auth conn.dispatcher) :
    op.run B auth conn = ((op.outcome B auth program conn.dispatcher).1.mapError
      fun e => .error (.server e.text), ⟨[], (op.outcome B auth program conn.dispatcher).2⟩) := by
  obtain ⟨cmd, hcmd⟩ := exists_understood hmeaning hsend
  obtain ⟨result, hserve, hdelivers⟩ := hcmd.serveFrame_eq auth conn.dispatcher
  rw [ClientOp.run, ClientConnection.submit_eq (readFrame_direct hsend) hunread hreadable, hserve]
  generalize (op.outcome B auth program conn.dispatcher).1 = outcome at hdelivers ⊢
  cases hdelivers with
  | @ok m a hdecode => simp only [toResponse, responseToFrame, hdecode, Except.mapError]
  | error e =>
    simp only [toResponse, responseToFrame, img, decode_error hmeaning, Except.mapError]

end

/-- Calls that leave nothing on the connection act on the server as what the methods are for. -/
theorem ClientOp.run_calls {calls : List ClientOp} (B : Backend C σ) (auth : Option C.AuthContext)
    (d : Dispatcher C σ)
    (hcalls : Schedule.Guarded (fun conn op => (ClientOp.run B auth op conn).2)
      (ClientOp.Served B auth) ⟨[], d⟩ calls) :
    Schedule.run (fun conn op => (ClientOp.run B auth op conn).2) ⟨[], d⟩ calls =
      ⟨[], Schedule.run (fun d op => op.after B auth d) d calls⟩ := by
  induction calls generalizing d with
  | nil => rfl
  | cons op calls ih =>
    obtain ⟨hserved, hrest⟩ := hcalls
    obtain ⟨program, hmeaning⟩ := Option.isSome_iff_exists.mp hserved.meant
    have hafter : (ClientOp.run B auth op ⟨[], d⟩).2 = ⟨[], op.after B auth d⟩ := by
      rw [run_eq hmeaning hserved.sendable rfl hserved.readable, ClientOp.after, hmeaning]
    dsimp only at hrest
    rw [hafter] at hrest
    exact (congrArg (fun conn => Schedule.run _ conn calls) hafter).trans (ih _ hrest)

/-- A client that has made any calls on its one connection, all of them methods with a meaning whose
replies it could read, has left the server as if it had been asked directly, and nothing on the
connection. The server then does what the next call is for; and if its reply can be read too, its
result comes back as it is, or as the text of the error. -/
theorem typed_client_refines (B : Backend C σ) (auth : Option C.AuthContext) (d : Dispatcher C σ)
    (calls : List ClientOp)
    (hcalls : Schedule.Guarded (fun conn op => (ClientOp.run B auth op conn).2)
      (ClientOp.Served B auth) ⟨[], d⟩ calls) (op : ClientOp)
    {program : Program (Op.Answer (C := C)) (Except (CommandError C) op.Result)}
    (hmeaning : op.meaning C B.hasEngine = some program) (hsend : op.Sendable C) :
    let conn := Schedule.run (fun conn op => (ClientOp.run B auth op conn).2) ⟨[], d⟩ calls
    let d' := Schedule.run (fun d op => op.after B auth d) d calls
    conn = ⟨[], d'⟩ ∧
      (op.run B auth conn).2.dispatcher = (op.outcome B auth program d').2 ∧
      (op.Readable B auth d' → op.run B auth conn =
        ((op.outcome B auth program d').1.mapError fun e => .error (.server e.text),
          ⟨[], (op.outcome B auth program d').2⟩)) := by
  intro conn d'
  have hconn : conn = ⟨[], d'⟩ := ClientOp.run_calls B auth d hcalls
  rw [hconn]
  refine ⟨rfl, ClientOp.run_dispatcher hmeaning hsend, fun hreadable => ?_⟩
  exact ClientOp.run_eq hmeaning hsend rfl hreadable

end

namespace Memory

theorem sendable_put : (ClientOp.put "a" [254] [118]).Sendable crates :=
  ⟨by decide, by rintro _ _ _ _ ⟨⟩⟩

theorem sendable_get : (ClientOp.get "a" [255]).Sendable crates :=
  ⟨by decide, by rintro _ _ _ _ ⟨⟩⟩

theorem arriving_bytes :
    arriving [254] = utf8 "\uFFFD" ∧ arriving [255] = utf8 "\uFFFD" ∧ arriving [118] = [118] := by
  decide

/-- The only record of the store, under a key that stands for every byte that is no text. -/
def unreadable : Record := ⟨"a", utf8 "\uFFFD", [118], 1⟩

theorem get_unreadable : get [unreadable] "a" (arriving [255]) =
    .ok ⟨utf8 "\uFFFD", [118], 1, (), 0, 0⟩ := by
  rw [arriving_bytes.2.1]
  simp [get, find, unreadable]

section
variable {d : Dispatcher crates State} (hstore : d.store = [unreadable])

include hstore in
theorem outcome_get {program : Program (Op.Answer (C := crates))
      (Except (CommandError crates) (ClientOp.get "a" [255]).Result)}
    (hmeaning : (ClientOp.get "a" [255]).meaning crates backend.hasEngine = some program) :
    (ClientOp.outcome backend (some admin) (.get "a" [255]) program d).1 =
      .ok ⟨utf8 "\uFFFD", [118], 1, none⟩ := by
  obtain rfl := Option.some.inj hmeaning
  change (Except.map typedEntry (get d.store "a" (arriving [255]))).mapError _ = _
  have hkey : arriving (utf8 "\uFFFD") = utf8 "\uFFFD" := by simp [arriving]
  rw [hstore, get_unreadable]
  simp only [Except.map, Except.mapError, typedEntry, hkey, arriving_bytes.2.2]
  rfl

include hstore in
theorem readable_get : ClientOp.Readable backend (some admin) (.get "a" [255]) d := by
  have hparse : parseCommand (C := crates) ((ClientOp.get "a" [255]).request crates).frame =
      .ok (.get "a" (arriving [255]) none false) :=
    parseCommand_commandFrame parseGet (by decide) rfl
  have hget : backend.perform (.get "a" (arriving [255]) none) d.store =
      (.ok ⟨utf8 "\uFFFD", [118], 1, (), 0, 0⟩, d.store) := by
    rw [hstore]
    exact congrArg (·, [unreadable]) get_unreadable
  have hreply : (serveFrame backend (some admin)
      ((ClientOp.get "a" [255]).request crates).frame d).1 = responseToFrame (C := crates)
        (.success (((ResponseMap.ok.field "key" (.bytes (utf8 "\uFFFD"))).field "value"
          (.bytes [118])).field "version" (.integer 1))) := by
    have hallowed : aclCheck (C := crates) (some admin)
        (Command.get "a" (arriving [255]) none false).aclRequirement = none := rfl
    simp only [serveFrame, hparse]
    rw [execute_leaf rfl, executeLeaf]
    simp only [hallowed, dispatch, Handlers.get, run_query, hget, toResponse]
    rfl
  rw [ClientOp.Readable, hreply]
  constructor
  · simp [responseToFrame, responseMapToFrame, ResponseMap.ok, ResponseMap.field,
      responseFieldsToPairs, responseValueToFrame, InMemory, InMemoryPairs, Response.responseSize,
      Response.maxAllocation]
    decide
  · simp [LineSafe, lineTexts_success]

end

theorem readable_put :
    ClientOp.Readable backend (some admin) (.put "a" [254] [118]) (fresh []) := by
  have hreply : (serveFrame backend (some admin)
      ((ClientOp.put "a" [254] [118]).request crates).frame (fresh [])).1 =
        responseMapToFrame (C := crates) (Handlers.version 1) := rfl
  rw [ClientOp.Readable, hreply]
  exact legible_version 1

theorem store_after_put :
    (ClientOp.after backend (some admin) (.put "a" [254] [118]) (fresh [])).store =
      [unreadable] := by
  change [⟨"a", arriving [254], arriving [118], 1⟩] = [unreadable]
  rw [arriving_bytes.1, arriving_bytes.2.2, unreadable]

/-- Two keys that are no text become one: what is put under the first is found under the second. -/
theorem keys_without_text_collide :
    (ClientOp.run backend (some admin) (.get "a" [255])
      (Schedule.run (fun conn op => (ClientOp.run backend (some admin) op conn).2) ⟨[], fresh []⟩
        [.put "a" [254] [118]])).1 = .ok ⟨utf8 "\uFFFD", [118], 1, none⟩ := by
  obtain ⟨-, -, hrun⟩ := typed_client_refines backend (some admin) (fresh [])
    [.put "a" [254] [118]] ⟨⟨sendable_put, rfl, readable_put⟩, trivial⟩ (.get "a" [255]) rfl
    sendable_get
  refine (congrArg Prod.fst (hrun (readable_get store_after_put))).trans ?_
  exact congrArg (Except.mapError fun e => .error (.server e.text))
    (outcome_get store_after_put rfl)

end Memory

end Shroudb
