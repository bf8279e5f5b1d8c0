import Shroudb.MemoryStore
import Shroudb.Protocol.AclCoverage
import Shroudb.Protocol.Parsable
import Shroudb.Client.Encoding

/-! `RemoteStore` over the wire does what the store behind the server does. -/
namespace Shroudb
open Wire Resp3Frame

variable {C : Crates} {σ : Type}

/-! ## Operations -/

/-- The calls of `RemoteStore` whose results survive the wire. Keys, prefixes and values are
UTF-8. -/
inductive StoreOp (C : Crates) where
  | put (ns key value : String) (metadata : Option C.Metadata)
  | get (ns key : String) (version : Option UInt64)
  | delete (ns key : String)
  | putIfVersion (ns key value : String) (metadata : Option C.Metadata) (expectedVersion : UInt64)
  | deleteIfVersion (ns key : String) (expectedVersion : UInt64)
  | deletePrefix (ns keyPrefix : String) (nonempty : keyPrefix ≠ "")
  | list (ns : String) (keyPrefix cursor : Option String) (limit : UInt64)
  | versions (ns key : String) (limit : UInt64) (fromVersion : Option UInt64)
  | namespaceCreate (ns : String) (config : NamespaceConfig C)
  | namespaceDrop (ns : String) (force : Bool)
  | namespaceAlter (ns : String) (config : NamespaceConfig C)
  | namespaceList (cursor : Option String) (limit : UInt64)

namespace StoreOp

def Result : StoreOp C → Type
  | .put .. | .delete .. | .putIfVersion .. | .deleteIfVersion .. | .deletePrefix .. => UInt64
  | .get .. => Entry C
  | .list .. | .namespaceList .. => Page
  | .versions .. => List VersionInfo
  | .namespaceCreate .. | .namespaceDrop .. | .namespaceAlter .. => Unit

/-- How `RemoteStore` performs the operation. -/
def method : (op : StoreOp C) → Method C op.Result
  | .put ns key value metadata => RemoteStore.put ns (utf8 key) (utf8 value) metadata
  | .get ns key version => RemoteStore.get ns (utf8 key) version
  | .delete ns key => RemoteStore.delete ns (utf8 key)
  | .putIfVersion ns key value metadata expected =>
    RemoteStore.putIfVersion ns (utf8 key) (utf8 value) metadata expected
  | .deleteIfVersion ns key expected => RemoteStore.deleteIfVersion ns (utf8 key) expected
  | .deletePrefix ns keyPrefix _ => RemoteStore.deletePrefix ns (utf8 keyPrefix)
  | .list ns keyPrefix cursor limit => RemoteStore.list ns (keyPrefix.map utf8) cursor limit
  | .versions ns key limit fromVersion => RemoteStore.versions ns (utf8 key) limit fromVersion
  | .namespaceCreate ns config => RemoteStore.namespaceCreate ns config
  | .namespaceDrop ns force => RemoteStore.namespaceDrop ns force
  | .namespaceAlter ns config => RemoteStore.namespaceAlter ns config
  | .namespaceList cursor limit => RemoteStore.namespaceList cursor limit

/-- How the store behind the server performs it. `put` is `put_with_options` without any option
but the metadata. -/
def call : StoreOp C → Call C
  | .put ns key value metadata => .putWithOptions ns (utf8 key) (utf8 value) ⟨metadata, none, none⟩
  | .get ns key version => .get ns (utf8 key) version
  | .delete ns key => .delete ns (utf8 key)
  | .putIfVersion ns key value metadata expected =>
    .putIfVersion ns (utf8 key) (utf8 value) metadata expected
  | .deleteIfVersion ns key expected => .deleteIfVersion ns (utf8 key) expected
  | .deletePrefix ns keyPrefix _ => .deletePrefix ns (utf8 keyPrefix)
  | .list ns keyPrefix cursor limit => .list ns (keyPrefix.map utf8) cursor limit
  | .versions ns key limit fromVersion => .versions ns (utf8 key) limit fromVersion
  | .namespaceCreate ns config => .namespaceCreate ns config
  | .namespaceDrop ns force => .namespaceDrop ns force
  | .namespaceAlter ns config => .namespaceAlter ns config
  | .namespaceList cursor limit => .namespaceList cursor limit

/-- The store's call succeeded, and `a` is its result. A `get` keeps key, value and version. -/
def Returns : (op : StoreOp C) → op.call.Answer → op.Result → Prop
  | .put .., answer, v => answer = Except.ok v
  | .get .., answer, e => ∃ entry : Entry C, answer = Except.ok entry ∧ Textual entry.key ∧
      Textual entry.value ∧ e = (⟨entry.key, entry.value, entry.version, C.metadataDefault, 0, 0⟩ :
        Entry C)
  | .delete .., answer, v => answer = Except.ok v
  | .putIfVersion .., answer, v => answer = Except.ok v
  | .deleteIfVersion .., answer, v => answer = Except.ok v
  | .deletePrefix .., answer, n => answer = Except.ok n
  | .list .., answer, page => answer = Except.ok page ∧ ∀ k ∈ Page.keys page, Textual k
  | .versions .., answer, infos => answer = Except.ok infos
  | .namespaceCreate .., answer, u => answer = Except.ok u
  | .namespaceDrop .., answer, u => answer = Except.ok u
  | .namespaceAlter .., answer, u => answer = Except.ok u
  | .namespaceList .., answer, page => answer = Except.ok page ∧ ∀ k ∈ Page.keys page, Textual k

/-- What the operation sends of metadata and schemas is read back as it was. -/
def RoundTrips : StoreOp C → Prop
  | .put _ _ _ metadata | .putIfVersion _ _ _ metadata _ => ∀ m ∈ metadata, MetadataRoundTrips m
  | .namespaceCreate _ config | .namespaceAlter _ config =>
    ∀ s ∈ config.metaSchema, SchemaRoundTrips s
  | _ => True

end StoreOp

/-! ## Replies -/

theorem img_responseMapToFrame (m : ResponseMap C) :
    img (responseMapToFrame m) =
      .map (m.map fun p => (.string p.1, img (responseValueToFrame p.2))) := by
  simp [responseMapToFrame, img, imgPairs_eq, responseFieldsToPairs_eq]

@[simp] theorem img_string (s : String) :
    img (responseValueToFrame (C := C) (.string s)) = .string s := by
  simp [responseValueToFrame, img]

@[simp] theorem img_integer (n : Int64) :
    img (responseValueToFrame (C := C) (.integer n)) = .integer n := by
  simp [responseValueToFrame, img]

@[simp] theorem img_bytes (s : String) :
    img (responseValueToFrame (C := C) (.bytes (utf8 s))) = .string s := by
  simp [responseValueToFrame, img]

@[simp] theorem img_array (items : List (ResponseValue C)) :
    img (responseValueToFrame (.array items)) =
      .array (items.map fun v => img (responseValueToFrame v)) := by
  simp [responseValueToFrame, img, imgAll_eq, responseValuesToFrames_eq]

@[simp] theorem getField_cons {name key : String} {v : Response}
    {entries : List (Response × Response)} :
    (Response.map ((.string name, v) :: entries)).getField key =
      if name = key then some v else (Response.map entries).getField key := by
  by_cases h : name = key <;> simp [Response.getField, Response.toDisplayString, h]

@[simp] theorem getField_nil {key : String} : (Response.map []).getField key = none := rfl

theorem asStr_string (s : String) : (Response.string s).asStr = some s := rfl

namespace RemoteStore

theorem clientVersion_version (C : Crates) (v : UInt64) :
    (clientVersion (img (responseMapToFrame (C := C) (Handlers.version v)))).mapError clientErr =
      (.ok v : Except (StoreError C.ValidationError) UInt64) := by
  rw [img_responseMapToFrame]
  simp [Except.mapError, clientVersion, Handlers.version, ResponseMap.ok, ResponseMap.field,
    Response.checkOk, Response.getIntField, bind, Except.bind]

theorem rawNumber_field (name : String) (n : UInt64) (h : name ≠ "status") :
    rawNumber (C := C) name (img (responseMapToFrame (C := C)
      (ResponseMap.ok.field name (.integer n.toInt64)))) = .ok n := by
  rw [img_responseMapToFrame]
  simp [rawNumber, ResponseMap.ok, ResponseMap.field, h.symm,
    Response.asInt]

theorem decodeEntry_get (C : Crates) (key value : String) (v : UInt64) :
    (decodeEntry (img (responseMapToFrame (C := C) (((ResponseMap.ok.field "key"
      (.bytes (utf8 key))).field "value" (.bytes (utf8 value))).field "version"
      (.integer v.toInt64))))).mapError clientErr =
      (.ok ⟨utf8 key, utf8 value, v, C.metadataDefault, 0, 0⟩ :
        Except (StoreError C.ValidationError) (Entry C)) := by
  rw [img_responseMapToFrame]
  simp [Except.mapError, decodeEntry, parseGetResult, ResponseMap.ok, ResponseMap.field,
    Response.checkOk, Response.getIntField, Response.getStringField, Response.asStr,
    decodeMetadata, bind, Except.bind, pure, Except.pure]

theorem decodePage_pageFields {name : String} (hstatus : name ≠ "status") (hname : name ≠ "cursor")
    {items : List (ResponseValue C)} {texts : List String}
    (hitems : items.map (fun v => img (responseValueToFrame v)) = texts.map .string)
    (cursor : Option String) :
    decodePage (C := C) name (img (responseMapToFrame (Handlers.pageFields name items cursor))) =
      .ok ⟨texts.map utf8, cursor⟩ := by
  have hkeys : (texts.map Response.string).filterMap (fun r => r.asStr.map utf8) =
      texts.map utf8 := by
    simp [List.filterMap_map, Response.asStr]
  rw [img_responseMapToFrame]
  cases cursor <;>
    simp [decodePage, Handlers.pageFields, ResponseMap.ok, ResponseMap.field, hstatus.symm, hname,
      Response.getStringField, hitems, hkeys, asStr_string]

theorem decodeVersion_versionEntry (info : VersionInfo) :
    decodeVersion (img (responseValueToFrame (C := C) (Handlers.versionEntry info))) = info := by
  have hentry : img (responseValueToFrame (C := C) (Handlers.versionEntry info)) = .map
      [(.string "status", .string "OK"), (.string "version", .integer info.version.toInt64),
       (.string "state", .string (Handlers.stateText info.state)),
       (.string "updated_at", .integer info.updatedAt.toInt64),
       (.string "actor", .string info.actor)] := by
    rw [Handlers.versionEntry, responseValueToFrame]
    refine (img_responseMapToFrame _).trans ?_
    simp [ResponseMap.ok, ResponseMap.field]
  obtain ⟨version, state, updatedAt, actor⟩ := info
  rw [hentry]
  cases state <;>
    simp [decodeVersion, Response.getIntField, Response.getStringField, Response.asStr,
      Handlers.stateText, decodeState]

theorem versions_decode (ns key : String) (limit : UInt64) (fromVersion : Option UInt64)
    (infos : List VersionInfo) :
    (versions (C := C) ns (utf8 key) limit fromVersion).decode (img (responseMapToFrame (C := C)
      (ResponseMap.ok.field "versions" (.array (infos.map Handlers.versionEntry))))) =
      .ok infos := by
  rw [img_responseMapToFrame]
  simp [versions, ResponseMap.ok, ResponseMap.field, decodeVersion_versionEntry,
    Function.comp_def]

end RemoteStore

theorem exists_texts {keys : List Bytes} (h : ∀ k ∈ keys, Textual k) :
    ∃ texts : List String, keys = texts.map utf8 := by
  induction keys with
  | nil => exact ⟨[], rfl⟩
  | cons k keys ih =>
    obtain ⟨s, rfl⟩ := h k (by simp)
    obtain ⟨texts, rfl⟩ := ih fun k hk => h k (by simp [hk])
    exact ⟨s :: texts, rfl⟩

/-! ## Serving an operation -/

/-- The command an operation arrives as makes the operation's call, and the reply to its answer
is decoded to the operation's result. -/
structure Served (hasEngine : Bool) (op : StoreOp C) (cmd : Command)
    (finish : op.call.Answer → Except (CommandError C) (ResponseMap C)) : Prop where
  parse : parseCommand (C := C) (commandFrame op.method.args) = .ok cmd
  leaf : cmd.isPipeline = false
  requirement : cmd.aclRequirement = op.call.requirement
  plan : dispatch hasEngine cmd = Handlers.query op.call finish
  decode : ∀ answer a, op.Returns answer a →
    ∃ m, finish answer = .ok m ∧ op.method.decode (img (responseMapToFrame m)) = .ok a

theorem parseMetadata_map {metadata : Option C.Metadata}
    (h : ∀ m ∈ metadata, MetadataRoundTrips m) :
    Handlers.parseMetadata (metadata.map C.metadataToJson) = .ok metadata := by
  cases metadata with
  | none => rfl
  | some m => simp [Handlers.parseMetadata, (h m rfl).value]

theorem dispatch_put (hasEngine : Bool) (ns : String) (key value : Bytes)
    (metadata : Option C.Metadata) (h : ∀ m ∈ metadata, MetadataRoundTrips m) :
    ∃ finish, dispatch hasEngine (.put ns key value (metadata.map C.metadataToJson) none) =
        Handlers.query (.putWithOptions ns key value ⟨metadata, none, none⟩) finish ∧
      ∀ v, finish (.ok v) = .ok (Handlers.version v) := by
  simp only [dispatch, Handlers.put, parseMetadata_map h]
  exact ⟨_, rfl, fun _ => rfl⟩

theorem dispatch_putIf (hasEngine : Bool) (ns : String) (key value : Bytes)
    (metadata : Option C.Metadata) (expected : UInt64)
    (h : ∀ m ∈ metadata, MetadataRoundTrips m) :
    ∃ finish,
      dispatch hasEngine (.putIf ns key value (metadata.map C.metadataToJson) expected) =
        Handlers.query (.putIfVersion ns key value metadata expected) finish ∧
      ∀ v, finish (.ok v) = .ok (Handlers.version v) := by
  simp only [dispatch, Handlers.putIf, parseMetadata_map h]
  exact ⟨_, rfl, fun _ => rfl⟩

theorem StoreOp.exists_served_get (hasEngine : Bool) (ns key : String) (version : Option UInt64) :
    ∃ cmd finish, Served (C := C) hasEngine (.get ns key version) cmd finish := by
  refine ⟨_, _, RemoteStore.parse_get ns key version, rfl, rfl, rfl, ?_⟩
  rintro _ _ ⟨⟨_, _, v, metadata, _, _⟩, rfl, ⟨key', rfl⟩, ⟨value', rfl⟩, rfl⟩
  exact ⟨_, rfl, RemoteStore.decodeEntry_get C key' value' v⟩

/-- Every operation is served. -/
theorem StoreOp.exists_served (hasEngine : Bool) (op : StoreOp C) (h : op.RoundTrips) :
    ∃ cmd finish, Served hasEngine op cmd finish := by
  cases op with
  | put ns key value metadata =>
    obtain ⟨finish, hplan, hfinish⟩ := dispatch_put hasEngine ns (utf8 key) (utf8 value) metadata h
    refine ⟨_, finish, RemoteStore.parse_put ns key value metadata h, rfl, rfl, hplan, ?_⟩
    rintro _ v rfl
    exact ⟨_, hfinish v, RemoteStore.clientVersion_version C v⟩
  | get ns key version => exact exists_served_get hasEngine ns key version
  | delete ns key =>
    refine ⟨_, _, RemoteStore.parse_delete ns key, rfl, rfl, rfl, ?_⟩
    rintro _ v rfl
    exact ⟨_, rfl, RemoteStore.clientVersion_version C v⟩
  | putIfVersion ns key value metadata expected =>
    obtain ⟨finish, hplan, hfinish⟩ :=
      dispatch_putIf hasEngine ns (utf8 key) (utf8 value) metadata expected h
    refine ⟨_, finish, RemoteStore.parse_putIfVersion ns key value metadata expected h, rfl, rfl,
      hplan, ?_⟩
    rintro _ v rfl
    exact ⟨_, hfinish v, RemoteStore.rawNumber_field "version" v (by decide)⟩
  | deleteIfVersion ns key expected =>
    refine ⟨_, _, RemoteStore.parse_deleteIfVersion ns key expected, rfl, rfl, rfl, ?_⟩
    rintro _ v rfl
    exact ⟨_, rfl, RemoteStore.rawNumber_field "version" v (by decide)⟩
  | deletePrefix ns keyPrefix nonempty =>
    refine ⟨_, _, RemoteStore.parse_deletePrefix ns keyPrefix ?_, rfl, rfl, rfl, ?_⟩
    · intro hnil
      exact nonempty (utf8_injective (hnil.trans (by decide)))
    · rintro _ n rfl
      exact ⟨_, rfl, RemoteStore.rawNumber_field "deleted" n (by decide)⟩
  | list ns keyPrefix cursor limit =>
    refine ⟨_, _, RemoteStore.parse_list ns keyPrefix cursor limit, rfl, rfl, rfl, ?_⟩
    rintro _ ⟨keys, cursor'⟩ ⟨rfl, hkeys⟩
    obtain ⟨texts, rfl⟩ := exists_texts hkeys
    exact ⟨_, rfl, RemoteStore.decodePage_pageFields (by decide) (by decide) (by simp) cursor'⟩
  | versions ns key limit fromVersion =>
    refine ⟨_, _, RemoteStore.parse_versions ns key limit fromVersion, rfl, rfl, rfl, ?_⟩
    rintro _ infos rfl
    exact ⟨_, rfl, RemoteStore.versions_decode ns key limit fromVersion infos⟩
  | namespaceCreate ns config =>
    obtain ⟨schema, hparse, hconfig⟩ := RemoteStore.parse_namespaceCreate ns config h
    refine ⟨_, Handlers.acknowledge, hparse, rfl, rfl, ?_, ?_⟩
    · simp only [dispatch, Handlers.namespaceCreate, hconfig]
      rfl
    · rintro _ _ rfl
      exact ⟨_, rfl, rfl⟩
  | namespaceDrop ns force =>
    refine ⟨_, _, RemoteStore.parse_namespaceDrop ns force, rfl, rfl, rfl, ?_⟩
    rintro _ _ rfl
    exact ⟨_, rfl, rfl⟩
  | namespaceAlter ns config =>
    obtain ⟨schema, hparse, hconfig⟩ := RemoteStore.parse_namespaceAlter ns config h
    refine ⟨_, Handlers.acknowledge, hparse, rfl, rfl, ?_, ?_⟩
    · simp only [dispatch, Handlers.namespaceAlter, hconfig]
      rfl
    · rintro _ _ rfl
      exact ⟨_, rfl, rfl⟩
  | namespaceList cursor limit =>
    refine ⟨_, _, RemoteStore.parse_namespaceList cursor limit, rfl, rfl, rfl, ?_⟩
    rintro _ ⟨keys, cursor'⟩ ⟨rfl, hkeys⟩
    obtain ⟨texts, rfl⟩ := exists_texts hkeys
    exact ⟨_, rfl, RemoteStore.decodePage_pageFields (by decide) (by decide) (by simp) cursor'⟩

theorem aclCheck_of_authorised {ctx : C.AuthContext} {c : Call C}
    (h : Authorised (some ctx) c) : aclCheck (some ctx) c.requirement = none := by
  rcases h with hnone | ⟨_, hctx, hcheck⟩
  · rw [hnone]
    rfl
  · cases hctx
    unfold aclCheck
    split <;> simp_all

section
variable {B : Backend C σ} {ctx : C.AuthContext} {d : Dispatcher C σ} {op : StoreOp C}
  {cmd : Command} {finish : op.call.Answer → Except (CommandError C) (ResponseMap C)}

/-- A served operation is one call, and the handler's answer to it comes back. -/
theorem Served.exchange_eq (h : Served B.hasEngine op cmd finish)
    (hlimits : WithinLimits op.method.args) (hauth : Authorised (some ctx) op.call) :
    serveFrame B (some ctx) (commandFrame op.method.args) d =
        (responseToFrame (toResponse (finish (B.perform op.call d.store).1)),
          { d with store := (B.perform op.call d.store).2, calls := d.calls ++ [op.call] }) ∧
      exchange B (some ctx) op.method.args d =
        (receive (writeFrame (responseToFrame (toResponse (finish (B.perform op.call d.store).1)))),
          { d with store := (B.perform op.call d.store).2, calls := d.calls ++ [op.call] }) := by
  have hexec : execute B (some ctx) cmd d = (toResponse (finish (B.perform op.call d.store).1),
      { d with store := (B.perform op.call d.store).2, calls := d.calls ++ [op.call] }) := by
    rw [execute_leaf h.leaf, executeLeaf, h.requirement, aclCheck_of_authorised hauth, h.plan]
    rfl
  refine ⟨?_, ?_⟩
  · simp only [serveFrame, h.parse, hexec]
  · rw [Shroudb.exchange_eq hlimits h.parse, hexec]

/-- The commands that operations arrive as pass a connection without a rate limit. -/
theorem Served.handleFrame_eq {authRequired : Bool} {m : Moment C} {conn : Connection C}
    {now : UInt64} (h : Served B.hasEngine op cmd finish) (hauth : conn.auth = some ctx)
    (hlimit : conn.rateLimiter = none) (hwall : m.wall = some now)
    (hlive : C.isExpired ctx now = false) :
    (handleFrame B authRequired m conn d (commandFrame op.method.args)).written =
        [(serveFrame B (some ctx) (commandFrame op.method.args) d).1] ∧
      (handleFrame B authRequired m conn d (commandFrame op.method.args)).dispatcher =
        (serveFrame B (some ctx) (commandFrame op.method.args) d).2 := by
  refine handleFrame_eq_serveFrame hauth hlimit hwall hlive h.parse ?_ ?_
  · rintro token rfl
    cases h.plan
  · rintro ns key events rfl
    cases h.plan

theorem Method.run_snd {α τ : Type} (method : Method C α)
    (send : List String → τ → Except ReadFailure Response × τ) (s : τ) :
    (method.run send s).2 = (send method.args s).2 := by
  unfold Method.run
  split <;> simp_all

/-- The result of a served operation comes back when the client can hold the reply. -/
theorem Served.run_fst_eq (h : Served B.hasEngine op cmd finish)
    (hlimits : WithinLimits op.method.args) (hauth : Authorised (some ctx) op.call)
    {a : op.Result} (ha : op.Returns (B.perform op.call d.store).1 a)
    (hmem : InMemory (serveFrame B (some ctx) (commandFrame op.method.args) d).1) :
    (op.method.run (exchange B (some ctx)) d).1 = .ok a := by
  obtain ⟨hserve, hsend⟩ := h.exchange_eq (d := d) hlimits hauth
  obtain ⟨m, hm, hdecode⟩ := h.decode _ a ha
  have hsafe : LineSafe (responseToFrame (C := C) (.success m)) := by
    simp [LineSafe, lineTexts_success]
  rw [hserve, hm] at hmem
  rw [Method.run, hsend, hm, toResponse, receive_writeFrame hsafe hmem]
  change (op.method.decode (img (responseMapToFrame m))).mapError _ = _
  rw [hdecode, Except.mapError]

/-- What an operation leaves behind is what its call leaves behind. -/
theorem run_snd_eq (h : op.RoundTrips) (hlimits : WithinLimits op.method.args)
    (hauth : Authorised (some ctx) op.call) :
    (op.method.run (exchange B (some ctx)) d).2 =
      { d with store := (B.perform op.call d.store).2, calls := d.calls ++ [op.call] } := by
  obtain ⟨cmd, finish, hserved⟩ := op.exists_served B.hasEngine h
  rw [Method.run_snd, (hserved.exchange_eq hlimits hauth).2]

end

/-! ## Simulation -/

/-- The call that the operation stands for is made once and nothing else is; its result comes back
when the client can hold the reply. -/
structure Simulates (B : Backend C σ) (ctx : C.AuthContext) (op : StoreOp C)
    (d : Dispatcher C σ) : Prop where
  calls : (op.method.run (exchange B (some ctx)) d).2.calls = d.calls ++ [op.call]
  store : (op.method.run (exchange B (some ctx)) d).2.store = (B.perform op.call d.store).2
  result : ∀ a, op.Returns (B.perform op.call d.store).1 a →
    InMemory (serveFrame B (some ctx) (commandFrame op.method.args) d).1 →
    (op.method.run (exchange B (some ctx)) d).1 = .ok a

/-- Every operation within the limits, of a principal that may perform it, is simulated. -/
theorem remoteStore_simulates (B : Backend C σ) (ctx : C.AuthContext) (op : StoreOp C)
    (h : op.RoundTrips) (d : Dispatcher C σ) (hlimits : WithinLimits op.method.args)
    (hauth : Authorised (some ctx) op.call) : Simulates B ctx op d := by
  refine ⟨by rw [run_snd_eq h hlimits hauth], by rw [run_snd_eq h hlimits hauth], ?_⟩
  intro a ha hmem
  obtain ⟨cmd, finish, hserved⟩ := op.exists_served B.hasEngine h
  exact hserved.run_fst_eq hlimits hauth ha hmem

theorem Memory.roundTrips : RoundTrips Memory.crates where
  metadata _ := ⟨rfl, rfl⟩
  schema _ := ⟨.null, rfl, rfl⟩

/-- A namespace, a key and a value that are keywords, with metadata. -/
def Memory.keywordPut : StoreOp Memory.crates := .put "PIPELINE" "VALUE" "META" (some ())

theorem Memory.keyword_put_returns_version :
    Simulates Memory.backend Memory.admin Memory.keywordPut
        (Dispatcher.new [] (Stream'.const 0) (Stream'.const none)) ∧
      (Memory.keywordPut.method.run (exchange Memory.backend (some Memory.admin))
        (Dispatcher.new [] (Stream'.const 0) (Stream'.const none))).1 = .ok (1 : UInt64) := by
  have hsimulates := remoteStore_simulates Memory.backend Memory.admin Memory.keywordPut
    (fun m _ => Memory.roundTrips.metadata m)
    (Dispatcher.new [] (Stream'.const 0) (Stream'.const none)) ⟨by decide, by decide⟩
    (Or.inr ⟨Memory.admin, rfl, rfl⟩)
  exact ⟨hsimulates, hsimulates.result (1 : UInt64) rfl (legible_version 1).held⟩

/-! ## Runs -/

/-- The operations of one client, one after another. -/
def runOps (B : Backend C σ) (ctx : C.AuthContext) (ops : List (StoreOp C)) (d : Dispatcher C σ) :
    Dispatcher C σ :=
  ops.foldl (fun d op => (op.method.run (exchange B (some ctx)) d).2) d

/-- A client's run over the wire is the run of its calls on the store. -/
theorem runOps_eq (B : Backend C σ) (ctx : C.AuthContext) (ops : List (StoreOp C))
    (h : ∀ op ∈ ops, op.RoundTrips) (d : Dispatcher C σ)
    (hlimits : ∀ op ∈ ops, WithinLimits op.method.args)
    (hauth : ∀ op ∈ ops, Authorised (some ctx) op.call) :
    runOps B ctx ops d =
      { d with
        store := (ops.map StoreOp.call).foldl (fun s c => (B.perform c s).2) d.store
        calls := d.calls ++ ops.map StoreOp.call } := by
  induction ops generalizing d with
  | nil => simp [runOps]
  | cons op ops ih =>
    have hstep := run_snd_eq (B := B) (d := d) (h op (by simp)) (hlimits op (by simp))
      (hauth op (by simp))
    have hrest := ih (fun op hop => h op (by simp [hop]))
      (op.method.run (exchange B (some ctx)) d).2 (fun op hop => hlimits op (by simp [hop])) (fun op hop => hauth op (by simp [hop]))
    rw [runOps, List.foldl_cons]
    refine hrest.trans ?_
    simp [hstep]

end Shroudb
