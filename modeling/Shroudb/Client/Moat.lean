import Shroudb.Client.Pipeline

/-! What a client writes to a server, and what it writes to the Moat gateway before one. -/
namespace Shroudb
open Wire Resp3Frame

/-- The methods of `ShrouDBClient`. -/
inductive ClientOp where
  | auth (token : String)
  | ping
  | put (ns : String) (key value : Bytes)
  | putWithMetadata (ns : String) (key value : Bytes) (metadata : Json)
  | get (ns : String) (key : Bytes)
  | getVersion (ns : String) (key : Bytes) (version : UInt64)
  | delete (ns : String) (key : Bytes)
  | list (ns : String)
  | listPrefix (ns start : String)
  | versions (ns : String) (key : Bytes)
  | namespaceCreate (name : String)
  | namespaceDrop (name : String) (force : Bool)
  | namespaceList
  | namespaceInfo (name : String)
  | health
  | configGet (key : String)
  | configSet (key value : String)
  | listCursor (ns cursor : String) (limit : UInt64)
  | commandList
  | pipeline (commands : List (List String)) (requestId : Option String)
  | rawCommand (args : List String)

/-- How a method gets its request to the connection. -/
inductive Request where
  | command (args : List String)
  | metaCommand (args : List String)
  | pipeline (commands : List (List String)) (requestId : Option String)

def ClientOp.request (C : Crates) : ClientOp → Request
  | .auth token => .metaCommand ["AUTH", token]
  | .ping => .metaCommand ["PING"]
  | .put ns key value => .command ["PUT", ns, fromUtf8Lossy key, fromUtf8Lossy value]
  | .putWithMetadata ns key value metadata =>
    .command ["PUT", ns, fromUtf8Lossy key, "VALUE", fromUtf8Lossy value, "META",
      C.jsonToString metadata]
  | .get ns key => .command ["GET", ns, fromUtf8Lossy key]
  | .getVersion ns key version =>
    .command ["GET", ns, fromUtf8Lossy key, "VERSION", printUInt64 version]
  | .delete ns key => .command ["DELETE", ns, fromUtf8Lossy key]
  | .list ns => .command ["LIST", ns]
  | .listPrefix ns start => .command ["LIST", ns, "PREFIX", start]
  | .versions ns key => .command ["VERSIONS", ns, fromUtf8Lossy key]
  | .namespaceCreate name => .command ["NAMESPACE", "CREATE", name]
  | .namespaceDrop name force =>
    .command (if force then ["NAMESPACE", "DROP", name, "FORCE"] else ["NAMESPACE", "DROP", name])
  | .namespaceList => .command ["NAMESPACE", "LIST"]
  | .namespaceInfo name => .command ["NAMESPACE", "INFO", name]
  | .health => .metaCommand ["HEALTH"]
  | .configGet key => .command ["CONFIG", "GET", key]
  | .configSet key value => .command ["CONFIG", "SET", key, value]
  | .listCursor ns cursor limit =>
    .command ["LIST", ns, "CURSOR", cursor, "LIMIT", printUInt64 limit]
  | .commandList => .command ["COMMAND", "LIST"]
  | .pipeline commands requestId => .pipeline commands requestId
  | .rawCommand args => .command args

/-- The prefix of a connection: `connect` sets none, `connect_moat` the name of an engine. -/
def moatPrefix (engine : String) : Option String := some (toAsciiUppercase engine)

/-- The bytes a request puts on a connection. `send_command` alone looks at the prefix: meta
commands go through `send_raw`, and a pipeline is written by hand. -/
def Request.written (commandPrefix : Option String) : Request → Bytes
  | .command args =>
    match commandPrefix with
    | some engine => writeCommand (engine :: args)
    | none => writeCommand args
  | .metaCommand args => writeCommand args
  | .pipeline commands requestId => writePipeline commands requestId

/-- `ShrouDBClient::connect`. -/
def ClientOp.direct (C : Crates) (op : ClientOp) : Bytes := (op.request C).written none

/-- `ShrouDBClient::connect_moat`. -/
def ClientOp.moat (C : Crates) (op : ClientOp) : Bytes :=
  (op.request C).written (moatPrefix "SHROUDB")

/-! ## The frames -/

/-- A request with a word before all others. -/
def Resp3Frame.after (word : String) : Resp3Frame → Resp3Frame
  | .array frames => .array (.bulkString (utf8 word) :: frames)
  | f => f

def Request.frame : Request → Resp3Frame
  | .command args => commandFrame args
  | .metaCommand args => commandFrame args
  | .pipeline commands requestId => pipelineRequest commands requestId

/-- AUTH, PING and HEALTH are for the gateway itself. -/
def ClientOp.isMeta : ClientOp → Bool
  | .auth _ | .ping | .health => true
  | _ => false

/-- What the gateway should be sent for a request. -/
def ClientOp.routed (C : Crates) (op : ClientOp) : Resp3Frame :=
  if op.isMeta then (op.request C).frame else (op.request C).frame.after "SHROUDB"

variable {C : Crates}

theorem Request.written_none (r : Request) : r.written none = writeFrame r.frame := by
  cases r with
  | command args => exact writeCommand_eq args
  | metaCommand args => exact writeCommand_eq args
  | pipeline commands requestId => exact writePipeline_eq_request commands requestId

/-- A request with a word more before it is another request. -/
theorem writeFrame_after_ne {frames : List Resp3Frame} (word : String) :
    writeFrame (.array frames) ≠ writeFrame (Resp3Frame.after word (.array frames)) := by
  intro h
  -- the number of elements is on the first line
  simp only [Resp3Frame.after, writeFrame, header, List.cons_append, List.append_assoc,
    List.cons.injEq, true_and, List.length_cons] at h
  have hshort := reads_readLine (lf_not_mem_repr frames.length) true (writeFrames frames)
  have hlong := reads_readLine (lf_not_mem_repr (frames.length + 1)) true
    (writeFrames (.bulkString (utf8 word) :: frames))
  rw [List.append_assoc] at hshort hlong
  rw [h, hlong] at hshort
  simp only [Poll.done.injEq] at hshort
  have hparse := parseUnsigned_repr (Nat.le_refl frames.length)
  rw [← hshort.1] at hparse
  have hsame := eq_of_parseUnsigned_repr hparse
  omega

/-- Every method but `pipeline` goes through the connection's own commands. -/
theorem ClientOp.request_cases (C : Crates) (op : ClientOp) :
    (∃ args, op.request C = .command args ∧ op.isMeta = false) ∨
    (∃ args, op.request C = .metaCommand args ∧ op.isMeta = true) ∨
    ∃ commands requestId, op = .pipeline commands requestId := by
  cases op with
  | auth | ping | health => exact Or.inr (Or.inl ⟨_, rfl, rfl⟩)
  | pipeline commands requestId => exact Or.inr (Or.inr ⟨commands, requestId, rfl⟩)
  | _ => exact Or.inl ⟨_, rfl, rfl⟩

/-- A client of the gateway writes what a direct client writes, with the name of the engine before
it where it should be, except in a pipeline. -/
theorem routes_to_engine_iff (op : ClientOp) :
    op.direct C = writeFrame (op.request C).frame ∧
      (op.moat C = writeFrame (op.routed C) ↔
        ∀ commands requestId, op ≠ .pipeline commands requestId) := by
  refine ⟨Request.written_none _, ?_⟩
  have hengine : moatPrefix "SHROUDB" = some "SHROUDB" := by decide
  rw [ClientOp.moat, ClientOp.routed, hengine]
  rcases op.request_cases C with ⟨args, hreq, hmeta⟩ | ⟨args, hreq, hmeta⟩ | ⟨commands, id, rfl⟩
  · have hop : ∀ commands requestId, op ≠ .pipeline commands requestId := by
      rintro commands requestId rfl
      cases hreq
    simp only [hreq, hmeta, Bool.false_eq_true, if_false, Request.written, Request.frame]
    exact iff_of_true (writeCommand_eq ("SHROUDB" :: args)) hop
  · have hop : ∀ commands requestId, op ≠ .pipeline commands requestId := by
      rintro commands requestId rfl
      cases hreq
    simp only [hreq, hmeta, if_true, Request.written, Request.frame]
    exact iff_of_true (writeCommand_eq args) hop
  · refine iff_of_false ?_ fun hop => hop commands id rfl
    change writePipeline commands id ≠ writeFrame ((pipelineRequest commands id).after "SHROUDB")
    rw [writePipeline_eq_request]
    exact writeFrame_after_ne "SHROUDB"

/-- The gateway is sent a pipeline for no engine. -/
theorem Memory.pipeline_not_routed :
    (ClientOp.pipeline [["PING"]] none).moat crates =
      utf8 "*2\r\n$8\r\nPIPELINE\r\n*1\r\n$4\r\nPING\r\n" ∧
    writeFrame ((ClientOp.pipeline [["PING"]] none).routed crates) =
      utf8 "*3\r\n$7\r\nSHROUDB\r\n$8\r\nPIPELINE\r\n*1\r\n$4\r\nPING\r\n" ∧
    (ClientOp.pipeline [["PING"]] none).moat crates ≠
      writeFrame ((ClientOp.pipeline [["PING"]] none).routed crates) := by
  decide

end Shroudb
