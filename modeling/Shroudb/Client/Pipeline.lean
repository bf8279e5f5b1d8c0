import Shroudb.Protocol.AclCoverage
import Shroudb.Client.Exchange
import Shroudb.Client.RemoteStore

/-! `RemoteStore::pipeline`: what it reports of the replies to its commands. -/
namespace Shroudb
open Wire Resp3Frame

inductive PipelineCommand (C : Crates) where
  | put (ns : String) (key value : Bytes) (metadata : Option C.Metadata)
  | get (ns : String) (key : Bytes) (version : Option UInt64)
  | delete (ns : String) (key : Bytes)
  | putIfVersion (ns : String) (key value : Bytes) (metadata : Option C.Metadata)
    (expectedVersion : UInt64)
  | deleteIfVersion (ns : String) (key : Bytes) (expectedVersion : UInt64)

inductive PipelineResult (C : Crates) where
  | put (version : UInt64)
  | get (entry : Entry C)
  | delete (version : UInt64)

variable {C : Crates} {σ τ : Type}

/-! ## The client -/

namespace PipelineCommand

/-- The words of a command. The metadata and the version of a GET are not sent. -/
def args : PipelineCommand C → List String
  | .put ns key value _ => ["PUT", ns, fromUtf8Lossy key, fromUtf8Lossy value]
  | .get ns key _ => ["GET", ns, fromUtf8Lossy key]
  | .delete ns key => ["DELETE", ns, fromUtf8Lossy key]
  | .putIfVersion ns key value _ expectedVersion =>
    ["PUTIF", ns, fromUtf8Lossy key, fromUtf8Lossy value, "EXPECT", printUInt64 expectedVersion]
  | .deleteIfVersion ns key expectedVersion =>
    ["DELIF", ns, fromUtf8Lossy key, "EXPECT", printUInt64 expectedVersion]

/-- A field that is not there is taken as zero, or as empty. -/
def version (response : Response) : UInt64 := ((response.getIntField "version").getD 0).toUInt64

def text (response : Response) (field : String) : Bytes :=
  utf8 ((response.getStringField field).getD "")

/-- What is reported of the reply to a command. -/
def result (response : Response) : PipelineCommand C → PipelineResult C
  | .put .. => .put (version response)
  | .get .. => .get ⟨text response "key", text response "value", version response,
      C.metadataDefault, 0, 0⟩
  | .delete .. => .delete (version response)
  | .putIfVersion .. => .put (version response)
  | .deleteIfVersion .. => .delete (version response)

end PipelineCommand

/-- The bytes that `ShrouDBClient::pipeline` writes. -/
def writePipeline (commands : List (List String)) (requestId : Option String) : Bytes :=
  let keywordCount := if requestId.isSome then 2 else 0
  utf8 ("*" ++ (1 + keywordCount + commands.length).repr ++ "\r\n") ++
    utf8 "$8\r\nPIPELINE\r\n" ++
    (match requestId with
      | some id => utf8 "$10\r\nREQUEST_ID\r\n" ++ utf8 ("$" ++ (utf8 id).length.repr ++ "\r\n") ++
          utf8 id ++ utf8 "\r\n"
      | none => []) ++
    commands.flatMap writeCommand

def pipelineItems : Response → Except ClientError (List Response)
  | .array items => .ok items
  | .error e => .error (.server e)
  | _ => .error (.responseFormat "expected array response from PIPELINE")

/-- `send` writes the commands on a connection in state `τ` and reads the reply. -/
def RemoteStore.pipeline (send : List (List String) → τ → Except ReadFailure Response × τ)
    (commands : List (PipelineCommand C)) (s : τ) :
    Except (RemoteFailure C.ValidationError) (List (PipelineResult C)) × τ :=
  match send (commands.map PipelineCommand.args) s with
  | (.error e, s) => (.error (remoteErr e), s)
  | (.ok response, s) =>
    match pipelineItems response with
    | .error e => (.error (.store (clientErr e)), s)
    | .ok replies => (.ok (commands.zipWith (fun cmd reply => cmd.result reply) replies), s)

/-- `send` with the server at the other end of the connection. -/
def exchangePipeline (B : Backend C σ) (auth : Option C.AuthContext) (commands : List (List String))
    (d : Dispatcher C σ) : Except ReadFailure Response × Dispatcher C σ :=
  submit B auth (writePipeline commands none) d

/-- The frame of a pipeline. -/
def pipelineRequest (commands : List (List String)) (requestId : Option String) : Resp3Frame :=
  .array (.bulkString (utf8 "PIPELINE") ::
    ((RemoteStore.optionArgs "REQUEST_ID" requestId).map (fun arg => .bulkString (utf8 arg)) ++
      commands.map commandFrame))

/-- The frame of a pipeline without a request id. -/
def pipelineFrame (commands : List (List String)) : Resp3Frame :=
  .array (.bulkString (utf8 "PIPELINE") :: commands.map commandFrame)

theorem writePipeline_eq_request (commands : List (List String)) (requestId : Option String) :
    writePipeline commands requestId = writeFrame (pipelineRequest commands requestId) := by
  have hcrlf : utf8 "\r\n" = crlf := by decide
  have hstar : utf8 "*" = [42] := by decide
  have hdollar : utf8 "$" = [36] := by decide
  have hword : utf8 "$8\r\nPIPELINE\r\n" = writeFrame (.bulkString (utf8 "PIPELINE")) := by decide
  have hid : utf8 "$10\r\nREQUEST_ID\r\n" = writeFrame (.bulkString (utf8 "REQUEST_ID")) := by decide
  have hcommands : commands.flatMap writeCommand = writeFrames (commands.map commandFrame) := by
    rw [writeFrames_eq, List.map_map, List.flatMap_def]
    exact congrArg List.flatten (List.map_congr_left fun args _ => writeCommand_eq args)
  rw [writePipeline.eq_def, pipelineRequest, writeFrame, writeFrames, hword, hcommands]
  cases requestId with
  | none => simp [RemoteStore.optionArgs, hcrlf, hstar, header, Nat.add_comm]
  | some id =>
    rw [hid]
    simp only [RemoteStore.optionArgs, List.map_cons, List.map_nil, List.cons_append,
      List.nil_append, writeFrames, writeFrame, utf8_append, hcrlf, hstar, hdollar, header,
      List.length_cons, List.length_map, Option.isSome_some, if_true, List.append_assoc]
    have hcount : 1 + 2 + commands.length = commands.length + 1 + 1 + 1 := by omega
    rw [hcount]

theorem writePipeline_eq (commands : List (List String)) :
    writePipeline commands none = writeFrame (pipelineFrame commands) :=
  writePipeline_eq_request commands none

theorem readFrame_writePipeline {commands : List (List String)}
    (hcount : commands.length + 1 ≤ maxCollectionSize)
    (hlimits : ∀ args ∈ commands, WithinLimits args) :
    readFrame false (writePipeline commands none) = .done (some (pipelineFrame commands)) [] := by
  have hframe : Representable (pipelineFrame commands) := by
    refine representableAt_array.mpr ⟨by decide, by simpa using hcount, fun f hf => ?_⟩
    rcases List.mem_cons.mp hf with rfl | hf
    · intro e he
      obtain rfl : e = (1, .bulkString (utf8 "PIPELINE")) := by simpa [elements] using he
      exact ⟨by decide, by decide⟩
    · obtain ⟨args, hargs, rfl⟩ := List.mem_map.mp hf
      exact representableAt_commandFrame (hlimits args hargs) (by decide)
  have hread := reads_writeFrame (pipelineFrame commands) hframe false []
  rw [List.append_nil, ← writePipeline_eq] at hread
  exact hread

theorem exchangePipeline_eq {B : Backend C σ} {auth : Option C.AuthContext}
    {commands : List (List String)} {d : Dispatcher C σ}
    (hcount : commands.length + 1 ≤ maxCollectionSize)
    (hlimits : ∀ args ∈ commands, WithinLimits args) :
    exchangePipeline B auth commands d =
      (receive (writeFrame (serveFrame B auth (pipelineFrame commands) d).1),
        (serveFrame B auth (pipelineFrame commands) d).2) := by
  rw [exchangePipeline, submit, answerTo_of_read (readFrame_writePipeline hcount hlimits)]

/-! ## What a report should be -/

namespace PipelineCommand

/-- The reply is a map with all that is reported of it. -/
def Succeeded (response : Response) : PipelineCommand C → Prop
  | .get .. => (response.getStringField "key").isSome ∧ (response.getStringField "value").isSome ∧
      (response.getIntField "version").isSome
  | _ => (response.getIntField "version").isSome

/-- The result has the version of the reply, and of a GET the key and the value. -/
def Carries (response : Response) : PipelineCommand C → PipelineResult C → Prop
  | .put .., .put v | .putIfVersion .., .put v | .delete .., .delete v
  | .deleteIfVersion .., .delete v => ∃ n, response.getIntField "version" = some n ∧ v = n.toUInt64
  | .get .., .get entry => ∃ key value n, response.getStringField "key" = some key ∧
      response.getStringField "value" = some value ∧ response.getIntField "version" = some n ∧
      entry.key = utf8 key ∧ entry.value = utf8 value ∧ entry.version = n.toUInt64
  | _, _ => False

end PipelineCommand

/-- A report of success is one of every command's success, and a failure is reported. -/
structure ReportsFailures {ε : Type} (commands : List (PipelineCommand C)) (replies : List Response)
    (outcome : Except ε (List (PipelineResult C))) : Prop where
  ok : ∀ results, outcome = .ok results →
    replies.length = commands.length ∧ results.length = commands.length ∧
      ∀ (i : Nat) (cmd : PipelineCommand C), commands[i]? = some cmd → ∃ reply result,
        replies[i]? = some reply ∧ results[i]? = some result ∧ cmd.Succeeded reply ∧ cmd.Carries reply result
  error : (∃ e, .error e ∈ replies) ∨ replies.length ≠ commands.length → ∃ e, outcome = .error e

theorem PipelineCommand.carries_result {cmd : PipelineCommand C} {response : Response}
    (h : cmd.Succeeded response) : cmd.Carries response (cmd.result response) := by
  have hversion : (response.getIntField "version").isSome →
      ∃ n, response.getIntField "version" = some n ∧ version response = n.toUInt64 := by
    intro hsome
    obtain ⟨n, hn⟩ := Option.isSome_iff_exists.mp hsome
    exact ⟨n, hn, by simp [version, hn]⟩
  cases cmd with
  | get ns key v =>
    obtain ⟨hkey, hvalue, hv⟩ := h
    obtain ⟨k, hk⟩ := Option.isSome_iff_exists.mp hkey
    obtain ⟨value, hvalue⟩ := Option.isSome_iff_exists.mp hvalue
    obtain ⟨n, hn, hver⟩ := hversion hv
    exact ⟨k, value, n, hk, hvalue, hn, by simp [text, hk], by simp [text, hvalue], hver⟩
  | _ => exact hversion h

theorem PipelineCommand.not_succeeded_error (cmd : PipelineCommand C) (e : String) :
    ¬ cmd.Succeeded (.error e) := by
  cases cmd <;> simp [Succeeded, Response.getIntField, Response.getStringField, Response.getField]

theorem pipeline_of_array {send : List (List String) → τ → Except ReadFailure Response × τ}
    {commands : List (PipelineCommand C)} {s : τ} {replies : List Response}
    (h : (send (commands.map PipelineCommand.args) s).1 = .ok (.array replies)) :
    (RemoteStore.pipeline send commands s).1 =
      .ok (commands.zipWith (fun cmd reply => cmd.result reply) replies) := by
  rw [RemoteStore.pipeline]
  split
  case h_1 e s' hs => simp [hs] at h
  case h_2 response s' hs =>
    simp only [hs, Except.ok.injEq] at h
    simp [h, pipelineItems]

/-- Whatever the replies are, success is reported: so the report is right exactly when there is a
reply to each command and each is a success. -/
theorem pipeline_reports_failures_iff
    (send : List (List String) → τ → Except ReadFailure Response × τ)
    (commands : List (PipelineCommand C)) (s : τ) (replies : List Response)
    (hsend : (send (commands.map PipelineCommand.args) s).1 = .ok (.array replies)) :
    ReportsFailures commands replies (RemoteStore.pipeline send commands s).1 ↔
      replies.length = commands.length ∧ ∀ (i : Nat) (cmd : PipelineCommand C) (reply : Response),
        commands[i]? = some cmd → replies[i]? = some reply → cmd.Succeeded reply := by
  rw [pipeline_of_array hsend]
  constructor
  · intro h
    obtain ⟨hlen, -, hall⟩ := h.ok _ rfl
    refine ⟨hlen, fun i cmd reply hcmd hreply => ?_⟩
    obtain ⟨reply', result, hreply', -, hsucc, -⟩ := hall i cmd hcmd
    rw [hreply] at hreply'
    cases hreply'
    exact hsucc
  · rintro ⟨hlen, hall⟩
    constructor
    · intro results hresults
      cases hresults
      refine ⟨hlen, by simp [hlen], fun i cmd hcmd => ?_⟩
      obtain ⟨hi, -⟩ := List.getElem?_eq_some_iff.mp hcmd
      have hreply : replies[i]? = some replies[i] := List.getElem?_eq_getElem (hlen ▸ hi)
      have hsucc := hall i cmd _ hcmd hreply
      exact ⟨_, _, hreply, by simp [List.getElem?_zipWith, hcmd, hreply], hsucc,
        PipelineCommand.carries_result hsucc⟩
    · rintro (⟨e, he⟩ | hne)
      · obtain ⟨i, hi⟩ := List.getElem?_of_mem he
        obtain ⟨hlt, -⟩ := List.getElem?_eq_some_iff.mp hi
        have hcmd : commands[i]? = some commands[i] := List.getElem?_eq_getElem (hlen ▸ hlt)
        exact absurd (hall i _ _ hcmd hi) (PipelineCommand.not_succeeded_error _ e)
      · exact absurd hlen hne

namespace Memory

/-- A write, and a conditional write for a version that the key does not have. -/
def putThenConflict : List (PipelineCommand crates) :=
  [.put "a" [107] [118] none, .putIfVersion "a" [107] [119] none 7]

/-- The server's reply gets through when it is within its own limits. -/
theorem sent_reply {commands : List (List String)} {reply : Resp3Frame}
    (hcount : commands.length + 1 ≤ maxCollectionSize)
    (hlimits : ∀ args ∈ commands, WithinLimits args)
    (hserve : (serveFrame backend (some writer) (pipelineFrame commands) (fresh [])).1 = reply)
    (hrep : Representable reply) :
    (exchangePipeline backend (some writer) commands (fresh [])).1 = .ok (img reply) := by
  rw [exchangePipeline_eq hcount hlimits, hserve]
  exact receive_writeFrame hrep.lineSafe hrep.inMemory

def versionReply (n : Int64) : Resp3Frame :=
  .map [(.bulkString (utf8 "status"), .bulkString (utf8 "OK")),
    (.bulkString (utf8 "version"), .integer n)]

/-- The server refuses the conditional write, and the client reports it as version 0. -/
theorem conflict_reported_as_success :
    (exchangePipeline backend (some writer) (putThenConflict.map PipelineCommand.args) (fresh [])).1 =
        .ok (.array [.map [(.string "status", .string "OK"), (.string "version", .integer 1)],
          .error "VERSIONCONFLICT current=1"]) ∧
      (RemoteStore.pipeline (exchangePipeline backend (some writer)) putThenConflict (fresh [])).1 =
        .ok [.put 1, .put 0] := by
  have hlimits : ∀ args ∈ putThenConflict.map PipelineCommand.args, WithinLimits args :=
    List.forall_mem_cons.mpr ⟨⟨by decide, by decide⟩,
      List.forall_mem_singleton.mpr ⟨by decide, by decide⟩⟩
  have hrep : Representable
      (.array [versionReply 1, .simpleError "VERSIONCONFLICT current=1"]) := by decide
  have hsent := sent_reply (by decide) hlimits rfl hrep
  refine ⟨hsent, ?_⟩
  rw [pipeline_of_array hsent]
  rfl

/-- Two writes that succeed. -/
def putThenDelete : List (PipelineCommand crates) :=
  [.put "a" [107] [118] none, .delete "a" [107]]

theorem successes_reported :
    let replies := [img (versionReply 1), img (versionReply 1)]
    let outcome := (RemoteStore.pipeline (exchangePipeline backend (some writer)) putThenDelete
      (fresh [])).1
    ReportsFailures putThenDelete replies outcome ∧ outcome = .ok [.put 1, .delete 1] := by
  intro replies outcome
  have hlimits : ∀ args ∈ putThenDelete.map PipelineCommand.args, WithinLimits args :=
    List.forall_mem_cons.mpr ⟨⟨by decide, by decide⟩,
      List.forall_mem_singleton.mpr ⟨by decide, by decide⟩⟩
  have hrep : Representable (.array [versionReply 1, versionReply 1]) := by decide
  have hsent := sent_reply (by decide) hlimits rfl hrep
  refine ⟨(pipeline_reports_failures_iff (exchangePipeline backend (some writer)) putThenDelete
    (fresh []) replies hsent).mpr ⟨rfl, ?_⟩, ?_⟩
  · rintro (_ | _ | i) cmd reply hcmd hreply
    · cases hcmd
      cases hreply
      rfl
    · cases hcmd
      cases hreply
      rfl
    · cases hcmd
  · rw [show outcome = _ from pipeline_of_array hsent]
    rfl

end Memory

end Shroudb
