import Shroudb.Resp3.RoundTrip
import Shroudb.Server.Connection
import Shroudb.Client.Decoder

/-! One command over the wire: encoder, frame reader, parser, dispatcher, and back. -/
namespace Shroudb
open Wire Resp3Frame

/-- `Connection::write_command`. -/
def writeCommand (args : List String) : Bytes :=
  utf8 ("*" ++ args.length.repr ++ "\r\n") ++
    args.flatMap fun arg =>
      utf8 ("$" ++ (utf8 arg).length.repr ++ "\r\n") ++ utf8 arg ++ utf8 "\r\n"

/-- The server's limits on a request. -/
structure WithinLimits (args : List String) : Prop where
  count : args.length ≤ maxCollectionSize
  size : ∀ arg ∈ args, (utf8 arg).length ≤ maxBulkSize

section
variable {C : Crates} {σ : Type}

/-- What the server does with a request frame when nothing but the parser and the dispatcher
stands before it. -/
def serveFrame (B : Backend C σ) (auth : Option C.AuthContext) (frame : Resp3Frame)
    (d : Dispatcher C σ) : Resp3Frame × Dispatcher C σ :=
  match parseCommand (C := C) frame with
  | .error e => (.simpleError ("ERR " ++ e.text), d)
  | .ok cmd =>
    let (response, d) := execute B auth cmd d
    (responseToFrame response, d)

/-- The client reads a reply. It times out on one that does not end. -/
def receive (bs : Bytes) : Except ReadFailure Response :=
  match Response.readValue false bs with
  | .done v _ => .ok v
  | .fail e _ => .error e
  | .more => .error (.error .timeout)

/-- The bytes the server sends for those of a request, none while the request does not end. -/
def answerTo (B : Backend C σ) (auth : Option C.AuthContext) (request : Bytes)
    (d : Dispatcher C σ) : Bytes × Dispatcher C σ :=
  match readFrame false request with
  | .done (some frame) _ =>
    let (reply, d) := serveFrame B auth frame d
    (writeFrame reply, d)
  | .fail e _ => (writeFrame (.simpleError ("ERR protocol: " ++ e.text)), d)
  | _ => ([], d)

/-- A request on a connection with nothing else on it, and the reply. -/
def submit (B : Backend C σ) (auth : Option C.AuthContext) (request : Bytes) (d : Dispatcher C σ) :
    Except ReadFailure Response × Dispatcher C σ :=
  let (reply, d) := answerTo B auth request d
  (receive reply, d)

/-- `send_command`, with the server at the other end of the connection. -/
def exchange (B : Backend C σ) (auth : Option C.AuthContext) (args : List String)
    (d : Dispatcher C σ) : Except ReadFailure Response × Dispatcher C σ :=
  submit B auth (writeCommand args) d

/-- The connection of a client, which is kept from call to call: the bytes on it that no call has
read yet, and the server at its other end. -/
structure ClientConnection (C : Crates) (σ : Type) where
  unread : Bytes
  dispatcher : Dispatcher C σ

/-- A call writes its request and reads one value, which begins with what earlier calls have left. A
read that times out has taken all there is. -/
def ClientConnection.submit (B : Backend C σ) (auth : Option C.AuthContext) (request : Bytes)
    (conn : ClientConnection C σ) : Except ReadFailure Response × ClientConnection C σ :=
  let (reply, d) := answerTo B auth request conn.dispatcher
  match Response.readValue false (conn.unread ++ reply) with
  | .done v rest => (.ok v, ⟨rest, d⟩)
  | .fail e rest => (.error e, ⟨rest, d⟩)
  | .more => (.error (.error .timeout), ⟨[], d⟩)

/-- `send_command` on a connection that is kept. -/
def ClientConnection.exchange (B : Backend C σ) (auth : Option C.AuthContext) (args : List String)
    (conn : ClientConnection C σ) : Except ReadFailure Response × ClientConnection C σ :=
  conn.submit B auth (writeCommand args)

/-- The client can read the reply: it fits into memory, and an error is on one line. -/
structure Legible (reply : Resp3Frame) : Prop where
  held : InMemory reply
  oneLine : LineSafe reply

theorem writeCommand_eq (args : List String) :
    writeCommand args = writeFrame (commandFrame args) := by
  have hcrlf : utf8 "\r\n" = crlf := by decide
  have hstar : utf8 "*" = [42] := by decide
  have hdollar : utf8 "$" = [36] := by decide
  rw [writeCommand, commandFrame, writeFrame, writeFrames_eq]
  simp only [utf8_append, hcrlf, hstar, hdollar, header, List.length_map, List.map_map,
    List.flatMap_def]
  congr 2

theorem representableAt_commandFrame {args : List String} {level : Nat} (h : WithinLimits args)
    (hlevel : level + 1 ≤ maxDepth) : RepresentableAt level (commandFrame args) := by
  refine representableAt_array.mpr ⟨by omega, by simpa using h.count, fun f hf => ?_⟩
  obtain ⟨arg, harg, rfl⟩ := List.mem_map.mp hf
  intro e he
  obtain rfl : e = (level + 1, .bulkString (utf8 arg)) := by simpa [elements] using he
  exact ⟨hlevel, h.size arg harg⟩

theorem receive_writeFrame {f : Resp3Frame} (hs : LineSafe f) (hm : InMemory f) :
    receive (writeFrame f) = .ok (img f) := by
  have hread := reads_readValue hs hm false []
  rw [List.append_nil] at hread
  rw [receive, hread]

/-- The reply to a write. -/
theorem legible_version (v : UInt64) :
    Legible (responseMapToFrame (C := C) (Handlers.version v)) := by
  constructor
  · simp [responseMapToFrame, Handlers.version, ResponseMap.ok, ResponseMap.field,
      responseFieldsToPairs, responseValueToFrame, InMemory, InMemoryPairs, Response.responseSize,
      Response.maxAllocation]
    decide
  · have hlines := lineTexts_success (C := C) (Handlers.version v)
    rw [responseToFrame] at hlines
    simp [LineSafe, hlines]

theorem readFrame_writeCommand {args : List String} (hlimits : WithinLimits args) :
    readFrame false (writeCommand args) = .done (some (commandFrame args)) [] := by
  have hframe : Representable (commandFrame args) :=
    representableAt_commandFrame hlimits (by decide)
  have hread := reads_writeFrame (commandFrame args) hframe false []
  rw [List.append_nil, ← writeCommand_eq] at hread
  exact hread

theorem answerTo_of_read {B : Backend C σ} {auth : Option C.AuthContext} {request rest : Bytes}
    {frame : Resp3Frame} {d : Dispatcher C σ}
    (h : readFrame false request = .done (some frame) rest) :
    answerTo B auth request d =
      (writeFrame (serveFrame B auth frame d).1, (serveFrame B auth frame d).2) := by
  rw [answerTo, h]

namespace ClientConnection
variable {B : Backend C σ} {auth : Option C.AuthContext} {conn : ClientConnection C σ}
  {request rest : Bytes} {frame : Resp3Frame}

/-- Whatever the client reads, the server has done what it was asked for. -/
theorem submit_dispatcher (hread : readFrame false request = .done (some frame) rest) :
    (conn.submit B auth request).2.dispatcher = (serveFrame B auth frame conn.dispatcher).2 := by
  rw [submit, answerTo_of_read hread]
  dsimp only
  cases Response.readValue false
    (conn.unread ++ writeFrame (serveFrame B auth frame conn.dispatcher).1) <;> rfl

/-- A reply that can be read is read whole when nothing is before it. -/
theorem submit_eq (hread : readFrame false request = .done (some frame) rest)
    (hunread : conn.unread = []) (h : Legible (serveFrame B auth frame conn.dispatcher).1) :
    conn.submit B auth request = (.ok (img (serveFrame B auth frame conn.dispatcher).1),
      ⟨[], (serveFrame B auth frame conn.dispatcher).2⟩) := by
  have hreply := reads_readValue h.oneLine h.held false []
  rw [List.append_nil] at hreply
  rw [submit, answerTo_of_read hread, hunread]
  simp only [List.nil_append, hreply]

end ClientConnection

theorem exchange_of_read {B : Backend C σ} {auth : Option C.AuthContext} {args : List String}
    {d : Dispatcher C σ} (hlimits : WithinLimits args) :
    exchange B auth args d = (receive (writeFrame (serveFrame B auth (commandFrame args) d).1),
      (serveFrame B auth (commandFrame args) d).2) := by
  rw [exchange, submit, answerTo_of_read (readFrame_writeCommand hlimits)]

/-- A request within the limits gets to the dispatcher as it was meant. -/
theorem exchange_eq {B : Backend C σ} {auth : Option C.AuthContext} {args : List String}
    {cmd : Command} {d : Dispatcher C σ} (hlimits : WithinLimits args)
    (hparse : parseCommand (C := C) (commandFrame args) = .ok cmd) :
    exchange B auth args d =
      (receive (writeFrame (responseToFrame (execute B auth cmd d).1)),
        (execute B auth cmd d).2) := by
  simp [exchange_of_read hlimits, serveFrame, hparse]

/-- A connection whose principal is authenticated and not expired, without a rate limit, serves
every other command than AUTH and SUBSCRIBE so. -/
theorem handleFrame_eq_serveFrame {B : Backend C σ} {authRequired : Bool} {m : Moment C}
    {conn : Connection C} {d : Dispatcher C σ} {frame : Resp3Frame} {ctx : C.AuthContext}
    {now : UInt64} {cmd : Command} (hauth : conn.auth = some ctx)
    (hlimit : conn.rateLimiter = none) (hwall : m.wall = some now)
    (hlive : C.isExpired ctx now = false) (hparse : parseCommand (C := C) frame = .ok cmd)
    (hne : ∀ token, cmd ≠ .auth token) (hns : ∀ ns key events, cmd ≠ .subscribe ns key events) :
    (handleFrame B authRequired m conn d frame).written =
        [(serveFrame B (some ctx) frame d).1] ∧
      (handleFrame B authRequired m conn d frame).dispatcher =
        (serveFrame B (some ctx) frame d).2 := by
  have hadmitted : ∀ deeds, handleAdmitted B authRequired m conn d deeds cmd =
      respond m conn (execute B conn.auth cmd d).2 (deeds ++ [.executed cmd conn.auth])
        (responseToFrame (execute B conn.auth cmd d).1) := by
    intro deeds
    exact handleAdmitted.eq_2 _ _ _ _ _ _ _ hns
  have hlimited : handleLimited B authRequired m conn d cmd =
      handleUnexpired B authRequired m conn d cmd := by
    cases cmd with
    | auth token => exact absurd rfl (hne token)
    | _ => simp [handleLimited, hauth]
  simp [handleFrame, hparse, handleCommand, hlimit, hlimited, handleUnexpired, hauth, hwall, hlive,
    hadmitted, respond, serveFrame]

end

end Shroudb
