import Shroudb.Effect.Schedule
import Shroudb.Wire.Stream
import Shroudb.Protocol.AclCoverage
import Shroudb.Server.Connection

/-! A connection and its byte stream: which frames the server decodes when events and
notifications interrupt its reads. -/
namespace Shroudb
open Wire Effect

namespace Resp3Frame

theorem lawful_readLine : Lawful readLine :=
  (Lawful.line _).bind fun _ => .pure _

theorem lawful_expectCrlf (what : String) : Lawful (expectCrlf what) := by
  refine (Lawful.exactly 2 _).bind fun bytes => ?_
  split_ifs
  · exact .pure _
  · exact .fail _

theorem lawful_readLength (what : String) (limit : Nat) : Lawful (readLength what limit) := by
  refine lawful_readLine.bind fun line => ?_
  cases parseUnsigned (2 ^ 64 - 1) line with
  | error e => exact .fail _
  | ok n =>
    dsimp only
    split_ifs
    · exact .fail _
    · exact .pure _

variable {inner : Reader ProtocolError (Option Resp3Frame)}

theorem lawful_readChild (hi : Lawful inner) (what : String) : Lawful (readChild inner what) := by
  refine hi.bind fun f => ?_
  cases f with
  | some f => exact .pure _
  | none => exact .fail _

theorem lawful_readPair (hi : Lawful inner) : Lawful (readPair inner) :=
  (lawful_readChild hi _).bind fun _ => (lawful_readChild hi _).bind fun _ => .pure _

theorem lawful_readPayload (hi : Lawful inner) (typeByte : UInt8) :
    Lawful (readPayload inner typeByte) := by
  unfold readPayload
  split_ifs
  · exact lawful_readLine.bind fun _ => .pure _
  · exact lawful_readLine.bind fun _ => .pure _
  · refine lawful_readLine.bind fun line => ?_
    cases parseInt64 line with
    | error e => exact .fail _
    | ok n => exact .pure _
  · exact (lawful_readLength _ _).bind fun len => (Lawful.exactly len _).bind fun _ =>
      (lawful_expectCrlf _).bind fun _ => .pure _
  · exact (lawful_readLength _ _).bind fun n =>
      ((lawful_readChild hi _).times n).bind fun _ => .pure _
  · exact (lawful_readLength _ _).bind fun n => ((lawful_readPair hi).times n).bind fun _ => .pure _
  · exact (lawful_readLength _ _).bind fun n =>
      ((lawful_readChild hi _).times n).bind fun _ => .pure _
  · exact (lawful_expectCrlf _).bind fun _ => .pure _
  · exact .fail _

theorem lawful_readFrameAt (levels : Nat) : Lawful (readFrameAt levels) := by
  induction levels with
  | zero => exact .fail _
  | succ levels ih =>
    refine Lawful.atEnd.bind fun atEnd => ?_
    cases atEnd with
    | true => exact .pure none
    | false =>
      exact (Lawful.exactly 1 _).bind fun _ => (lawful_readPayload ih _).bind fun _ => .pure _

theorem lawful_readFrame : Lawful readFrame := lawful_readFrameAt _

/-- A frame starts with its type byte. -/
theorem takes_readFrame : Reader.Takes readFrame := by
  intro ended bs f rest h
  obtain ⟨atEnd, mid, ha, h⟩ := Reader.bind_eq_done.mp h
  cases atEnd with
  | true => cases h
  | false =>
    obtain ⟨typeByte, mid', ht, h⟩ := Reader.bind_eq_done.mp h
    obtain ⟨f', mid'', hp, h⟩ := Reader.bind_eq_done.mp h
    cases h
    have hlen := (Lawful.atEnd.suffix ha).length_le
    have hrest := ((lawful_readPayload (lawful_readFrameAt _) _).suffix hp).length_le
    obtain ⟨hone, rfl⟩ := Reader.exactly_eq_done ht
    rw [List.length_append] at hlen
    omega

end Resp3Frame

/-! ## A session -/

/-- A connection and its stream. `received` and `decoded` keep all bytes that have arrived and
all frames read from them. -/
structure Session (C : Crates) (σ : Type) where
  inbox : Inbox
  ended : Bool
  connection : Connection C
  dispatcher : Dispatcher C σ
  received : Bytes
  decoded : List Resp3Frame

inductive Move (C : Crates) where
  | arrive (bs : Bytes)
  | hangUp
  | poll (m : Moment C)
  | event (m : Moment C) (ev : Option SubscriptionEvent)
  | notify (m : Moment C) (shutdown : Bool)

/-- Input that ends the connection. -/
def Input.final : Input → Bool
  | .disconnected => true
  | .failed _ => true
  | .notified shutdown => shutdown
  | _ => false

theorem step_final {C : Crates} {σ : Type} {B : Backend C σ} {authRequired : Bool} {m : Moment C}
    {conn : Connection C} {d : Dispatcher C σ} {input : Input} (h : input.final) :
    (step B authRequired m conn d input).connection.mode = .closed := by
  cases hm : conn.mode <;> cases input <;> simp_all [step, Input.final]

namespace Session
variable {C : Crates} {σ : Type}

/-- A session from here on, with bytes that have arrived but were not read. -/
def start (conn : Connection C) (d : Dispatcher C σ) (buffered : Bytes) : Session C σ :=
  ⟨⟨[], buffered⟩, false, conn, d, buffered, []⟩

def handle (B : Backend C σ) (authRequired : Bool) (m : Moment C) (s : Session C σ)
    (input : Input) : Session C σ :=
  let o := step B authRequired m s.connection s.dispatcher input
  { s with connection := o.connection, dispatcher := o.dispatcher }

/-- What the loop does with the answer of its read. -/
def finishRead (B : Backend C σ) (authRequired : Bool) (m : Moment C) (s : Session C σ) :
    Option (Except ProtocolError (Option Resp3Frame)) → Session C σ
  | none => s
  | some (.ok (some f)) => handle B authRequired m { s with decoded := s.decoded ++ [f] } (.frame f)
  | some (.ok none) => handle B authRequired m s .disconnected
  | some (.error e) => handle B authRequired m s (.failed e)

/-- In `select!` the branch that completes drops the read in progress. Events are received only
while subscribed. -/
def move (B : Backend C σ) (authRequired : Bool) (s : Session C σ) : Move C → Session C σ
  | .arrive bs =>
    if s.ended then s
    else { s with inbox := s.inbox.arrive bs, received := s.received ++ bs }
  | .hangUp => { s with ended := true }
  | .poll m =>
    if s.connection.mode = .closed then s
    else
      let (answer, inbox) := s.inbox.poll Resp3Frame.readFrame s.ended
      finishRead B authRequired m { s with inbox } answer
  | .event m ev =>
    if s.connection.mode = .subscribed then
      handle B authRequired m { s with inbox := s.inbox.abandon } (.event ev)
    else s
  | .notify m shutdown =>
    if s.connection.mode = .closed then s
    else handle B authRequired m { s with inbox := s.inbox.abandon } (.notified shutdown)

/-- An event or a false notification finds no frame partly read. -/
def Whole (s : Session C σ) : Move C → Prop
  | .event _ _ => s.connection.mode = .subscribed → s.inbox.consumed = []
  | .notify _ false => s.connection.mode ≠ .closed → s.inbox.consumed = []
  | _ => True

/-- The frames decoded are the first ones of the stream, and an open session goes on right after
them. -/
def InStep (s : Session C σ) : Prop :=
  ∃ rest, Yields Resp3Frame.readFrame s.ended s.received s.decoded rest ∧
    (s.connection.mode ≠ .closed → rest = s.inbox.contents)

variable {B : Backend C σ} {authRequired : Bool} {m : Moment C} {s : Session C σ}

theorem inStep_handle {input : Input}
    (h : Yields Resp3Frame.readFrame s.ended s.received s.decoded s.inbox.contents) :
    InStep (handle B authRequired m s input) :=
  ⟨s.inbox.contents, h, fun _ => rfl⟩

theorem inStep_handle_final {input : Input} {rest : Bytes} (hfinal : input.final)
    (h : Yields Resp3Frame.readFrame s.ended s.received s.decoded rest) :
    InStep (handle B authRequired m s input) :=
  ⟨rest, h, fun hopen => absurd (step_final hfinal) hopen⟩

theorem inStep_poll (h : InStep s) : InStep (s.move B authRequired (.poll m)) := by
  rw [move]
  split_ifs with hopen
  · exact h
  obtain ⟨rest, hyields, hrest⟩ := h
  obtain rfl := hrest hopen
  unfold Inbox.poll
  cases hr : Resp3Frame.readFrame s.ended s.inbox.contents with
  | done f rest =>
    cases f with
    | some f => exact inStep_handle (by simpa [Inbox.contents] using hyields.concat hr)
    | none => exact inStep_handle_final rfl hyields
  | fail e rest => exact inStep_handle_final rfl hyields
  | more => exact ⟨_, hyields, fun _ => by simp [finishRead, Inbox.contents]⟩

/-- What one move keeps. -/
theorem inStep_move {mv : Move C} (hwhole : Whole s mv) (h : InStep s) :
    InStep (s.move B authRequired mv) := by
  cases mv with
  | poll m => exact inStep_poll h
  | arrive bs =>
    obtain ⟨rest, hyields, hrest⟩ := h
    rw [move]
    split_ifs with hended
    · exact ⟨rest, hyields, hrest⟩
    · simp only [hended] at hyields
      refine ⟨rest ++ bs, hyields.append Resp3Frame.lawful_readFrame s.ended bs, fun hopen => ?_⟩
      rw [hrest hopen]
      exact Inbox.contents_arrive.symm
  | hangUp =>
    obtain ⟨rest, hyields, hrest⟩ := h
    have hyields' : Yields Resp3Frame.readFrame true s.received s.decoded rest := by
      cases hended : s.ended with
      | true => rwa [hended] at hyields
      | false =>
        rw [hended] at hyields
        simpa using hyields.append Resp3Frame.lawful_readFrame true []
    exact ⟨rest, hyields', hrest⟩
  | event m ev =>
    rw [move]
    split_ifs with hsub
    · obtain ⟨rest, hyields, hrest⟩ := h
      obtain rfl := hrest (by simp [hsub])
      apply inStep_handle
      rwa [Inbox.contents_abandon (hwhole hsub)]
    · exact h
  | notify m shutdown =>
    rw [move]
    split_ifs with hopen
    · exact h
    obtain ⟨rest, hyields, hrest⟩ := h
    obtain rfl := hrest hopen
    cases shutdown with
    | true => exact inStep_handle_final rfl hyields
    | false =>
      apply inStep_handle
      rwa [Inbox.contents_abandon (hwhole hopen)]

/-- While no event or false notification interrupts a frame, the frames decoded are the first of
the uninterrupted stream, and nothing of the rest is lost. -/
theorem decodes_uninterrupted_stream (B : Backend C σ) (authRequired : Bool) (conn : Connection C)
    (d : Dispatcher C σ) (buffered : Bytes) (moves : List (Move C))
    (hwhole : Schedule.Guarded (move B authRequired) Whole (start conn d buffered) moves) :
    let s := Schedule.run (move B authRequired) (start conn d buffered) moves
    let whole := Reader.decode Resp3Frame.readFrame s.ended s.received
    let left := Reader.decode Resp3Frame.readFrame s.ended s.inbox.contents
    s.decoded <+: whole.1 ∧
    (s.connection.mode ≠ .closed → whole = (s.decoded ++ left.1, left.2)) ∧
    (s.connection.mode ≠ .closed → Resp3Frame.readFrame s.ended s.inbox.contents = .more →
      whole = (s.decoded, .waiting)) := by
  intro s whole left
  have hinit : InStep (start conn d buffered) := ⟨buffered, .nil, fun _ => rfl⟩
  obtain ⟨rest, hyields, hrest⟩ : InStep s :=
    Schedule.run_invariant (fun _ _ hwhole h => inStep_move hwhole h) hwhole hinit
  have hdecode := Reader.decode_of_yields Resp3Frame.takes_readFrame hyields
  have hopen : s.connection.mode ≠ .closed → whole = (s.decoded ++ left.1, left.2) := by
    intro hopen
    rw [hrest hopen] at hdecode
    exact hdecode
  refine ⟨⟨_, (congrArg Prod.fst hdecode).symm⟩, hopen, fun hmode hmore => ?_⟩
  have hleft : left = ([], .waiting) := by
    simp [left, Reader.decode, Reader.decodeCalls, hmore]
  rw [hopen hmode, hleft, List.append_nil]

end Session

namespace Memory

def moment : Moment crates := ⟨0, some 10, fun _ => .error "unknown token", true⟩

def subscribed : Connection crates := ⟨some writer, none, .subscribed⟩

def putEvent : SubscriptionEvent := ⟨.put, "a", [107], 1, "writer", 0⟩

/-- The bytes of a PING, in two parts. -/
def pingStart : Bytes := utf8 "*1\r\n$4\r\n"

def pingEnd : Bytes := utf8 "PING\r\n"

theorem event_after_frame_loses_nothing :
    let moves := [.arrive pingStart, .poll moment, .arrive pingEnd, .poll moment,
      .event moment (some putEvent)]
    let s := Schedule.run (Session.move backend true) (.start subscribed (fresh []) []) moves
    s.decoded = [.array [.bulkString (utf8 "PING")]] ∧
    s.decoded <+: (Reader.decode Resp3Frame.readFrame s.ended s.received).1 := by
  intro moves
  refine ⟨rfl, (Session.decodes_uninterrupted_stream backend true subscribed (fresh []) [] moves
    ?_).1⟩
  exact ⟨trivial, trivial, trivial, trivial, fun _ => rfl, trivial⟩

/-- An event between the two parts of a PING loses the first, and the session closes on the
second. -/
theorem event_inside_frame_loses_it :
    let moves := [.arrive pingStart, .poll moment, .event moment (some putEvent),
      .arrive pingEnd, .poll moment]
    let s := Schedule.run (Session.move backend true) (.start subscribed (fresh []) []) moves
    s.decoded = [] ∧ s.connection.mode = .closed ∧
    Reader.decode Resp3Frame.readFrame s.ended s.received =
      ([.array [.bulkString (utf8 "PING")]], .waiting) :=
  ⟨rfl, rfl, rfl⟩

end Memory

end Shroudb
