import Shroudb.Protocol.Replay
import Shroudb.Server.Subscription

/-! Which request each reply of a connection answers, in and out of subscription mode. -/
namespace Shroudb
open Wire Effect

def Resp3Frame.isPush : Resp3Frame → Bool
  | .push _ => true
  | _ => false

section
variable {C : Crates} {σ : Type} {B : Backend C σ} {auth : Option C.AuthContext}
  {d d' : Dispatcher C σ}

/-! ## The replies of the dispatcher -/

/-- Every cached frame is a reply. -/
def CachesReplies (d : Dispatcher C σ) : Prop :=
  ∀ id entry, d.idempotency id = some entry → entry.frame.isPush = false

/-- A dispatcher as the calls of all connections and the reaper leave it. Whatever is not its
cache may have changed in any way. -/
inductive Reached (B : Backend C σ) : Dispatcher C σ → Prop
  | new (store : σ) (instants : Stream' Instant) (wall : Stream' (Option UInt64)) :
    Reached B (.new store instants wall)
  | execute {d : Dispatcher C σ} (auth : Option C.AuthContext) (cmd : Command) :
    Reached B d → Reached B (execute B auth cmd d).2
  | prune {d : Dispatcher C σ} : Reached B d → Reached B d.prune
  | outside {d d' : Dispatcher C σ} : d'.idempotency = d.idempotency → Reached B d → Reached B d'

theorem CachesReplies.lookup (id : Option String) (h : CachesReplies d) :
    CachesReplies (d.lookup id).2 := by
  cases id with
  | none => exact h
  | some id =>
    rw [Dispatcher.lookup_some]
    exact fun id' entry hentry => h id' entry (IdempotencyMap.of_get_eq_some hentry)

theorem CachesReplies.remember {id : Option String} {results : List (CommandResponse C)}
    (h : CachesReplies d) : CachesReplies (d.remember id (.array results)) := by
  cases id with
  | none => exact h
  | some id =>
    rw [Dispatcher.remember_some]
    intro id' entry hentry
    by_cases hid : id' = id
    · subst hid
      cases IdempotencyMap.update_same.symm.trans hentry
      rfl
    · exact h id' entry ((Function.update_of_ne hid _ _).symm.trans hentry)

theorem Reached.cachesReplies (h : Reached B d) : CachesReplies d := by
  induction h with
  | new store instants wall =>
    intro id entry hentry
    cases hentry
  | execute auth cmd _ ih =>
    refine execute_leads (R := fun d d' => CachesReplies d → CachesReplies d') (fun _ hd => hd)
      (fun _ _ _ h₁ h₂ hd => h₂ (h₁ hd)) ?_ (fun id _ => CachesReplies.lookup id) ?_ cmd _ ih
    · intro cmd d hd id entry hentry
      rw [(executeLeaf_cache B auth cmd).1] at hentry
      exact hd id entry hentry
    · exact fun id results d d' _ hr hd => (hr (hd.lookup id)).remember
  | prune _ ih => exact fun id entry hentry => ih id entry (Option.filter_eq_some_iff.mp hentry).1
  | outside hcache _ ih => exact fun id entry hentry => ih id entry (hcache ▸ hentry)

theorem execute_isPush (cmd : Command) (h : CachesReplies d) :
    (responseToFrame (execute B auth cmd d).1).isPush = false := by
  induction cmd with
  | leaf c hc =>
    rw [execute_leaf hc, executeLeaf]
    cases aclCheck auth c.aclRequirement with
    | some e => rfl
    | none =>
      dsimp only
      cases ((dispatch B.hasEngine c).run (Dispatcher.answer B) d).1 with
      | ok m => rfl
      | error e => rfl
  | pipeline cs id _ =>
    cases hl : (d.lookup id).1 with
    | none =>
      rw [execute_pipeline_miss hl]
      rfl
    | some frame =>
      rw [execute_pipeline_hit hl]
      cases id with
      | none => cases hl
      | some id =>
        rw [Dispatcher.lookup_some] at hl
        obtain ⟨entry, hentry, rfl⟩ := IdempotencyMap.exists_of_live hl
        exact h id entry hentry

/-! ## The replies of the connection -/

/-- One reply is written, and nothing else. -/
def Answers (o : Outcome C σ) : Prop := ∃ reply, o.written = [reply] ∧ reply.isPush = false

variable {authRequired : Bool} {m : Moment C} {conn : Connection C} {deeds : List (Deed C)}

theorem answers_respond {frame : Resp3Frame} (h : frame.isPush = false) :
    Answers (respond m conn d deeds frame) :=
  ⟨frame, rfl, h⟩

theorem answers_openSubscription {ns : String}
    (answer : Except (StoreError C.ValidationError) Unit) :
    Answers (openSubscription m conn d deeds ns answer) := by
  cases answer with
  | error e => exact answers_respond rfl
  | ok u => exact answers_respond rfl

theorem answers_handleAdmitted {command : Command} (h : CachesReplies d) :
    Answers (handleAdmitted B authRequired m conn d deeds command) := by
  by_cases hsub : ∃ ns key events, command = .subscribe ns key events
  · obtain ⟨ns, key, events, rfl⟩ := hsub
    rw [handleAdmitted, handleSubscribe]
    split
    · split
      · exact answers_respond rfl
      · exact answers_openSubscription _
    · split_ifs
      · exact answers_respond rfl
      · exact answers_openSubscription _
  · have hne : ∀ ns key events, command = .subscribe ns key events → False :=
      fun ns key events h => hsub ⟨ns, key, events, h⟩
    rw [handleAdmitted.eq_2 _ _ _ _ _ _ _ hne]
    exact answers_respond (execute_isPush command h)

theorem answers_handleUnexpired {command : Command} (h : CachesReplies d) :
    Answers (handleUnexpired B authRequired m conn d command) := by
  unfold handleUnexpired
  split
  · exact answers_handleAdmitted h
  · split
    · exact ⟨_, rfl, rfl⟩
    · dsimp only
      split_ifs
      · exact answers_respond rfl
      · exact answers_handleAdmitted h

theorem answers_handleLimited (conn : Connection C) {command : Command} (h : CachesReplies d) :
    Answers (handleLimited B authRequired m conn d command) := by
  unfold handleLimited
  split
  · unfold handleAuth
    split
    · exact answers_respond rfl
    · exact answers_respond rfl
  · exact answers_handleUnexpired h
  · split_ifs
    · exact answers_respond rfl
    · exact answers_handleUnexpired h

theorem answers_handleFrame {frame : Resp3Frame} (h : CachesReplies d) :
    Answers (handleFrame B authRequired m conn d frame) := by
  unfold handleFrame
  split
  · exact answers_respond rfl
  · unfold handleCommand
    split
    · exact answers_handleLimited conn h
    · dsimp only
      split_ifs
      · exact answers_handleLimited _ h
      · exact answers_respond rfl

/-- While subscribed, a frame is answered exactly when it parses. -/
theorem handleSubscribedFrame_written (conn : Connection C) (d : Dispatcher C σ)
    (frame : Resp3Frame) :
    (∃ e, parseCommand (C := C) frame = .error e ∧
      (handleSubscribedFrame conn d frame).written = []) ∨
    ∃ cmd, parseCommand (C := C) frame = .ok cmd ∧ Answers (handleSubscribedFrame conn d frame) := by
  unfold handleSubscribedFrame
  split
  case h_1 h => exact Or.inr ⟨_, h, _, rfl, rfl⟩
  case h_2 h => exact Or.inr ⟨_, h, _, rfl, rfl⟩
  case h_3 h => exact Or.inr ⟨_, h, _, rfl, rfl⟩
  case h_4 e h => exact Or.inl ⟨e, h, rfl⟩

end

/-! ## Sessions -/

/-- A move of a session, made with the shared dispatcher as others left it. -/
structure Turn (C : Crates) (σ : Type) where
  dispatcher : Dispatcher C σ
  move : Move C

/-- The request that a turn handles, if it does, and the frames it writes. -/
structure Exchange where
  request : Option Resp3Frame
  written : List Resp3Frame

namespace Exchange

def replies (e : Exchange) : List Resp3Frame := e.written.filter fun f => !f.isPush

/-- One reply to a request, and none without. -/
def Matched (e : Exchange) : Prop := e.replies.length = e.request.toList.length

instance : DecidablePred Matched := fun e =>
  inferInstanceAs (Decidable (e.replies.length = e.request.toList.length))

end Exchange

def Input.request : Input → Option Resp3Frame
  | .frame f => some f
  | _ => none

def Input.ofAnswer : Except ProtocolError (Option Resp3Frame) → Input
  | .ok (some f) => .frame f
  | .ok none => .disconnected
  | .error e => .failed e

namespace Session
variable {C : Crates} {σ : Type}

/-- What a move hands to the loop. -/
def delivers (s : Session C σ) : Move C → Option (Moment C × Input)
  | .arrive _ => none
  | .hangUp => none
  | .poll m =>
    if s.connection.mode = .closed then none
    else (s.inbox.poll Resp3Frame.readFrame s.ended).1.map fun answer => (m, .ofAnswer answer)
  | .event m ev => if s.connection.mode = .subscribed then some (m, .event ev) else none
  | .notify m shutdown =>
    if s.connection.mode = .closed then none else some (m, .notified shutdown)

def turn (B : Backend C σ) (authRequired : Bool) (s : Session C σ) (t : Turn C σ) : Session C σ :=
  move B authRequired { s with dispatcher := t.dispatcher } t.move

def exchange (B : Backend C σ) (authRequired : Bool) (s : Session C σ) (t : Turn C σ) : Exchange :=
  match s.delivers t.move with
  | none => ⟨none, []⟩
  | some (m, input) =>
    ⟨input.request, (step B authRequired m s.connection t.dispatcher input).written⟩

/-- What a session does in each of its turns. -/
def transcript (B : Backend C σ) (authRequired : Bool) :
    Session C σ → List (Turn C σ) → List Exchange
  | _, [] => []
  | s, t :: ts =>
    s.exchange B authRequired t :: transcript B authRequired (s.turn B authRequired t) ts

/-- A frame that is handled while subscribed parses. -/
def Parses (s : Session C σ) (t : Turn C σ) : Prop :=
  ∀ m f, s.delivers t.move = some (m, .frame f) → s.connection.mode = .subscribed →
    ∃ cmd, parseCommand (C := C) f = .ok cmd

variable {B : Backend C σ} {authRequired : Bool} {s : Session C σ} {t : Turn C σ}
  {ts : List (Turn C σ)}

/-- A turn either hands nothing to the loop, or the connection takes the step for its input. -/
theorem turn_cases (B : Backend C σ) (authRequired : Bool) (s : Session C σ) (t : Turn C σ) :
    (s.delivers t.move = none ∧ (s.turn B authRequired t).connection = s.connection ∧
      (s.turn B authRequired t).decoded = s.decoded) ∨
    ∃ m input, s.delivers t.move = some (m, input) ∧ s.connection.mode ≠ .closed ∧
      (s.turn B authRequired t).connection =
        (step B authRequired m s.connection t.dispatcher input).connection ∧
      (s.turn B authRequired t).decoded = s.decoded ++ input.request.toList := by
  obtain ⟨d, mv⟩ := t
  unfold turn move delivers
  cases mv with
  | arrive bs =>
    refine Or.inl ⟨rfl, ?_⟩
    dsimp only
    split_ifs
    · exact ⟨rfl, rfl⟩
    · exact ⟨rfl, rfl⟩
  | hangUp => exact Or.inl ⟨rfl, rfl, rfl⟩
  | poll m =>
    dsimp only
    split_ifs with hclosed
    · exact Or.inl ⟨rfl, rfl, rfl⟩
    · rcases s.inbox.poll Resp3Frame.readFrame s.ended with ⟨answer, inbox⟩
      match answer with
      | none => exact Or.inl ⟨rfl, rfl, rfl⟩
      | some (.ok (some f)) => exact Or.inr ⟨m, .frame f, rfl, hclosed, rfl, rfl⟩
      | some (.ok none) => exact Or.inr ⟨m, .disconnected, rfl, hclosed, rfl, (List.append_nil _).symm⟩
      | some (.error e) => exact Or.inr ⟨m, .failed e, rfl, hclosed, rfl, (List.append_nil _).symm⟩
  | event m ev =>
    dsimp only
    split_ifs with hsub
    · exact Or.inr ⟨m, .event ev, rfl, by simp [hsub], rfl, (List.append_nil _).symm⟩
    · exact Or.inl ⟨rfl, rfl, rfl⟩
  | notify m shutdown =>
    dsimp only
    split_ifs with hclosed
    · exact Or.inl ⟨rfl, rfl, rfl⟩
    · exact Or.inr ⟨m, .notified shutdown, rfl, hclosed, rfl, (List.append_nil _).symm⟩

theorem turn_closed (h : s.connection.mode = .closed) :
    (s.turn B authRequired t).connection.mode = .closed := by
  rcases turn_cases B authRequired s t with ⟨-, hconn, -⟩ | ⟨m, input, -, hopen, -⟩
  · rw [hconn]
    exact h
  · exact absurd h hopen

theorem run_closed (h : s.connection.mode = .closed) :
    (Schedule.run (turn B authRequired) s ts).connection.mode = .closed := by
  induction ts generalizing s with
  | nil => exact h
  | cons t ts ih => exact ih (turn_closed h)

theorem matched_of_answers {o : Outcome C σ} {f : Resp3Frame} (h : Answers o) :
    Exchange.Matched ⟨some f, o.written⟩ := by
  obtain ⟨reply, hw, hreply⟩ := h
  simp [Exchange.Matched, Exchange.replies, hw, hreply]

/-- While the connection is open, a frame is answered by one reply, but for one that is handled
while subscribed and does not parse. -/
theorem frame_matched_iff {m : Moment C} {conn : Connection C} {d : Dispatcher C σ}
    {f : Resp3Frame} (hd : CachesReplies d) (hopen : conn.mode ≠ .closed) :
    Exchange.Matched ⟨some f, (step B authRequired m conn d (.frame f)).written⟩ ↔
      (conn.mode = .subscribed → ∃ cmd, parseCommand (C := C) f = .ok cmd) := by
  cases h : conn.mode with
  | closed => exact absurd h hopen
  | command =>
    refine iff_of_true ?_ (fun hsub => by cases hsub)
    simp only [step, h]
    exact matched_of_answers (answers_handleFrame hd)
  | subscribed =>
    simp only [step, h, true_implies]
    rcases handleSubscribedFrame_written conn d f with ⟨e, he, hw⟩ | ⟨cmd, hcmd, hanswers⟩
    · simp [Exchange.Matched, Exchange.replies, hw, he]
    · exact iff_of_true (matched_of_answers hanswers) ⟨cmd, hcmd⟩

/-- In a turn that leaves the session open, what is written fits the request exactly when a frame
handled while subscribed parses. -/
theorem exchange_matched_iff (hd : CachesReplies t.dispatcher)
    (hopen : (s.turn B authRequired t).connection.mode ≠ .closed) :
    (s.exchange B authRequired t).Matched ↔ s.Parses t := by
  rcases turn_cases B authRequired s t with ⟨hnone, -⟩ | ⟨m, input, hin, hmode, hconn, -⟩
  · simp [exchange, hnone, Parses, Exchange.Matched, Exchange.replies]
  · rw [hconn] at hopen
    simp only [exchange, hin, Parses, Option.some.injEq, Prod.mk.injEq]
    cases input with
    | disconnected => exact absurd (step_final rfl) hopen
    | failed e => exact absurd (step_final rfl) hopen
    | notified shutdown =>
      cases shutdown with
      | true => exact absurd (step_final rfl) hopen
      | false => cases h : s.connection.mode <;> simp [step, h, Input.request, Exchange.Matched,
          Exchange.replies]
    | event ev =>
      refine iff_of_true ?_ (fun m' f' hf => by cases hf.2)
      cases h : s.connection.mode with
      | command => simp [step, h, Input.request, Exchange.Matched, Exchange.replies]
      | closed => exact absurd h hmode
      | subscribed => cases ev <;> simp [step, h, handleEvent, respond, subscriptionEventToPushFrame,
          subscriptionClosedFrame, Input.request, Exchange.Matched, Exchange.replies,
          Resp3Frame.isPush]
    | frame f =>
      refine (frame_matched_iff hd hmode).trans ⟨?_, fun hparse => hparse m f ⟨rfl, rfl⟩⟩
      rintro hparse m' f' ⟨-, hf⟩
      cases hf
      exact hparse

theorem transcript_matched_iff (hd : ∀ t ∈ ts, CachesReplies t.dispatcher)
    (hopen : (Schedule.run (turn B authRequired) s ts).connection.mode ≠ .closed) :
    (∀ e ∈ s.transcript B authRequired ts, e.Matched) ↔
      Schedule.Guarded (turn B authRequired) Parses s ts := by
  induction ts generalizing s with
  | nil => simp [transcript, Schedule.Guarded]
  | cons t ts ih =>
    have hturn : (s.turn B authRequired t).connection.mode ≠ .closed := by
      intro hclosed
      have hrun : (Schedule.run (turn B authRequired) (s.turn B authRequired t) ts).connection.mode =
          .closed := run_closed hclosed
      exact hopen hrun
    rw [transcript, List.forall_mem_cons, Schedule.Guarded,
      exchange_matched_iff (hd t (by simp)) hturn,
      ih (fun t' ht' => hd t' (by simp [ht'])) hopen]

/-- The requests handled are the frames decoded. -/
theorem transcript_requests (s : Session C σ) (ts : List (Turn C σ)) :
    s.decoded ++ (s.transcript B authRequired ts).flatMap (fun e => e.request.toList) =
      (Schedule.run (turn B authRequired) s ts).decoded := by
  induction ts generalizing s with
  | nil => simp [transcript, Schedule.run]
  | cons t ts ih =>
    have hstep : (s.turn B authRequired t).decoded =
        s.decoded ++ (s.exchange B authRequired t).request.toList := by
      rcases turn_cases B authRequired s t with ⟨hnone, -, hdec⟩ | ⟨m, input, hin, -, -, hdec⟩
      · simp [exchange, hnone, hdec]
      · simp [exchange, hin, hdec]
    rw [transcript, List.flatMap_cons, ← List.append_assoc, ← hstep]
    exact ih _

theorem replies_answer_requests {T : List Exchange} (h : ∀ e ∈ T, e.Matched) :
    List.Forall₂ (fun f r => ∃ e ∈ T, e.request = some f ∧ e.replies = [r])
      (T.flatMap fun e => e.request.toList) (T.flatMap Exchange.replies) := by
  induction T with
  | nil => exact .nil
  | cons e T ih =>
    obtain ⟨he, hT⟩ := List.forall_mem_cons.mp h
    have hrest := (ih hT).imp fun f r hfr => by
      obtain ⟨e', he', hboth⟩ := hfr
      exact (⟨e', List.mem_cons_of_mem e he', hboth⟩ :
        ∃ e' ∈ e :: T, e'.request = some f ∧ e'.replies = [r])
    cases hf : e.request with
    | none =>
      rw [Exchange.Matched, hf] at he
      simpa [hf, List.eq_nil_of_length_eq_zero he] using hrest
    | some f =>
      rw [Exchange.Matched, hf] at he
      obtain ⟨r, hr⟩ := List.length_eq_one_iff.mp he
      simp only [List.flatMap_cons, hf, hr, Option.toList_some, List.singleton_append]
      exact .cons ⟨e, List.mem_cons_self, hf, hr⟩ hrest

theorem inStep_turns (hs : InStep s)
    (hwhole : Schedule.Guarded (turn B authRequired) (fun s t => Whole s t.move) s ts) :
    InStep (Schedule.run (turn B authRequired) s ts) := by
  refine Schedule.run_invariant (fun s t hw h => ?_) hwhole hs
  have hfound : InStep { s with dispatcher := t.dispatcher } := h
  exact inStep_move hw hfound

/-- In a session that is still open, every request handled was answered by exactly one reply, and
no reply was written otherwise, exactly when every frame handled while subscribed parsed. Then the
k-th reply answers the k-th request. The requests are the frames decoded, which are those of the
stream while nothing interrupts a frame. -/
theorem one_reply_each_iff (B : Backend C σ) (authRequired : Bool) (conn : Connection C)
    (d : Dispatcher C σ) (buffered : Bytes) (ts : List (Turn C σ))
    (hd : ∀ t ∈ ts, Reached B t.dispatcher) :
    let first : Session C σ := start conn d buffered
    let s := Schedule.run (turn B authRequired) first ts
    let T := first.transcript B authRequired ts
    let requests := T.flatMap fun e => e.request.toList
    (s.connection.mode ≠ .closed →
      ((∀ e ∈ T, e.Matched) ↔ Schedule.Guarded (turn B authRequired) Parses first ts)) ∧
    ((∀ e ∈ T, e.Matched) →
      List.Forall₂ (fun f r => ∃ e ∈ T, e.request = some f ∧ e.replies = [r])
        requests (T.flatMap Exchange.replies)) ∧
    requests = s.decoded ∧
    (Schedule.Guarded (turn B authRequired) (fun s t => Whole s t.move) first ts →
      s.connection.mode ≠ .closed → ∃ left ending,
        Reader.decode Resp3Frame.readFrame s.ended s.inbox.contents = (left, ending) ∧
        Reader.decode Resp3Frame.readFrame s.ended s.received = (requests ++ left, ending)) := by
  intro first s T requests
  have hrequests : requests = s.decoded := transcript_requests first ts
  refine ⟨fun hopen => transcript_matched_iff (fun t ht => (hd t ht).cachesReplies) hopen,
    replies_answer_requests, hrequests, fun hwhole hopen => ?_⟩
  have hinit : InStep first := ⟨buffered, .nil, fun _ => rfl⟩
  obtain ⟨rest, hyields, hrest⟩ := inStep_turns hinit hwhole
  obtain rfl := hrest hopen
  rw [hrequests]
  exact ⟨_, _, rfl, Reader.decode_of_yields Resp3Frame.takes_readFrame hyields⟩

end Session

namespace Memory

/-- A request arrives and is read. -/
def request (words : List String) : List (Turn crates State) :=
  let frame : Resp3Frame := .array (words.map fun w => .bulkString (utf8 w))
  [⟨fresh [], .arrive frame.writeFrame⟩, ⟨fresh [], .poll moment⟩]

/-- A connection of the reader in the command loop. -/
def reading : Session crates State := .start ⟨some reader, none, .command⟩ (fresh []) []

theorem reached_request {t : Turn crates State} {words : List String} (h : t ∈ request words) :
    Reached backend t.dispatcher := by
  rcases List.mem_cons.mp h with rfl | h
  · exact .new _ _ _
  · obtain rfl := List.mem_singleton.mp h
    exact .new _ _ _

/-- While subscribed an unknown command gets no reply, and the reply to the PING after it is the
second of the connection. -/
theorem unknown_command_not_answered :
    let ts := request ["SUBSCRIBE", "a"] ++ request ["FOO"] ++ request ["PING"]
    let T := reading.transcript backend true ts
    (Effect.Schedule.run (Session.turn backend true) reading ts).connection.mode = .subscribed ∧
      T.map (fun e => (e.request.isSome, e.replies.length)) =
        [(false, 0), (true, 1), (false, 0), (true, 0), (false, 0), (true, 1)] ∧
      ¬ ∀ e ∈ T, e.Matched :=
  ⟨rfl, rfl, by decide⟩

/-- Known commands are answered while subscribed, and an unknown one afterwards. -/
theorem every_request_answered :
    let ts := request ["SUBSCRIBE", "a"] ++ [⟨fresh [], .event moment (some putEvent)⟩] ++
      request ["GET", "a", "k"] ++ request ["UNSUBSCRIBE"] ++ request ["FOO"]
    let T := reading.transcript backend true ts
    (∀ t ∈ ts, Reached backend t.dispatcher) ∧ (∀ e ∈ T, e.Matched) ∧
      Effect.Schedule.Guarded (Session.turn backend true) Session.Parses reading ts := by
  intro ts T
  have hd : ∀ t ∈ ts, Reached backend t.dispatcher := by
    intro t ht
    simp only [ts, List.mem_append, List.mem_singleton] at ht
    obtain (((ht | rfl) | ht) | ht) | ht := ht
    · exact reached_request ht
    · exact .new _ _ _
    · exact reached_request ht
    · exact reached_request ht
    · exact reached_request ht
  have hmatched : ∀ e ∈ T, e.Matched := by decide
  have hopen : (Effect.Schedule.run (Session.turn backend true) reading ts).connection.mode ≠
      .closed := by decide
  exact ⟨hd, hmatched, ((Session.one_reply_each_iff backend true ⟨some reader, none, .command⟩
    (fresh []) [] ts hd).1 hopen).mp hmatched⟩

end Memory

end Shroudb
