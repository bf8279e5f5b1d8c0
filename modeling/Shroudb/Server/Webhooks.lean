import Shroudb.Effect.Channels
import Shroudb.Effect.Schedule
import Shroudb.Protocol.RekeyKey

/-! Webhook actors: their filters, their requests and the loop that each of them runs. -/
namespace Shroudb
open Wire Effect

structure WebhookConfig where
  url : String
  secret : String
  events : List String
  namespaces : List String
  maxRetries : UInt32

/-- `serde_json::to_vec` of an event, and HMAC-SHA256 of a key and a message. -/
structure WebhookCrates where
  eventToVec : SubscriptionEvent → Except String Bytes
  hmacSha256 : Bytes → Bytes → Bytes

def eventTypeStr : EventType → String
  | .put => "put"
  | .delete => "delete"

/-- A `*` at the end of a pattern stands for any rest. -/
def coversNamespace (pattern ns : String) : Bool :=
  match pattern.toList.getLast? with
  | some '*' => pattern.toList.dropLast.isPrefixOf ns.toList
  | _ => ns == pattern

/-- An empty list of event types or of namespaces lets all of them through. -/
def matchesFilter (config : WebhookConfig) (event : SubscriptionEvent) : Bool :=
  (config.events.isEmpty ||
      config.events.any fun e => eqIgnoreAsciiCase e (eventTypeStr event.event)) &&
    (config.namespaces.isEmpty || config.namespaces.any fun p => coversNamespace p event.ns)

/-- A POST: its URL, the three headers and the body. -/
structure WebhookRequest where
  url : String
  contentType : String
  signature : String
  event : String
  body : Bytes
deriving DecidableEq, Repr

def webhookRequest (K : WebhookCrates) (config : WebhookConfig) (event : SubscriptionEvent) :
    Except String WebhookRequest :=
  match K.eventToVec event with
  | .error e => .error e
  | .ok body => .ok {
      url := config.url
      contentType := "application/json"
      signature := "sha256=" ++ hexEncode (K.hmacSha256 (utf8 config.secret) body)
      event := eventTypeStr event.event
      body }

/-- The status of the response, or why there is none. -/
abbrev PostResult := Except String Nat

def isSuccess : PostResult → Bool
  | .ok status => 200 ≤ status && status < 300
  | .error _ => false

/-- The pause after a failed attempt, in seconds. -/
def backoff (attempt : Nat) : Nat := 1 <<< min attempt 3

/-- What an actor does, and what it logs. -/
inductive WebhookDeed where
  | lagged (missed : Nat)
  | unserializable (error : String)
  | posted (request : WebhookRequest) (result : PostResult)
  | slept (secs : Nat)
  | exhausted (request : WebhookRequest)
deriving DecidableEq

/-- Where an actor waits: in the `select!` of its loop, for a response, or between two attempts. -/
inductive WebhookPhase where
  | selecting
  | posting (request : WebhookRequest) (attempt : Nat)
  | backingOff (request : WebhookRequest) (attempt : Nat)
  | stopped

/-- `start` and `next` are positions of its receiver in the event channel, `seen` the version of the
shutdown signal it has seen. -/
structure WebhookActor where
  config : WebhookConfig
  start : Nat
  next : Nat
  seen : Nat
  phase : WebhookPhase
  log : List WebhookDeed

inductive WebhookMove where
  | poll
  | reply (result : PostResult)
  | wake
  | abort

namespace WebhookActor

def new (config : WebhookConfig) (start : Nat) : WebhookActor :=
  ⟨config, start, start, 0, .selecting, []⟩

/-- What the loop does with the answer of `recv`. -/
def receive (K : WebhookCrates) (a : WebhookActor) :
    Option (Received SubscriptionEvent) → WebhookActor
  | none => a
  | some .closed => { a with phase := .stopped }
  | some (.lagged missed) => { a with log := a.log ++ [.lagged missed] }
  | some (.message event) =>
    if matchesFilter a.config event then
      match webhookRequest K a.config event with
      | .error e => { a with log := a.log ++ [.unserializable e] }
      | .ok request => { a with phase := .posting request 0 }
    else a

/-- `select!` is biased: the shutdown signal comes before the events. -/
def select (K : WebhookCrates) (capacity : Nat) (channel : Broadcast SubscriptionEvent)
    (shutdown : Watch Bool) (a : WebhookActor) : WebhookActor :=
  if shutdown.changed a.seen then
    { a with
      seen := shutdown.version, phase := if shutdown.value then .stopped else .selecting }
  else
    let (received, next) := channel.recv capacity a.next
    { a with next }.receive K received

/-- The response to an attempt. There is no pause after the last one. -/
def finishAttempt (a : WebhookActor) (request : WebhookRequest) (attempt : Nat)
    (result : PostResult) : WebhookActor :=
  if isSuccess result then
    { a with phase := .selecting, log := a.log ++ [.posted request result] }
  else if attempt < a.config.maxRetries.toNat then
    { a with
      phase := .backingOff request attempt,
      log := a.log ++ [.posted request result, .slept (backoff attempt)] }
  else
    { a with
      phase := .selecting, log := a.log ++ [.posted request result, .exhausted request] }

/-- Moves that do not apply change nothing. -/
def move (K : WebhookCrates) (capacity : Nat) (channel : Broadcast SubscriptionEvent)
    (shutdown : Watch Bool) (a : WebhookActor) (mv : WebhookMove) : WebhookActor :=
  match a.phase, mv with
  | .selecting, .poll => a.select K capacity channel shutdown
  | .posting request attempt, .reply result => a.finishAttempt request attempt result
  | .backingOff request attempt, .wake => { a with phase := .posting request (attempt + 1) }
  | _, .abort => { a with phase := .stopped }
  | _, _ => a

/-- A move that applies is a turn of the actor. -/
def turn (a : WebhookActor) (mv : WebhookMove) : Nat :=
  match a.phase, mv with
  | .selecting, .poll => 1
  | .posting .., .reply _ => 1
  | .backingOff .., .wake => 1
  | .stopped, _ => 0
  | _, .abort => 1
  | _, _ => 0

section
variable {K : WebhookCrates} {capacity : Nat} {channel : Broadcast SubscriptionEvent}
  {shutdown : Watch Bool}

/-- What a move can do. -/
theorem move_cases (a : WebhookActor) (mv : WebhookMove) :
    (a.phase = .selecting ∧ a.turn mv = 1 ∧
      a.move K capacity channel shutdown mv = a.select K capacity channel shutdown) ∨
    (∃ request attempt result, a.phase = .posting request attempt ∧ a.turn mv = 1 ∧
      a.move K capacity channel shutdown mv = a.finishAttempt request attempt result) ∨
    (∃ request attempt, a.phase = .backingOff request attempt ∧ a.turn mv = 1 ∧
      a.move K capacity channel shutdown mv =
        { a with phase := .posting request (attempt + 1) }) ∨
    (a.turn mv ≤ 1 ∧ a.phase ≠ .stopped ∧
      a.move K capacity channel shutdown mv = { a with phase := .stopped }) ∨
    (a.turn mv = 0 ∧ a.move K capacity channel shutdown mv = a) := by
  obtain ⟨config, start, next, seen, phase, log⟩ := a
  cases phase with
  | selecting => cases mv <;> simp [move, turn]
  | posting request attempt => cases mv <;> simp [move, turn]
  | backingOff request attempt => cases mv <;> simp [move, turn]
  | stopped => cases mv <;> simp [move, turn]

/-- What the loop does with an event leaves its receivers alone. -/
theorem receive_seen (a : WebhookActor) (received : Option (Received SubscriptionEvent)) :
    (a.receive K received).seen = a.seen := by
  unfold receive
  split
  · rfl
  · rfl
  · rfl
  · split_ifs
    · split <;> rfl
    · rfl

theorem select_seen (a : WebhookActor) :
    (a.select K capacity channel shutdown).seen = shutdown.version ∨
      (a.select K capacity channel shutdown).seen = a.seen := by
  unfold select
  split
  · exact Or.inl rfl
  · exact Or.inr (receive_seen _ _)

@[simp] theorem finishAttempt_seen (a : WebhookActor) (request : WebhookRequest) (attempt : Nat)
    (result : PostResult) : (a.finishAttempt request attempt result).seen = a.seen := by
  unfold finishAttempt
  split_ifs <;> rfl

/-- An actor has seen what it had seen before, or the signal as it is. -/
theorem move_seen (a : WebhookActor) (K : WebhookCrates) (capacity : Nat)
    (channel : Broadcast SubscriptionEvent) (shutdown : Watch Bool) (mv : WebhookMove) :
    (a.move K capacity channel shutdown mv).seen = shutdown.version ∨
      (a.move K capacity channel shutdown mv).seen = a.seen := by
  rcases move_cases a mv with ⟨-, -, h⟩ | ⟨request, attempt, result, -, -, h⟩ |
    ⟨request, attempt, -, -, h⟩ | ⟨-, -, h⟩ | ⟨-, h⟩
  · rw [h]
    exact select_seen a
  · rw [h]
    exact Or.inr (finishAttempt_seen a request attempt result)
  · rw [h]
    exact Or.inr rfl
  · rw [h]
    exact Or.inr rfl
  · rw [h]
    exact Or.inr rfl

end

end WebhookActor

/-- The event channel, the shutdown signal and the actors. -/
structure Webhooks where
  channel : Broadcast SubscriptionEvent
  shutdown : Watch Bool
  actors : List WebhookActor

inductive WebhooksMove where
  | publish (event : SubscriptionEvent)
  | close
  | notify (shutdown : Bool)
  | spawn (config : WebhookConfig)
  | actor (i : Nat) (mv : WebhookMove)

namespace Webhooks

/-- No actor yet, and whatever was published before. -/
def new (channel : Broadcast SubscriptionEvent) : Webhooks := ⟨channel, .new false, []⟩

/-- A receiver starts after the events that are there. Nothing is published once the channel is
closed. -/
def move (K : WebhookCrates) (capacity : Nat) (s : Webhooks) : WebhooksMove → Webhooks
  | .publish event => if s.channel.closed then s else { s with channel := s.channel.send event }
  | .close => { s with channel := { s.channel with closed := true } }
  | .notify shutdown => { s with shutdown := s.shutdown.send shutdown }
  | .spawn config => { s with actors := s.actors ++ [.new config s.channel.sent.length] }
  | .actor i mv =>
    { s with actors := s.actors.modify i fun a => a.move K capacity s.channel s.shutdown mv }

end Webhooks

end Shroudb
