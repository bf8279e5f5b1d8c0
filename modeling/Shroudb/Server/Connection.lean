import Mathlib.Algebra.Order.Field.Rat
import Shroudb.Resp3.Reader
import Shroudb.Protocol.Dispatch

/-! `handle_connection` and `handle_subscription`, one delivered input at a time. -/
namespace Shroudb
open Wire

/-- Token counts are exact rationals here, and `f64` in the code. -/
structure RateLimiter where
  tokens : ℚ
  maxTokens : ℚ
  refillRate : ℚ
  lastRefill : Instant

namespace RateLimiter

def new (maxTokens refillRate : ℚ) (now : Instant) : RateLimiter := ⟨1, maxTokens, refillRate, now⟩

def tryAcquire (l : RateLimiter) (now : Instant) : Bool × RateLimiter :=
  let elapsed : ℚ := (now - l.lastRefill : ℕ) / 10 ^ 9
  let tokens := min (l.tokens + elapsed * l.refillRate) l.maxTokens
  if 1 ≤ tokens then (true, { l with tokens := tokens - 1, lastRefill := now })
  else (false, { l with tokens := tokens, lastRefill := now })

end RateLimiter

/-- Which loop the connection is in. -/
inductive Mode where
  | command
  | subscribed
  | closed
deriving DecidableEq, Repr

structure Connection (C : Crates) where
  auth : Option C.AuthContext
  rateLimiter : Option RateLimiter
  mode : Mode

/-- The connection as `handle_connection` starts. -/
def Connection.new (C : Crates) (authRequired : Bool) (rateLimit : Option UInt32) (now : Instant) :
    Connection C where
  auth := if authRequired then none else some (C.platform "default" "anonymous")
  rateLimiter := rateLimit.map fun limit => .new limit.toNat limit.toNat now
  mode := .command

/-- What the connection meets while it handles one input: its clocks, the token validator, and
whether its reply can be written. -/
structure Moment (C : Crates) where
  instant : Instant
  wall : Option UInt64
  validate : String → Except String C.AuthContext
  writeOk : Bool

/-- What the connection did, for the record. -/
inductive Deed (C : Crates) where
  | validated (token : String) (answer : Except String C.AuthContext)
  | checkedExpiry (ctx : C.AuthContext) (now : UInt64) (expired : Bool)
  | executed (cmd : Command) (auth : Option C.AuthContext)
  | entered (ns : String) (auth : Option C.AuthContext)

structure Outcome (C : Crates) (σ : Type) where
  written : List Resp3Frame
  connection : Connection C
  dispatcher : Dispatcher C σ
  deeds : List (Deed C)

section
variable {C : Crates} {σ : Type}

/-- One reply. The connection closes when it cannot be written. -/
def respond (m : Moment C) (conn : Connection C) (d : Dispatcher C σ) (deeds : List (Deed C))
    (frame : Resp3Frame) : Outcome C σ where
  written := [frame]
  connection := if m.writeOk then conn else { conn with mode := .closed }
  dispatcher := d
  deeds := deeds

def denied (reason : String) : Resp3Frame :=
  responseToFrame (C := C) (.error (.denied reason))

def notAuthenticated (C : Crates) : Resp3Frame :=
  responseToFrame (C := C) (.error .notAuthenticated)

def eventFilter (events : List String) : List EventType :=
  events.filterMap fun e =>
    match toAsciiLowercase e with
    | "put" => some .put
    | "delete" => some .delete
    | _ => none

/-- The store's answer to a subscription. Success switches the connection to streaming. -/
def openSubscription (m : Moment C) (conn : Connection C) (d : Dispatcher C σ)
    (deeds : List (Deed C)) (ns : String) :
    Except (StoreError C.ValidationError) Unit → Outcome C σ
  | .error e => respond m conn d deeds (responseToFrame (C := C) (.error (.store e)))
  | .ok () =>
    respond m { conn with mode := .subscribed } d (deeds ++ [.entered ns conn.auth])
      (responseToFrame (C := C) (.success (ResponseMap.ok.field "namespace" (.string ns))))

/-- SUBSCRIBE at the connection level, after the expiry check. -/
def handleSubscribe (B : Backend C σ) (authRequired : Bool) (m : Moment C) (conn : Connection C)
    (d : Dispatcher C σ) (deeds : List (Deed C)) (ns : String) (key : Option Bytes)
    (events : List String) : Outcome C σ :=
  let opened := Dispatcher.answer B (.call (.subscribe ns ⟨key, eventFilter events⟩)) d
  match conn.auth with
  | some ctx =>
    match C.check ctx (Command.subscribe ns key events).aclRequirement with
    | .error e => respond m conn d deeds (denied (C := C) e)
    | .ok () => openSubscription m conn opened.2 deeds ns opened.1
  | none =>
    if authRequired then respond m conn d deeds (notAuthenticated C)
    else openSubscription m conn opened.2 deeds ns opened.1

/-- SUBSCRIBE or the dispatcher, for a command that passed every check of the connection. -/
def handleAdmitted (B : Backend C σ) (authRequired : Bool) (m : Moment C) (conn : Connection C)
    (d : Dispatcher C σ) (deeds : List (Deed C)) : Command → Outcome C σ
  | .subscribe ns key events => handleSubscribe B authRequired m conn d deeds ns key events
  | command =>
    let (response, d) := execute B conn.auth command d
    respond m conn d (deeds ++ [.executed command conn.auth]) (responseToFrame response)

/-- The expiry check. It fails closed when the clock cannot be read. -/
def handleUnexpired (B : Backend C σ) (authRequired : Bool) (m : Moment C) (conn : Connection C)
    (d : Dispatcher C σ) (command : Command) : Outcome C σ :=
  match conn.auth with
  | none => handleAdmitted B authRequired m conn d [] command
  | some ctx =>
    match m.wall with
    | none =>
      ⟨[responseToFrame (C := C) (.error (.internal "system clock error"))],
        { conn with mode := .closed }, d, []⟩
    | some now =>
      let deeds := [Deed.checkedExpiry ctx now (C.isExpired ctx now)]
      if C.isExpired ctx now then
        respond m { conn with auth := none } d deeds (notAuthenticated C)
      else handleAdmitted B authRequired m conn d deeds command

def handleAuth (m : Moment C) (conn : Connection C) (d : Dispatcher C σ) (token : String) :
    Outcome C σ :=
  match m.validate token with
  | .ok ctx =>
    respond m { conn with auth := some ctx } d [.validated token (.ok ctx)]
      (responseToFrame (C := C) (.success (ResponseMap.ok.field "actor" (.string (C.actor ctx)))))
  | .error e => respond m conn d [.validated token (.error e)] (denied (C := C) e)

/-- The checks in order: AUTH, then being authenticated, then expiry. -/
def handleLimited (B : Backend C σ) (authRequired : Bool) (m : Moment C) (conn : Connection C)
    (d : Dispatcher C σ) : Command → Outcome C σ
  | .auth token => handleAuth m conn d token
  | .ping => handleUnexpired B authRequired m conn d .ping
  | command =>
    if authRequired ∧ conn.auth.isNone then respond m conn d [] (notAuthenticated C)
    else handleUnexpired B authRequired m conn d command

/-- A parsed command, behind the rate limiter. -/
def handleCommand (B : Backend C σ) (authRequired : Bool) (m : Moment C) (conn : Connection C)
    (d : Dispatcher C σ) (command : Command) : Outcome C σ :=
  match conn.rateLimiter with
  | none => handleLimited B authRequired m conn d command
  | some limiter =>
    let (admitted, limiter) := limiter.tryAcquire m.instant
    let conn := { conn with rateLimiter := some limiter }
    if admitted then handleLimited B authRequired m conn d command
    else respond m conn d [] (denied (C := C) "rate limit exceeded")

/-- A request frame in the command loop. -/
def handleFrame (B : Backend C σ) (authRequired : Bool) (m : Moment C) (conn : Connection C)
    (d : Dispatcher C σ) (frame : Resp3Frame) : Outcome C σ :=
  match parseCommand (C := C) frame with
  | .error e => respond m conn d [] (.simpleError ("ERR " ++ e.text))
  | .ok command => handleCommand B authRequired m conn d command

/-! ## Subscription mode -/

def eventText : EventType → String
  | .put => "put"
  | .delete => "delete"

def subscriptionEventToPushFrame (ev : SubscriptionEvent) : Resp3Frame :=
  .push [.simpleString "subscribe", .simpleString (eventText ev.event), .bulkString (utf8 ev.ns),
    .bulkString ev.key, .integer ev.version.toInt64, .bulkString (utf8 ev.actor),
    .integer ev.timestamp.toInt64]

def subscriptionClosedFrame : Resp3Frame :=
  .push [.simpleString "subscription", .simpleString "closed"]

/-- A request frame while subscribed: UNSUBSCRIBE and PING only. Write errors are ignored, and a
frame that does not parse gets no reply. -/
def handleSubscribedFrame (conn : Connection C) (d : Dispatcher C σ) (frame : Resp3Frame) :
    Outcome C σ :=
  match parseCommand (C := C) frame with
  | .ok .unsubscribe =>
    ⟨[responseToFrame (C := C) (.success ResponseMap.ok)], { conn with mode := .command }, d, []⟩
  | .ok .ping =>
    ⟨[responseToFrame (C := C) (.success (ResponseMap.ok.field "message" (.string "PONG")))],
      conn, d, []⟩
  | .ok _ =>
    ⟨[.simpleError "ERR only UNSUBSCRIBE and PING allowed during subscription"], conn, d, []⟩
  | .error _ => ⟨[], conn, d, []⟩

/-- The next event of the subscription, or its end. -/
def handleEvent (m : Moment C) (conn : Connection C) (d : Dispatcher C σ) :
    Option SubscriptionEvent → Outcome C σ
  | some ev => respond m conn d [] (subscriptionEventToPushFrame ev)
  | none => ⟨[subscriptionClosedFrame], { conn with mode := .command }, d, []⟩

/-! ## The two loops -/

/-- What a `select!` of either loop delivers. -/
inductive Input where
  | frame (f : Resp3Frame)
  | disconnected
  | failed (e : ProtocolError)
  | notified (shutdown : Bool)
  | event (ev : Option SubscriptionEvent)

def step (B : Backend C σ) (authRequired : Bool) (m : Moment C) (conn : Connection C)
    (d : Dispatcher C σ) (input : Input) : Outcome C σ :=
  match conn.mode, input with
  | .closed, _ => ⟨[], conn, d, []⟩
  | _, .notified true => ⟨[], { conn with mode := .closed }, d, []⟩
  | _, .notified false => ⟨[], conn, d, []⟩
  | _, .disconnected => ⟨[], { conn with mode := .closed }, d, []⟩
  | .command, .frame f => handleFrame B authRequired m conn d f
  | .command, .failed e =>
    ⟨[.simpleError ("ERR protocol: " ++ e.text)], { conn with mode := .closed }, d, []⟩
  | .command, .event _ => ⟨[], conn, d, []⟩
  | .subscribed, .frame f => handleSubscribedFrame conn d f
  | .subscribed, .failed _ => ⟨[], { conn with mode := .closed }, d, []⟩
  | .subscribed, .event ev => handleEvent m conn d ev

end

end Shroudb
