import Shroudb.Server.AuthGate
import Shroudb.Server.Subscription

/-! What a connection writes after the token of its client has expired. -/
namespace Shroudb
open Wire Effect

variable {C : Crates} {σ : Type}

/-- The connection after the visit. -/
def Visit.next (B : Backend C σ) (conn : Connection C) (v : Visit C σ) : Connection C :=
  (v.outcome B conn).connection

/-- The context that the connection holds has expired by the clock of the visit. -/
def Visit.Expired (conn : Connection C) (v : Visit C σ) : Prop :=
  ∃ ctx now, conn.auth = some ctx ∧ v.moment.wall = some now ∧ C.isExpired ctx now = true

def rateLimitExceeded (C : Crates) : Resp3Frame := denied (C := C) "rate limit exceeded"

/-- Whether a command is one that the connection answers also without a context. -/
def Command.isOpen : Command → Bool
  | .ping | .auth _ => true
  | _ => false

/-- What asks for data: an event for the client, or a command that needs a context. -/
def Input.asksForData (C : Crates) : Input → Bool
  | .event (some _) => true
  | .frame f =>
    match parseCommand (C := C) f with
    | .ok command => !command.isOpen
    | .error _ => false
  | _ => false

/-- What may be written also to a client whose token has expired. -/
def Input.MayGet (C : Crates) (input : Input) (reply : Resp3Frame) : Prop :=
  input.asksForData C = true →
    ∃ f, input = .frame f ∧ (reply = notAuthenticated C ∨ reply = rateLimitExceeded C)

/-- No event and no reply with data is written after expiry. -/
def Visit.Withholds (B : Backend C σ) (conn : Connection C) (v : Visit C σ) : Prop :=
  v.Expired conn → ∀ reply ∈ (v.outcome B conn).written, v.input.MayGet C reply

/-- Nothing asks for data in subscription mode after expiry. -/
def Visit.Undisturbed (conn : Connection C) (v : Visit C σ) : Prop :=
  conn.mode = .subscribed → v.Expired conn → v.input.asksForData C = false

theorem asksForData_iff {input : Input} : input.asksForData C = true ↔
    (∃ ev, input = .event (some ev)) ∨
      ∃ f command, input = .frame f ∧ parseCommand (C := C) f = .ok command ∧
        command.isOpen = false := by
  constructor
  · intro h
    cases input with
    | frame f =>
      cases hparse : parseCommand (C := C) f with
      | error e => simp [Input.asksForData, hparse] at h
      | ok command =>
        have hcommand : command.isOpen = false := by simpa [Input.asksForData, hparse] using h
        exact Or.inr ⟨f, command, rfl, hparse, hcommand⟩
    | event ev =>
      cases ev with
      | none => cases h
      | some ev => exact Or.inl ⟨ev, rfl⟩
    | _ => cases h
  · rintro (⟨ev, rfl⟩ | ⟨f, command, rfl, hparse, hcommand⟩)
    · rfl
    · simp [Input.asksForData, hparse, hcommand]

/-! ## The command loop -/

section
variable {B : Backend C σ} {m : Moment C} {conn : Connection C} {d : Dispatcher C σ}
  {command : Command} {ctx : C.AuthContext} {now : UInt64}

theorem handleUnexpired_expired (hctx : conn.auth = some ctx) (hnow : m.wall = some now)
    (hexp : C.isExpired ctx now = true) :
    (handleUnexpired B true m conn d command).written = [notAuthenticated C] := by
  simp [handleUnexpired, hctx, hnow, hexp, respond]

theorem handleLimited_expired (conn : Connection C) (hctx : conn.auth = some ctx)
    (hnow : m.wall = some now) (hexp : C.isExpired ctx now = true)
    (hcommand : command.isOpen = false) :
    (handleLimited B true m conn d command).written = [notAuthenticated C] := by
  have hsome : ¬ (true ∧ conn.auth.isNone) := by simp [hctx]
  unfold handleLimited
  split
  · cases hcommand
  · cases hcommand
  · rw [if_neg hsome]
    exact handleUnexpired_expired hctx hnow hexp

theorem handleCommand_expired (hctx : conn.auth = some ctx) (hnow : m.wall = some now)
    (hexp : C.isExpired ctx now = true) (hcommand : command.isOpen = false) :
    (handleCommand B true m conn d command).written = [notAuthenticated C] ∨
      (handleCommand B true m conn d command).written = [rateLimitExceeded C] := by
  unfold handleCommand
  split
  case h_1 => exact Or.inl (handleLimited_expired conn hctx hnow hexp hcommand)
  case h_2 limiter _ =>
    dsimp only
    split_ifs
    · exact Or.inl (handleLimited_expired
        { conn with rateLimiter := some (limiter.tryAcquire m.instant).2 } hctx hnow hexp hcommand)
    · exact Or.inr rfl

/-- In the command loop the check stands before everything that asks for data. -/
theorem withholds_command {v : Visit C σ} (hmode : conn.mode = .command) :
    v.Withholds B conn := by
  rintro ⟨ctx, now, hctx, hnow, hexp⟩ reply hreply hasks
  rcases asksForData_iff.mp hasks with ⟨ev, hinput⟩ | ⟨f, command, hinput, hparse, hcommand⟩
  · simp only [Visit.outcome, hinput, step, hmode] at hreply
    cases hreply
  · simp only [Visit.outcome, hinput, step, hmode, handleFrame, hparse] at hreply
    refine ⟨f, hinput, ?_⟩
    rcases handleCommand_expired hctx hnow hexp hcommand with hwritten | hwritten
    · exact Or.inl (List.mem_singleton.mp (hwritten ▸ hreply))
    · exact Or.inr (List.mem_singleton.mp (hwritten ▸ hreply))

/-! ## Subscription mode -/

/-- Every command that is parsed gets its reply at once, and UNSUBSCRIBE its OK. -/
theorem handleSubscribedFrame_asked (conn : Connection C) (d : Dispatcher C σ) {f : Resp3Frame}
    (hparse : parseCommand (C := C) f = .ok command) (hcommand : command.isOpen = false) :
    ∃ reply, (handleSubscribedFrame conn d f).written = [reply] ∧
      reply ≠ notAuthenticated C ∧ reply ≠ rateLimitExceeded C := by
  have hmap : ∀ t, responseToFrame (C := C) (.success ResponseMap.ok) ≠ .simpleError t := by
    intro t h
    cases h
  have hother : Resp3Frame.simpleError "ERR only UNSUBSCRIBE and PING allowed during subscription" ≠
      notAuthenticated C ∧
      Resp3Frame.simpleError "ERR only UNSUBSCRIBE and PING allowed during subscription" ≠
        rateLimitExceeded C := by
    constructor
    · intro h
      exact absurd (Resp3Frame.simpleError.inj h) (show _ ≠ "not authenticated" by decide)
    · intro h
      exact absurd (Resp3Frame.simpleError.inj h)
        (show _ ≠ "permission denied: " ++ "rate limit exceeded" by decide)
  unfold handleSubscribedFrame
  rw [hparse]
  cases command with
  | unsubscribe => exact ⟨_, rfl, hmap _, hmap _⟩
  | ping => cases hcommand
  | _ => exact ⟨_, rfl, hother⟩

theorem withholds_subscribed_iff {v : Visit C σ} (hmode : conn.mode = .subscribed) :
    v.Withholds B conn ↔ (v.Expired conn → v.input.asksForData C = false) := by
  constructor
  · intro hwithholds hexp
    by_contra hasks
    rw [Bool.not_eq_false] at hasks
    rcases asksForData_iff.mp hasks with ⟨ev, hinput⟩ | ⟨f, command, hinput, hparse, hcommand⟩
    · have hreply : subscriptionEventToPushFrame ev ∈ (v.outcome B conn).written := by
        simp [Visit.outcome, hinput, step, hmode, handleEvent, respond]
      obtain ⟨f, hf, -⟩ := hwithholds hexp _ hreply hasks
      cases hinput.symm.trans hf
    · obtain ⟨reply, hwritten, hnot, hrate⟩ :=
        handleSubscribedFrame_asked conn v.dispatcher hparse hcommand
      have hreply : reply ∈ (v.outcome B conn).written := by
        simp only [Visit.outcome, hinput, step, hmode, hwritten, List.mem_singleton]
      obtain ⟨f', -, h | h⟩ := hwithholds hexp reply hreply hasks
      · exact hnot h
      · exact hrate h
  · intro hquiet hexp reply _ hasks
    rw [hquiet hexp] at hasks
    cases hasks

theorem withholds_iff {v : Visit C σ} : v.Withholds B conn ↔ v.Undisturbed conn := by
  cases hmode : conn.mode with
  | command => exact iff_of_true (withholds_command hmode) (fun h => by simp [hmode] at h)
  | subscribed =>
    rw [withholds_subscribed_iff hmode]
    exact ⟨fun h _ => h, fun h => h hmode⟩
  | closed =>
    refine iff_of_true ?_ (fun h => by simp [hmode] at h)
    intro _ reply hreply
    simp [Visit.outcome, step, hmode] at hreply

end

/-- A run of a connection that requires authentication withholds all data after expiry exactly
when, in subscription mode, neither an event nor a command other than PING and AUTH comes after
the token has expired. -/
theorem withholds_after_expiry_iff (B : Backend C σ) (rateLimit : Option UInt32) (start : Instant)
    (visits : List (Visit C σ)) :
    Schedule.Guarded (Visit.next B) (Visit.Withholds B) (.new C true rateLimit start) visits ↔
      Schedule.Guarded (Visit.next B) Visit.Undisturbed (.new C true rateLimit start) visits :=
  Schedule.guarded_congr fun _ _ => withholds_iff

namespace Memory

/-- An event at time 30. -/
def lateEvent : Visit crates State where
  moment := ⟨0, some 30, fun _ => .error "unknown token", true⟩
  dispatcher := .new [] (Stream'.const 0) (Stream'.const (some 30))
  input := .event (some putEvent)

/-- A client whose token is good until time 20 subscribes at time 10 and gets an event at
time 30. -/
theorem event_after_expiry :
    let visits := [visit admin ["AUTH", "admin"], visit admin ["SUBSCRIBE", "a"]]
    let before := Schedule.run (Visit.next backend) (.new crates true none 0) visits
    lateEvent.Expired before ∧
    (lateEvent.outcome backend before).written = [subscriptionEventToPushFrame putEvent] ∧
    ¬ Schedule.Guarded (Visit.next backend) (Visit.Withholds backend) (.new crates true none 0)
      (visits ++ [lateEvent]) := by
  intro visits before
  have hexp : lateEvent.Expired before := ⟨admin, 30, rfl, rfl, rfl⟩
  have hwritten : (lateEvent.outcome backend before).written =
      [subscriptionEventToPushFrame putEvent] := rfl
  refine ⟨hexp, hwritten, ?_⟩
  rintro ⟨-, -, hwithholds, -⟩
  obtain ⟨f, hf, -⟩ := hwithholds hexp _ (List.mem_singleton.mpr rfl) rfl
  cases hf

end Memory

end Shroudb
