import Shroudb.Effect.Schedule
import Shroudb.Server.AuthGate

/-! The access check of SUBSCRIBE, against the one of the dispatcher. -/
namespace Shroudb
open Wire Effect

variable {C : Crates} {σ : Type}

/-- One step of a connection, which may or may not require authentication. -/
def Visit.outcomeOf (B : Backend C σ) (authRequired : Bool) (v : Visit C σ) (conn : Connection C) :
    Outcome C σ :=
  step B authRequired v.moment conn v.dispatcher v.input

def Visit.nextOf (B : Backend C σ) (authRequired : Bool) (conn : Connection C) (v : Visit C σ) :
    Connection C :=
  (v.outcomeOf B authRequired conn).connection

/-- The rate limiter admits a command, and no expiry is observed. -/
structure Unhindered (m : Moment C) (conn : Connection C) : Prop where
  limiter : ∀ limiter ∈ conn.rateLimiter, (limiter.tryAcquire m.instant).1 = true
  unexpired : ∀ ctx ∈ conn.auth, ∃ now, m.wall = some now ∧ C.isExpired ctx now = false

/-- The store accepts the subscription. -/
def Backend.Accepts (B : Backend C σ) (d : Dispatcher C σ) (ns : String) (key : Option Bytes)
    (events : List String) : Prop :=
  (B.perform (.subscribe ns ⟨key, eventFilter events⟩) d.store).1 = .ok ()

/-- What the connection makes of the access check. Without a context it makes none. -/
def ConnectionPermits (authRequired : Bool) (auth : Option C.AuthContext) (ns : String) : Prop :=
  match auth with
  | some ctx => C.check ctx (.inNamespace ns .read none) = .ok ()
  | none => authRequired = false

/-! ## When a step enters subscription mode -/

section
variable {B : Backend C σ} {authRequired : Bool} {m : Moment C} {conn : Connection C}
  {d : Dispatcher C σ} {deeds : List (Deed C)} {ns : String} {used : Option C.AuthContext}
  {command : Command}

/-- The command is a SUBSCRIBE of `ns` that the store accepts. -/
def Command.Opens (B : Backend C σ) (d : Dispatcher C σ) (ns : String) (command : Command) : Prop :=
  ∃ key events, command = .subscribe ns key events ∧ Backend.Accepts B d ns key events

theorem entered_openSubscription {ns' : String}
    {answer : Except (StoreError C.ValidationError) Unit} :
    .entered ns used ∈ (openSubscription m conn d deeds ns' answer).deeds ↔
      .entered ns used ∈ deeds ∨ answer = .ok () ∧ ns = ns' ∧ used = conn.auth := by
  cases answer <;> simp [openSubscription]

theorem entered_handleSubscribe {ns' : String} {key : Option Bytes} {events : List String}
    (hdeeds : .entered ns used ∉ deeds) :
    .entered ns used ∈ (handleSubscribe B authRequired m conn d deeds ns' key events).deeds ↔
      ConnectionPermits authRequired conn.auth ns ∧ Backend.Accepts B d ns key events ∧ ns = ns' ∧
        used = conn.auth := by
  have hopened : ∀ d' : Dispatcher C σ, .entered ns used ∈ (openSubscription m conn d' deeds ns'
      (Dispatcher.answer B (.call (.subscribe ns' ⟨key, eventFilter events⟩)) d).1).deeds ↔
        Backend.Accepts B d ns key events ∧ ns = ns' ∧ used = conn.auth := by
    intro d'
    refine entered_openSubscription.trans ((or_iff_right hdeeds).trans ?_)
    constructor
    · rintro ⟨haccepted, rfl, rfl⟩
      exact ⟨haccepted, rfl, rfl⟩
    · rintro ⟨haccepted, rfl, rfl⟩
      exact ⟨haccepted, rfl, rfl⟩
  unfold handleSubscribe ConnectionPermits
  dsimp only
  cases hauth : conn.auth with
  | some ctx =>
    dsimp only
    cases hcheck : C.check ctx (Command.subscribe ns' key events).aclRequirement with
    | error e =>
      refine iff_of_false (by simpa using hdeeds) ?_
      rintro ⟨hok, -, rfl, -⟩
      rw [Command.aclRequirement] at hcheck
      rw [hcheck] at hok
      cases hok
    | ok _ =>
      rw [hauth] at hopened
      rw [hopened]
      constructor
      · rintro ⟨haccepted, rfl, rfl⟩
        exact ⟨hcheck, haccepted, rfl, rfl⟩
      · exact fun h => h.2
  | none =>
    dsimp only
    rw [hauth] at hopened
    split_ifs with hrequired
    · refine iff_of_false (by simpa using hdeeds) ?_
      rintro ⟨hfalse, -⟩
      rw [hrequired] at hfalse
      cases hfalse
    · rw [hopened]
      exact ⟨fun h => ⟨by simpa using hrequired, h⟩, fun h => h.2⟩

theorem entered_handleAdmitted (hdeeds : .entered ns used ∉ deeds) :
    .entered ns used ∈ (handleAdmitted B authRequired m conn d deeds command).deeds ↔
      used = conn.auth ∧ ConnectionPermits authRequired conn.auth ns ∧ command.Opens B d ns := by
  unfold handleAdmitted
  split
  case h_1 ns' key events =>
    rw [entered_handleSubscribe hdeeds]
    constructor
    · rintro ⟨hpermits, haccepted, rfl, hused⟩
      exact ⟨hused, hpermits, key, events, rfl, haccepted⟩
    · rintro ⟨hused, hpermits, key', events', hcommand, haccepted⟩
      cases hcommand
      exact ⟨hpermits, haccepted, rfl, hused⟩
  case h_2 hne =>
    refine iff_of_false ?_ ?_
    · simpa using hdeeds
    · rintro ⟨-, -, key, events, rfl, -⟩
      exact hne ns key events rfl

theorem entered_handleUnexpired :
    .entered ns used ∈ (handleUnexpired B authRequired m conn d command).deeds ↔
      used = conn.auth ∧ ConnectionPermits authRequired conn.auth ns ∧ command.Opens B d ns ∧
        ∀ ctx ∈ conn.auth, ∃ now, m.wall = some now ∧ C.isExpired ctx now = false := by
  unfold handleUnexpired
  split
  case h_1 hnone =>
    rw [entered_handleAdmitted (by simp), hnone]
    simp
  case h_2 ctx hctx =>
    split
    case h_1 hwall => simp [hctx, hwall]
    case h_2 now hnow =>
      dsimp only
      split_ifs with hexp
      · simp [hctx, hnow, hexp]
      · rw [entered_handleAdmitted (by simp), hctx]
        simp [hnow, hexp]

/-- Before authentication a connection that requires it enters no subscription either way. -/
theorem entered_handleLimited (conn : Connection C) :
    .entered ns used ∈ (handleLimited B authRequired m conn d command).deeds ↔
      used = conn.auth ∧ ConnectionPermits authRequired conn.auth ns ∧ command.Opens B d ns ∧
        ∀ ctx ∈ conn.auth, ∃ now, m.wall = some now ∧ C.isExpired ctx now = false := by
  unfold handleLimited
  split
  case h_1 token =>
    refine iff_of_false ?_ ?_
    · unfold handleAuth
      split <;> simp
    · rintro ⟨-, -, ⟨key, events, hcommand, -⟩, -⟩
      cases hcommand
  case h_2 => exact entered_handleUnexpired
  case h_3 =>
    split_ifs with hrefused
    · refine iff_of_false (by simp) ?_
      rintro ⟨-, hpermits, -⟩
      simp_all [ConnectionPermits]
    · exact entered_handleUnexpired

theorem entered_handleCommand :
    .entered ns used ∈ (handleCommand B authRequired m conn d command).deeds ↔
      used = conn.auth ∧ ConnectionPermits authRequired conn.auth ns ∧ command.Opens B d ns ∧
        Unhindered m conn := by
  unfold handleCommand
  split
  case h_1 hnone =>
    rw [entered_handleLimited]
    exact and_congr_right fun _ => and_congr_right fun _ => and_congr_right fun _ =>
      ⟨fun h => ⟨by simp [hnone], h⟩, fun h => h.unexpired⟩
  case h_2 limiter hlimiter =>
    dsimp only
    split_ifs with hadmitted
    · rw [entered_handleLimited]
      exact and_congr_right fun _ => and_congr_right fun _ => and_congr_right fun _ =>
        ⟨fun h => ⟨by simpa [hlimiter] using hadmitted, h⟩, fun h => h.unexpired⟩
    · refine iff_of_false (by simp) ?_
      rintro ⟨-, -, -, h⟩
      exact hadmitted (h.limiter limiter hlimiter)

end

/-- The visit brings a SUBSCRIBE of `ns` to the access check, and the store accepts it. -/
def Visit.Opens (B : Backend C σ) (conn : Connection C) (v : Visit C σ) (ns : String) : Prop :=
  conn.mode = .command ∧ Unhindered v.moment conn ∧
    ∃ f command, v.input = .frame f ∧ parseCommand (C := C) f = .ok command ∧
      command.Opens B v.dispatcher ns

theorem entered_iff {B : Backend C σ} {authRequired : Bool} {conn : Connection C} {v : Visit C σ}
    {ns : String} {used : Option C.AuthContext} :
    .entered ns used ∈ (v.outcomeOf B authRequired conn).deeds ↔
      used = conn.auth ∧ ConnectionPermits authRequired conn.auth ns ∧ v.Opens B conn ns := by
  unfold Visit.outcomeOf Visit.Opens step
  split
  case h_5 f hmode hinput =>
    unfold handleFrame
    split
    case h_1 e hparse =>
      refine iff_of_false (by simp) ?_
      rintro ⟨-, -, -, -, f', command, hinput', hparse', -⟩
      cases hinput.symm.trans hinput'
      rw [hparse] at hparse'
      cases hparse'
    case h_2 command hparse =>
      rw [entered_handleCommand]
      constructor
      · rintro ⟨hused, hpermits, hopens, hunhindered⟩
        exact ⟨hused, hpermits, hmode, hunhindered, f, command, hinput, hparse, hopens⟩
      · rintro ⟨hused, hpermits, -, hunhindered, f', command', hinput', hparse', hopens⟩
        cases hinput.symm.trans hinput'
        rw [hparse] at hparse'
        cases hparse'
        exact ⟨hused, hpermits, hopens, hunhindered⟩
  case h_8 f hmode hinput =>
    refine iff_of_false ?_ (by simp [hmode])
    unfold handleSubscribedFrame
    split <;> simp
  case h_10 ev hmode hinput =>
    refine iff_of_false ?_ (by simp [hmode])
    unfold handleEvent
    split <;> simp
  all_goals simp_all

/-! ## Whole runs -/

/-- The middleware of the dispatcher lets a SUBSCRIBE of `ns` through. -/
def DispatcherPermits (auth : Option C.AuthContext) (ns : String) : Prop :=
  ∀ key events, aclCheck auth (Command.subscribe ns key events).aclRequirement = none

/-- The visit enters subscription mode only with a context that may read the namespace, and of the
subscriptions that the store accepts it enters exactly those the middleware lets through. -/
structure Visit.EntersByAcl (B : Backend C σ) (authRequired : Bool) (conn : Connection C)
    (v : Visit C σ) : Prop where
  only : ∀ ns used, .entered ns used ∈ (v.outcomeOf B authRequired conn).deeds →
    ∃ ctx, conn.auth = some ctx ∧ C.check ctx (.inNamespace ns .read none) = .ok ()
  exactly : ∀ ns, v.Opens B conn ns →
    ((∃ used, .entered ns used ∈ (v.outcomeOf B authRequired conn).deeds) ↔
      DispatcherPermits conn.auth ns)

/-- No subscription is opened without a context on a connection that requires none. -/
def Visit.Checked (B : Backend C σ) (authRequired : Bool) (conn : Connection C) (v : Visit C σ) :
    Prop :=
  authRequired = false → conn.auth = none → ∀ ns, ¬ v.Opens B conn ns

theorem dispatcherPermits_iff {auth : Option C.AuthContext} {ns : String} :
    DispatcherPermits auth ns ↔
      ∃ ctx, auth = some ctx ∧ C.check ctx (.inNamespace ns .read none) = .ok () := by
  cases auth with
  | none => simp [DispatcherPermits, aclCheck, Command.aclRequirement]
  | some ctx =>
    cases hcheck : C.check ctx (.inNamespace ns .read none) <;>
      simp [DispatcherPermits, aclCheck, Command.aclRequirement, hcheck]

theorem entersByAcl_iff {B : Backend C σ} {authRequired : Bool} {conn : Connection C}
    {v : Visit C σ} : v.EntersByAcl B authRequired conn ↔ v.Checked B authRequired conn := by
  constructor
  · intro h hrequired hnone ns hopens
    have hpermits : ConnectionPermits authRequired conn.auth ns := by
      rw [hnone]
      exact hrequired
    obtain ⟨ctx, hctx, -⟩ := h.only ns conn.auth (entered_iff.mpr ⟨rfl, hpermits, hopens⟩)
    rw [hnone] at hctx
    cases hctx
  · intro h
    have hcontext : ∀ ns, v.Opens B conn ns → ConnectionPermits authRequired conn.auth ns →
        ∃ ctx, conn.auth = some ctx ∧ C.check ctx (.inNamespace ns .read none) = .ok () := by
      intro ns hopens hpermits
      cases hauth : conn.auth with
      | none =>
        rw [hauth] at hpermits
        exact absurd hopens (h hpermits hauth ns)
      | some ctx =>
        rw [hauth] at hpermits
        exact ⟨ctx, rfl, hpermits⟩
    refine ⟨fun ns used hentered => ?_, fun ns hopens => ?_⟩
    · obtain ⟨-, hpermits, hopens⟩ := entered_iff.mp hentered
      exact hcontext ns hopens hpermits
    · rw [dispatcherPermits_iff]
      constructor
      · rintro ⟨used, hentered⟩
        exact hcontext ns hopens (entered_iff.mp hentered).2.1
      · rintro ⟨ctx, hctx, hcheck⟩
        refine ⟨conn.auth, entered_iff.mpr ⟨rfl, ?_, hopens⟩⟩
        rw [hctx]
        exact hcheck

/-- In a run of a connection SUBSCRIBE enforces the access check of the dispatcher exactly when no
subscription is opened after an expiry has left the connection without a context that it does not
require. -/
theorem enters_by_acl_iff (B : Backend C σ) (authRequired : Bool) (rateLimit : Option UInt32)
    (start : Instant) (visits : List (Visit C σ)) :
    Schedule.Guarded (Visit.nextOf B authRequired) (Visit.EntersByAcl B authRequired)
        (.new C authRequired rateLimit start) visits ↔
      Schedule.Guarded (Visit.nextOf B authRequired) (Visit.Checked B authRequired)
        (.new C authRequired rateLimit start) visits :=
  Schedule.guarded_congr fun _ _ => entersByAcl_iff

namespace Memory

/-- A request made of words at the given time. -/
def visitAt (time : UInt64) (words : List String) : Visit crates State :=
  { visit admin words with moment := { (visit admin words).moment with wall := some time } }

/-- On a server that does not require authentication a client authenticates with a token that is
good until time 20. Its next command at time 30 is refused, and then it subscribes. -/
theorem subscribes_without_context :
    let past := [visitAt 10 ["AUTH", "admin"], visitAt 30 ["HEALTH"]]
    let before := Schedule.run (Visit.nextOf backend false) (.new crates false none 0) past
    let subscribe := visitAt 30 ["SUBSCRIBE", "a"]
    before.auth = none ∧
    .entered "a" none ∈ (subscribe.outcomeOf backend false before).deeds ∧
    aclCheck before.auth (Command.subscribe "a" none []).aclRequirement = some .notAuthenticated ∧
    ¬ Schedule.Guarded (Visit.nextOf backend false) (Visit.EntersByAcl backend false)
      (.new crates false none 0) (past ++ [subscribe]) := by
  intro past before subscribe
  have hentered : .entered "a" none ∈ (subscribe.outcomeOf backend false before).deeds :=
    List.mem_singleton.mpr rfl
  refine ⟨rfl, hentered, rfl, ?_⟩
  rintro ⟨-, -, hacl, -⟩
  obtain ⟨ctx, hctx, -⟩ := hacl.only "a" none hentered
  cases hctx

end Memory

end Shroudb
