import Shroudb.MemoryStore
import Shroudb.Server.Connection

/-! The authentication gate of a connection, over all of its history. -/
namespace Shroudb
open Wire

variable {C : Crates} {σ : Type}

/-- The context of the last successful AUTH with no expiry observed since, from what was held
before. -/
def heldAuth : Option C.AuthContext → List (Deed C) → Option C.AuthContext
  | held, [] => held
  | _, .validated _ (.ok ctx) :: deeds => heldAuth (some ctx) deeds
  | _, .checkedExpiry _ _ true :: deeds => heldAuth none deeds
  | held, _ :: deeds => heldAuth held deeds

/-- The context a guarded deed is done with. PING alone is not guarded. -/
def Deed.guarded : Deed C → Option (Option C.AuthContext)
  | .executed .ping _ => none
  | .executed _ auth => some auth
  | .entered _ auth => some auth
  | _ => none

/-- Another input as the connection finds it: the shared dispatcher is as others left it. -/
structure Visit (C : Crates) (σ : Type) where
  moment : Moment C
  dispatcher : Dispatcher C σ
  input : Input

/-- One step of a connection that requires authentication. -/
def Visit.outcome (B : Backend C σ) (v : Visit C σ) (conn : Connection C) : Outcome C σ :=
  step B true v.moment conn v.dispatcher v.input

/-- The connection after a list of inputs, and all it did. -/
def serve (B : Backend C σ) : Connection C → List (Visit C σ) → Connection C × List (Deed C)
  | conn, [] => (conn, [])
  | conn, v :: vs =>
    ((serve B (v.outcome B conn).connection vs).1,
      (v.outcome B conn).deeds ++ (serve B (v.outcome B conn).connection vs).2)

theorem heldAuth_append (held : Option C.AuthContext) (ds es : List (Deed C)) :
    heldAuth held (ds ++ es) = heldAuth (heldAuth held ds) es := by
  induction ds generalizing held with
  | nil => rfl
  | cons d ds ih =>
    match d with
    | .validated _ (.ok _) | .validated _ (.error _) | .checkedExpiry _ _ true
    | .checkedExpiry _ _ false | .executed .. | .entered .. =>
      simp only [List.cons_append, heldAuth]
      exact ih _

/-! ## What one step does -/

/-- `auth` is held by a connection whose clock reads a time at which it is valid. -/
def Admits (m : Moment C) (auth : Option C.AuthContext) : Prop :=
  ∃ ctx now, auth = some ctx ∧ m.wall = some now ∧ C.isExpired ctx now = false

/-- The step keeps the held context in step with the deeds, and does guarded deeds only with a
valid context that it held before. -/
structure Gated (m : Moment C) (auth : Option C.AuthContext) (o : Outcome C σ) : Prop where
  held : o.connection.auth = heldAuth auth o.deeds
  guarded : ∀ deed ∈ o.deeds, ∀ used, deed.guarded = some used → used = auth ∧ Admits m auth

variable {B : Backend C σ} {m : Moment C} {conn : Connection C} {d : Dispatcher C σ}

@[simp] theorem respond_auth {deeds : List (Deed C)} {frame : Resp3Frame} :
    (respond m conn d deeds frame).connection.auth = conn.auth := by
  unfold respond
  split_ifs <;> rfl

@[simp] theorem respond_deeds {deeds : List (Deed C)} {frame : Resp3Frame} :
    (respond m conn d deeds frame).deeds = deeds := rfl

theorem gated_respond {auth : Option C.AuthContext} {deeds : List (Deed C)} {frame : Resp3Frame}
    (held : conn.auth = heldAuth auth deeds)
    (guarded : ∀ deed ∈ deeds, ∀ used, deed.guarded = some used → used = auth ∧ Admits m auth) :
    Gated m auth (respond m conn d deeds frame) :=
  ⟨by simpa using held, by simpa using guarded⟩

/-- Deeds that leave the held context alone and need none. -/
structure Quiet (auth : Option C.AuthContext) (deeds : List (Deed C)) : Prop where
  held : heldAuth auth deeds = auth
  unguarded : ∀ deed ∈ deeds, deed.guarded = none

theorem gated_respond_quiet {deeds : List (Deed C)} {frame : Resp3Frame}
    (h : Quiet conn.auth deeds) : Gated m conn.auth (respond m conn d deeds frame) := by
  refine gated_respond h.held.symm fun deed hd used hu => ?_
  simp [h.unguarded deed hd] at hu

/-- One more deed, done with the context that is held. -/
theorem gated_respond_deed {deeds : List (Deed C)} {deed : Deed C} {frame : Resp3Frame}
    {conn' : Connection C} (hauth : conn'.auth = conn.auth) (h : Quiet conn.auth deeds)
    (hkeep : heldAuth conn.auth [deed] = conn.auth)
    (hdeed : ∀ used, deed.guarded = some used → used = conn.auth ∧ Admits m conn.auth) :
    Gated m conn.auth (respond m conn' d (deeds ++ [deed]) frame) := by
  refine gated_respond (by rw [hauth, heldAuth_append, h.held, hkeep]) fun e he used hused => ?_
  rcases List.mem_append.mp he with he | he
  · simp [h.unguarded e he] at hused
  · obtain rfl := List.mem_singleton.mp he
    exact hdeed used hused

theorem gated_openSubscription {deeds : List (Deed C)} {ns : String}
    {answer : Except (StoreError C.ValidationError) Unit} (h : Quiet conn.auth deeds)
    (ha : Admits m conn.auth) :
    Gated m conn.auth (openSubscription m conn d deeds ns answer) := by
  cases answer with
  | error e => exact gated_respond_quiet h
  | ok u =>
    refine gated_respond_deed rfl h rfl fun used hu => ?_
    cases hu
    exact ⟨rfl, ha⟩

theorem gated_handleSubscribe {deeds : List (Deed C)} {ns : String} {key : Option Bytes}
    {events : List String} (h : Quiet conn.auth deeds) (ha : Admits m conn.auth) :
    Gated m conn.auth (handleSubscribe B true m conn d deeds ns key events) := by
  unfold handleSubscribe
  dsimp only
  split
  · split
    · exact gated_respond_quiet h
    · exact gated_openSubscription h ha
  · exact gated_respond_quiet h

theorem gated_handleAdmitted {deeds : List (Deed C)} {command : Command}
    (h : Quiet conn.auth deeds) (ha : command = .ping ∨ Admits m conn.auth) :
    Gated m conn.auth (handleAdmitted B true m conn d deeds command) := by
  unfold handleAdmitted
  split
  · refine gated_handleSubscribe h (ha.resolve_left ?_)
    exact Command.noConfusion
  · refine gated_respond_deed rfl h rfl fun used hu => ?_
    rcases ha with rfl | ha
    · cases hu
    · refine ⟨?_, ha⟩
      unfold Deed.guarded at hu
      split at hu <;> simp_all

theorem gated_handleUnexpired {command : Command} (h : command = .ping ∨ conn.auth.isSome) :
    Gated m conn.auth (handleUnexpired B true m conn d command) := by
  unfold handleUnexpired
  split
  case h_1 hnone =>
    refine gated_handleAdmitted ⟨rfl, by simp⟩ (Or.inl (h.resolve_right ?_))
    simp [hnone]
  case h_2 ctx hctx =>
    split
    case h_1 => exact ⟨rfl, by simp⟩
    case h_2 now hnow =>
      dsimp only
      split_ifs with hexp
      · refine gated_respond (by simp [hexp, heldAuth]) ?_
        simp [Deed.guarded]
      · refine gated_handleAdmitted ⟨?_, ?_⟩ (Or.inr ⟨ctx, now, hctx, hnow, by simpa using hexp⟩)
        · simp [hexp, heldAuth]
        · simp [Deed.guarded]

theorem gated_handleAuth {token : String} : Gated m conn.auth (handleAuth m conn d token) := by
  unfold handleAuth
  split
  · exact gated_respond rfl (by simp [Deed.guarded])
  · exact gated_respond rfl (by simp [Deed.guarded])

theorem gated_handleLimited (conn : Connection C) {command : Command} :
    Gated m conn.auth (handleLimited B true m conn d command) := by
  unfold handleLimited
  split
  · exact gated_handleAuth
  · exact gated_handleUnexpired (Or.inl rfl)
  · split_ifs with hn
    · exact gated_respond_quiet ⟨rfl, by simp⟩
    · refine gated_handleUnexpired (Or.inr ?_)
      simpa [Option.isSome_iff_ne_none] using hn

theorem gated_handleCommand {command : Command} :
    Gated m conn.auth (handleCommand B true m conn d command) := by
  unfold handleCommand
  split
  case h_1 => exact gated_handleLimited conn
  case h_2 limiter _ =>
    dsimp only
    split_ifs
    · exact gated_handleLimited
        { conn with rateLimiter := some (limiter.tryAcquire m.instant).2 }
    · exact gated_respond rfl (by simp)

theorem gated_step {input : Input} : Gated m conn.auth (step B true m conn d input) := by
  unfold step
  split
  case h_5 =>
    unfold handleFrame
    split
    · exact gated_respond_quiet ⟨rfl, by simp⟩
    · exact gated_handleCommand
  case h_8 =>
    unfold handleSubscribedFrame
    split <;> exact ⟨rfl, by simp⟩
  case h_10 =>
    unfold handleEvent
    split
    · exact gated_respond_quiet ⟨rfl, by simp⟩
    · exact ⟨rfl, by simp⟩
  all_goals exact ⟨rfl, by simp⟩

/-! ## How the held context can change -/

theorem openSubscription_auth {deeds : List (Deed C)} {ns : String}
    {answer : Except (StoreError C.ValidationError) Unit} :
    (openSubscription m conn d deeds ns answer).connection.auth = conn.auth := by
  cases answer <;> simp [openSubscription]

theorem handleAdmitted_auth {deeds : List (Deed C)} {command : Command} :
    (handleAdmitted B true m conn d deeds command).connection.auth = conn.auth := by
  unfold handleAdmitted
  split
  · unfold handleSubscribe
    dsimp only
    split
    · split
      · simp
      · exact openSubscription_auth
    · simp
  · simp

/-- The context is kept, or replaced by a token that AUTH presents and the validator accepts, or
dropped by another command because it has expired. -/
def AuthMoves (m : Moment C) (before after : Option C.AuthContext) (command : Command) : Prop :=
  after = before ∨
  (∃ token ctx, command = .auth token ∧ m.validate token = .ok ctx ∧ after = some ctx) ∨
  ((∀ token, command ≠ .auth token) ∧
    ∃ ctx now, before = some ctx ∧ m.wall = some now ∧ C.isExpired ctx now = true ∧ after = none)

theorem handleUnexpired_auth {command : Command} (hc : ∀ token, command ≠ .auth token) :
    AuthMoves m conn.auth (handleUnexpired B true m conn d command).connection.auth command := by
  unfold handleUnexpired
  split
  case h_1 => exact Or.inl handleAdmitted_auth
  case h_2 ctx hctx =>
    split
    case h_1 => exact Or.inl rfl
    case h_2 now hnow =>
      dsimp only
      split_ifs with hexp
      · exact Or.inr (Or.inr ⟨hc, ctx, now, hctx, hnow, hexp, by simp⟩)
      · exact Or.inl handleAdmitted_auth

theorem handleLimited_auth (conn : Connection C) {command : Command} :
    AuthMoves m conn.auth (handleLimited B true m conn d command).connection.auth command := by
  unfold handleLimited
  split
  case h_1 token =>
    unfold handleAuth
    split
    case h_1 ctx hv => exact Or.inr (Or.inl ⟨token, ctx, rfl, hv, by simp⟩)
    case h_2 => exact Or.inl (by simp)
  case h_2 => exact handleUnexpired_auth fun _ => Command.noConfusion
  case h_3 hauth _ =>
    split_ifs
    · exact Or.inl (by simp)
    · exact handleUnexpired_auth hauth

theorem step_auth (conn : Connection C) {f : Resp3Frame} {command : Command}
    (hf : parseCommand (C := C) f = .ok command) :
    AuthMoves m conn.auth (step B true m conn d (.frame f)).connection.auth command := by
  unfold step
  split
  case h_5 hin =>
    cases hin
    rw [handleFrame, hf]
    dsimp only
    unfold handleCommand
    split
    case h_1 => exact handleLimited_auth conn
    case h_2 limiter _ =>
      dsimp only
      split_ifs
      · exact handleLimited_auth { conn with rateLimiter := some (limiter.tryAcquire m.instant).2 }
      · exact Or.inl (by simp)
  case h_8 hin =>
    unfold handleSubscribedFrame
    split <;> exact Or.inl rfl
  all_goals first | exact Or.inl rfl | contradiction

/-! ## Whole histories -/

theorem serve_held (vs : List (Visit C σ)) (conn : Connection C) :
    (serve B conn vs).1.auth = heldAuth conn.auth (serve B conn vs).2 := by
  induction vs generalizing conn with
  | nil => rfl
  | cons v vs ih =>
    have hv : (v.outcome B conn).connection.auth = heldAuth conn.auth (v.outcome B conn).deeds :=
      gated_step.held
    rw [serve, heldAuth_append, ← hv]
    exact ih _

/-- After any history of a connection that requires authentication, the next input runs a command
other than PING, or enters subscription mode, only with the context of the last successful AUTH,
no expiry having been observed since, and valid at the time read for this input. A failed AUTH
leaves the context alone, and a pipeline can only lose it to expiry. -/
theorem auth_gate (B : Backend C σ) (rateLimit : Option UInt32) (start : Instant)
    (past : List (Visit C σ)) (v : Visit C σ) :
    let before := (serve B (.new C true rateLimit start) past).1
    let held := heldAuth none (serve B (.new C true rateLimit start) past).2
    let after := v.outcome B before
    before.auth = held ∧
    (∀ cmd used, .executed cmd used ∈ after.deeds → cmd ≠ .ping →
      ∃ ctx now, used = some ctx ∧ held = some ctx ∧ v.moment.wall = some now ∧
        C.isExpired ctx now = false) ∧
    (∀ ns used, .entered ns used ∈ after.deeds →
      ∃ ctx now, used = some ctx ∧ held = some ctx ∧ v.moment.wall = some now ∧
        C.isExpired ctx now = false) ∧
    (∀ f token e, v.input = .frame f → parseCommand (C := C) f = .ok (.auth token) →
      v.moment.validate token = .error e → after.connection.auth = before.auth) ∧
    (∀ f cs id, v.input = .frame f → parseCommand (C := C) f = .ok (.pipeline cs id) →
      after.connection.auth = before.auth ∨
      ∃ ctx now, before.auth = some ctx ∧ v.moment.wall = some now ∧
        C.isExpired ctx now = true ∧ after.connection.auth = none) := by
  intro before held after
  have hheld : before.auth = held := serve_held past _
  have hgate : Gated v.moment before.auth after := gated_step
  have huse : ∀ deed ∈ after.deeds, ∀ used, deed.guarded = some used →
      ∃ ctx now, used = some ctx ∧ held = some ctx ∧ v.moment.wall = some now ∧
        C.isExpired ctx now = false := by
    intro deed hd used hu
    obtain ⟨rfl, ctx, now, hctx, hnow, hexp⟩ := hgate.guarded deed hd used hu
    exact ⟨ctx, now, hctx, hheld ▸ hctx, hnow, hexp⟩
  refine ⟨hheld, fun cmd used hd hne => huse _ hd used ?_, fun ns used hd => huse _ hd used rfl,
    fun f token e hin hf hv => ?_, fun f cs id hin hf => ?_⟩
  · cases cmd <;> first | rfl | contradiction
  · have hmoves : AuthMoves v.moment before.auth after.connection.auth (.auth token) := by
      have h := step_auth (B := B) (m := v.moment) (d := v.dispatcher) before hf
      rwa [← hin] at h
    rcases hmoves with h | ⟨token', ctx, htok, hok, -⟩ | ⟨hno, -⟩
    · exact h
    · cases htok
      rw [hv] at hok
      cases hok
    · exact absurd rfl (hno token)
  · have hmoves : AuthMoves v.moment before.auth after.connection.auth (.pipeline cs id) := by
      have h := step_auth (B := B) (m := v.moment) (d := v.dispatcher) before hf
      rwa [← hin] at h
    rcases hmoves with h | ⟨token', ctx, htok, -⟩ | ⟨-, hexp⟩
    · exact Or.inl h
    · cases htok
    · exact Or.inr hexp

namespace Memory

/-- A token of one principal, and a request made of words at time 10. -/
def visit (p : Principal) (words : List String) : Visit crates State where
  moment := ⟨0, some 10, fun t => if t = p.name then .ok p else .error "unknown token", true⟩
  dispatcher := .new [] (Stream'.const 0) (Stream'.const (some 10))
  input := .frame (.array (words.map fun w => .bulkString (utf8 w)))

/-- After an AUTH the connection runs HEALTH, with the context of that AUTH. -/
theorem health_runs_as_admin :
    let past := [visit admin ["AUTH", "admin"]]
    let before := (serve backend (.new crates true none 0) past).1
    .executed .health (some admin) ∈ ((visit admin ["HEALTH"]).outcome backend before).deeds ∧
    heldAuth none (serve backend (.new crates true none 0) past).2 = some admin := by
  intro past before
  have hmem : .executed .health (some admin) ∈
      ((visit admin ["HEALTH"]).outcome backend before).deeds :=
    List.mem_cons_of_mem _ (List.mem_singleton.mpr rfl)
  obtain ⟨ctx, now, hused, hheld, -, -⟩ :=
    (auth_gate backend none 0 past (visit admin ["HEALTH"])).2.1 .health (some admin) hmem
      Command.noConfusion
  exact ⟨hmem, hused ▸ hheld⟩

end Memory

end Shroudb
