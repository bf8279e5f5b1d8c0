import Shroudb.Protocol.Interleaving
import Shroudb.Server.Connection

/-! A turn of a connection's loop, with each of the calls that it awaits. -/
namespace Shroudb
open Wire Effect

section
variable {C : Crates} {σ : Type}

/-! ## Commands that go on to the store -/

/-- A command that has passed the checks of its connection, with all that was done for them. -/
structure Admitted (C : Crates) where
  connection : Connection C
  deeds : List (Deed C)
  command : Command

def admitUnexpired (m : Moment C) (conn : Connection C) (command : Command) :
    Option (Admitted C) :=
  match conn.auth with
  | none => some ⟨conn, [], command⟩
  | some ctx =>
    match m.wall with
    | none => none
    | some now =>
      if C.isExpired ctx now then none
      else some ⟨conn, [.checkedExpiry ctx now (C.isExpired ctx now)], command⟩

def admitLimited (authRequired : Bool) (m : Moment C) (conn : Connection C) :
    Command → Option (Admitted C)
  | .auth _ => none
  | .ping => admitUnexpired m conn .ping
  | command =>
    if authRequired ∧ conn.auth.isNone then none else admitUnexpired m conn command

def admitCommand (authRequired : Bool) (m : Moment C) (conn : Connection C) (command : Command) :
    Option (Admitted C) :=
  match conn.rateLimiter with
  | none => admitLimited authRequired m conn command
  | some limiter =>
    let (admitted, limiter) := limiter.tryAcquire m.instant
    if admitted then admitLimited authRequired m { conn with rateLimiter := some limiter } command
    else none

/-- What an input comes to, when the connection does not answer it by itself. -/
def admission (authRequired : Bool) (m : Moment C) (conn : Connection C) :
    Input → Option (Admitted C)
  | .frame f =>
    match conn.mode, parseCommand (C := C) f with
    | .command, .ok command => admitCommand authRequired m conn command
    | _, _ => none
  | _ => none

/-! ## The rest of a turn -/

/-- The connection once its reply is written, or is not. -/
def Connection.replied (m : Moment C) (conn : Connection C) : Connection C :=
  if m.writeOk then conn else { conn with mode := .closed }

/-- Whether the connection asks the store for a subscription. -/
def maySubscribe (authRequired : Bool) (auth : Option C.AuthContext)
    (requirement : AclRequirement) :
    Bool :=
  match auth with
  | some ctx =>
    match C.check ctx requirement with
    | .error _ => false
    | .ok () => true
  | none => !authRequired

/-- What a turn comes to: the connection, and what was done since its calls were begun. -/
abbrev TurnProgram (C : Crates) := CallProgram C (Connection C × List (Deed C))

/-- The store is asked for a subscription, and the reply is written. -/
def subscribing (m : Moment C) (conn : Connection C) (ns : String) (filter : SubscriptionFilter) :
    TurnProgram C :=
  .ask (.handler (.call (.subscribe ns filter))) fun
    | .error _ => .pure (conn.replied m, [])
    | .ok () => .pure (Connection.replied m { conn with mode := .subscribed },
        [.entered ns conn.auth])

namespace Admitted

/-- What has been done when the first call is made. -/
def begun (a : Admitted C) : List (Deed C) :=
  match a.command with
  | .subscribe .. => a.deeds
  | command => a.deeds ++ [.executed command a.connection.auth]

/-- The calls of the command, and the reply. Others have turns between any two of the calls. -/
def rest (hasEngine authRequired : Bool) (m : Moment C) (a : Admitted C) : TurnProgram C :=
  match a.command with
  | .subscribe ns key events =>
    if maySubscribe authRequired a.connection.auth
        (Command.subscribe ns key events).aclRequirement then
      subscribing m a.connection ns ⟨key, eventFilter events⟩
    else .pure (a.connection.replied m, [])
  | command =>
    ((executeProgram a.connection.auth command).expand (commandBody hasEngine)).bind fun _ =>
      .pure (a.connection.replied m, [])

end Admitted

/-- What a turn does at once, and what is left to do. -/
structure OpenTurn (C : Crates) where
  begun : List (Deed C)
  rest : TurnProgram C

/-- A turn with an input. Where the input is not admitted there are no calls. -/
def turn (B : Backend C σ) (authRequired : Bool) (m : Moment C) (conn : Connection C)
    (d : Dispatcher C σ) (input : Input) : OpenTurn C :=
  match admission authRequired m conn input with
  | some a => ⟨a.begun, a.rest B.hasEngine authRequired m⟩
  | none =>
    let o := step B authRequired m conn d input
    ⟨o.deeds, .pure (o.connection, [])⟩

/-! ## What a turn can come to -/

theorem admitUnexpired_auth {m : Moment C} {conn : Connection C} {command : Command}
    {a : Admitted C} (h : admitUnexpired m conn command = some a) :
    a.connection.auth = conn.auth := by
  unfold admitUnexpired at h
  split at h
  · cases h
    rfl
  · split at h
    · cases h
    · split_ifs at h
      cases h
      rfl

theorem admitLimited_auth {authRequired : Bool} {m : Moment C} {conn : Connection C}
    {command : Command} {a : Admitted C} (h : admitLimited authRequired m conn command = some a) :
    a.connection.auth = conn.auth := by
  unfold admitLimited at h
  split at h
  · cases h
  · exact admitUnexpired_auth h
  · split_ifs at h
    exact admitUnexpired_auth h

/-- The checks leave the context as it is. -/
theorem admission_auth {authRequired : Bool} {m : Moment C} {conn : Connection C} {input : Input}
    {a : Admitted C} (h : admission authRequired m conn input = some a) :
    a.connection.auth = conn.auth := by
  unfold admission at h
  split at h
  · split at h
    · unfold admitCommand at h
      split at h
      · exact admitLimited_auth h
      · dsimp only at h
        split_ifs at h
        exact (admitLimited_auth h).trans rfl
    · cases h
  · cases h

theorem Connection.replied_auth {m : Moment C} {conn : Connection C} :
    (conn.replied m).auth = conn.auth := by
  unfold replied
  split_ifs <;> rfl

/-- The context stays, and a subscription may be entered with it. -/
structure Admitted.MayEnd (authRequired : Bool) (a : Admitted C)
    (r : Connection C × List (Deed C)) : Prop where
  auth : r.1.auth = a.connection.auth
  entered : ∀ deed ∈ r.2, ∃ ns, deed = .entered ns a.connection.auth ∧
    (authRequired = true → a.connection.auth.isSome)

theorem Admitted.mayEnd_replied {authRequired : Bool} {m : Moment C} {a : Admitted C} :
    a.MayEnd authRequired (a.connection.replied m, []) :=
  ⟨Connection.replied_auth, fun deed hdeed => by cases hdeed⟩

/-- Whatever the calls are answered. -/
theorem Admitted.rest_ends {hasEngine authRequired : Bool} {m : Moment C} {a : Admitted C} :
    (a.rest hasEngine authRequired m).Ends (a.MayEnd authRequired) := by
  unfold Admitted.rest
  split
  · split_ifs with hmay
    · intro answer
      cases answer with
      | error e => exact mayEnd_replied
      | ok u =>
        refine ⟨Connection.replied_auth, fun deed hdeed => ⟨_, List.mem_singleton.mp hdeed, ?_⟩⟩
        rintro rfl
        cases hauth : a.connection.auth with
        | some ctx => rfl
        | none => simp [maySubscribe, hauth] at hmay
    · exact mayEnd_replied
  · exact Program.Ends.bind fun _ => mayEnd_replied

/-! ## Without others, a turn is a step -/

/-- The outcome is that of the admitted command, or has no part of the dispatcher. -/
def Agrees (B : Backend C σ) (authRequired : Bool) (m : Moment C) (d : Dispatcher C σ) :
    Option (Admitted C) → Outcome C σ → Prop
  | some a, o => o = handleAdmitted B authRequired m a.connection d a.deeds a.command
  | none, o => o.dispatcher = d

section
variable {B : Backend C σ} {authRequired : Bool} {m : Moment C} {conn : Connection C}
  {d : Dispatcher C σ} {command : Command} {input : Input} {a : Admitted C}

theorem agrees_unexpired : Agrees B authRequired m d (admitUnexpired m conn command)
    (handleUnexpired B authRequired m conn d command) := by
  unfold admitUnexpired handleUnexpired
  cases conn.auth with
  | none => rfl
  | some ctx =>
    cases m.wall with
    | none => rfl
    | some now =>
      dsimp only
      split_ifs <;> rfl

theorem agrees_limited : Agrees B authRequired m d (admitLimited authRequired m conn command)
    (handleLimited B authRequired m conn d command) := by
  cases command with
  | auth token =>
    unfold admitLimited handleLimited handleAuth
    dsimp only
    split <;> rfl
  | ping => exact agrees_unexpired
  | _ =>
    unfold admitLimited handleLimited
    dsimp only
    split_ifs
    · rfl
    · exact agrees_unexpired

theorem agrees_command : Agrees B authRequired m d (admitCommand authRequired m conn command)
    (handleCommand B authRequired m conn d command) := by
  unfold admitCommand handleCommand
  cases conn.rateLimiter with
  | none => exact agrees_limited
  | some limiter =>
    dsimp only
    split_ifs
    · exact agrees_limited
    · rfl

theorem agrees_step : Agrees B authRequired m d (admission authRequired m conn input)
    (step B authRequired m conn d input) := by
  obtain ⟨auth, rateLimiter, mode⟩ := conn
  cases input with
  | frame f =>
    cases mode with
    | command =>
      simp only [admission, step, handleFrame]
      cases parseCommand (C := C) f with
      | error e => rfl
      | ok command => exact agrees_command
    | subscribed =>
      simp only [admission, step, handleSubscribedFrame, Agrees]
      split <;> rfl
    | closed => rfl
  | notified b => cases mode <;> cases b <;> rfl
  | event ev => cases mode <;> cases ev <;> rfl
  | disconnected => cases mode <;> rfl
  | failed e => cases mode <;> rfl

/-- The turn that is left comes to the outcome, when it is not interrupted. -/
def ComesTo (B : Backend C σ) (d : Dispatcher C σ) (begun : List (Deed C)) (rest : TurnProgram C)
    (o : Outcome C σ) : Prop :=
  let r := rest.run (CallOp.answer B) d
  r.1.1 = o.connection ∧ begun ++ r.1.2 = o.deeds ∧ r.2 = o.dispatcher

theorem comesTo_subscribing {ns : String} {filter : SubscriptionFilter} {deeds : List (Deed C)} :
    ComesTo B d deeds (subscribing m conn ns filter)
      (openSubscription m conn (Dispatcher.answer B (.call (.subscribe ns filter)) d).2 deeds ns
        (Dispatcher.answer B (.call (.subscribe ns filter)) d).1) := by
  have hasked : CallOp.answer B (.handler (.call (.subscribe ns filter))) d =
      Dispatcher.answer B (.call (.subscribe ns filter)) d := rfl
  rw [ComesTo, subscribing, Program.run, hasked]
  generalize Dispatcher.answer B (.call (.subscribe ns filter)) d = opened
  obtain ⟨answer, d'⟩ := opened
  cases answer with
  | error e => exact ⟨rfl, List.append_nil deeds, rfl⟩
  | ok u => exact ⟨rfl, rfl, rfl⟩

theorem comesTo_subscribe {ns : String} {key : Option Bytes} {events : List String}
    {deeds : List (Deed C)} :
    let a : Admitted C := ⟨conn, deeds, .subscribe ns key events⟩
    ComesTo B d a.begun (a.rest B.hasEngine authRequired m)
      (handleSubscribe B authRequired m conn d deeds ns key events) := by
  obtain ⟨auth, rateLimiter, mode⟩ := conn
  simp only [Admitted.rest, Admitted.begun, handleSubscribe, maySubscribe]
  cases auth with
  | none =>
    cases authRequired with
    | true => exact ⟨rfl, List.append_nil deeds, rfl⟩
    | false => exact comesTo_subscribing
  | some ctx =>
    cases hcheck : C.check ctx (Command.subscribe ns key events).aclRequirement with
    | error e => simpa [hcheck] using ⟨rfl, List.append_nil deeds, rfl⟩
    | ok u => simpa [hcheck] using comesTo_subscribing

theorem comesTo_executed {deeds : List (Deed C)} :
    ComesTo B d (deeds ++ [.executed command conn.auth])
      (((executeProgram conn.auth command).expand (commandBody B.hasEngine)).bind fun _ =>
        .pure (conn.replied m, []))
      (let (response, d) := execute B conn.auth command d
       respond m conn d (deeds ++ [.executed command conn.auth]) (responseToFrame response)) := by
  rw [ComesTo, Program.run_bind, Program.run_expand (implements_commandBody B),
    run_executeProgram B]
  exact ⟨rfl, List.append_nil _, rfl⟩

theorem comesTo_admitted :
    ComesTo B d a.begun (a.rest B.hasEngine authRequired m)
      (handleAdmitted B authRequired m a.connection d a.deeds a.command) := by
  obtain ⟨conn, deeds, command⟩ := a
  cases command with
  | subscribe ns key events => exact comesTo_subscribe
  | _ => exact comesTo_executed

/-- A turn whose calls are not interrupted is a step. -/
theorem comesTo_turn : ComesTo B d (turn B authRequired m conn d input).begun
    (turn B authRequired m conn d input).rest (step B authRequired m conn d input) := by
  have hagrees : Agrees B authRequired m d (admission authRequired m conn input)
    (step B authRequired m conn d input) := agrees_step
  unfold turn
  cases hadmission : admission authRequired m conn input with
  | some a =>
    rw [hadmission] at hagrees
    rw [hagrees]
    exact comesTo_admitted
  | none =>
    rw [hadmission] at hagrees
    exact ⟨rfl, List.append_nil _, hagrees.symm⟩

end

end

end Shroudb
