import Shroudb.Server.Reload
import Shroudb.Server.Turn

/-! `server::run`: the accept loop, the connections it spawns, and the drain. -/
namespace Shroudb
open Wire Effect

/-- What the code takes from `shroudb_acl` for the tokens of the file. -/
structure AclCrates (C : Crates) extends TokenCrate where
  intoContext : Token → C.AuthContext

/-- `ReloadableValidator::validate`, and the context that a connection makes of the token. -/
def AclCrates.context {C : Crates} (A : AclCrates C) (v : A.Validator) (raw : String) :
    Except String C.AuthContext :=
  (A.validate v raw).map A.intoContext

/-- A task waits for its TLS handshake, waits in the `select!` of its connection, handles what it
has taken there, or has ended. `seen` is the version of the shutdown signal that its receiver has
seen. -/
inductive TaskPhase (C : Crates) where
  | handshaking (seen : Nat)
  | serving (conn : Connection C) (seen : Nat)
  | handling (rest : TurnProgram C) (seen : Nat)
  | ended

/-- A task of the join set, with the rate limit of its connection and all that it did. -/
structure Task (C : Crates) where
  rateLimit : Option UInt32
  phase : TaskPhase C
  joined : Bool
  aborted : Bool
  deeds : List (Deed C)

inductive ServerPhase where
  | accepting
  | draining (deadline : Instant)
  | returned

/-- What a connection reads for one input, apart from the validator. -/
structure Readings where
  instant : Instant
  wall : Option UInt64
  writeOk : Bool

structure Server {C : Crates} (A : AclCrates C) (σ : Type) where
  reloading : Reloading A.toTokenCrate
  dispatcher : Dispatcher C σ
  authRequired : Bool
  tls : Bool
  now : Instant
  seen : Nat
  phase : ServerPhase
  tasks : List (Task C)

inductive ServerMove where
  | reload (mv : ReloadMove)
  | poll
  | accept (overTcp : Bool) (instant : Instant)
  | acceptFailed
  | handshake (i : Nat) (ok : Bool) (instant : Instant)
  | take (i : Nat) (r : Readings) (input : Input)
  | resume (i : Nat)
  | cancel (i : Nat)
  | join (i : Nat)
  | pass (time : Nat)
  | deadline

namespace Task
variable {C : Crates} {A : AclCrates C} {σ : Type}

/-- A task that is spawned. Only TCP connections have a handshake. -/
def spawn (authRequired handshakes : Bool) (rateLimit : Option UInt32) (seen : Nat)
    (instant : Instant) : Task C where
  rateLimit := rateLimit
  phase :=
    if handshakes then .handshaking seen
    else .serving (.new C authRequired rateLimit instant) seen
  joined := false
  aborted := false
  deeds := []

def handshake (authRequired : Bool) (ok : Bool) (instant : Instant) (t : Task C) : Task C :=
  match t.phase with
  | .handshaking seen =>
    { t with
      phase := if ok then .serving (.new C authRequired t.rateLimit instant) seen else .ended }
  | _ => t

/-- What the loop of a connection is handed: the shutdown signal before anything else. -/
def select (shutdown : Watch Bool) (seen : Nat) (input : Input) : Option Input :=
  if shutdown.changed seen then some (.notified shutdown.value)
  else
    match input with
    | .notified _ => none
    | input => some input

/-- The `select!` of a connection. What follows on an input is not part of it, so the shutdown
signal does not come between. -/
def take (B : Backend C σ) (authRequired : Bool) (shared : Reloading A.toTokenCrate)
    (r : Readings) (input : Input) (d : Dispatcher C σ) (t : Task C) : Task C :=
  match t.phase with
  | .serving conn seen =>
    match select shared.shutdown seen input with
    | none => t
    | some (.notified true) => { t with phase := .ended }
    | some (.notified false) => { t with phase := .serving conn shared.shutdown.version }
    | some input =>
      let m : Moment C := ⟨r.instant, r.wall, A.context shared.validator, r.writeOk⟩
      let taken := turn B authRequired m conn d input
      { t with phase := .handling taken.rest seen, deeds := t.deeds ++ taken.begun }
  | _ => t

/-- The next call of the turn that the task is in, or its end. The task ends with its connection. -/
def resume (B : Backend C σ) (d : Dispatcher C σ) (t : Task C) : Task C × Dispatcher C σ :=
  match t.phase with
  | .handling (.ask op next) seen =>
    ({ t with phase := .handling (next (CallOp.answer B op d).1) seen }, (CallOp.answer B op d).2)
  | .handling (.pure (conn, deeds)) seen =>
    ({ t with
        phase := if conn.mode = .closed then .ended else .serving conn seen,
        deeds := t.deeds ++ deeds }, d)
  | _ => (t, d)

/-- `abort_all` does not wait for the tasks. -/
def abort (t : Task C) : Task C := { t with aborted := true }

/-- An aborted task is dropped at one of its awaits. -/
def cancel (t : Task C) : Task C := if t.aborted then { t with phase := .ended } else t

def isEnded (t : Task C) : Bool :=
  match t.phase with
  | .ended => true
  | _ => false

/-- `join_next` gives a task back once it has ended. -/
def join (t : Task C) : Task C := if t.isEnded then { t with joined := true } else t

/-- What a task in a turn does next. -/
theorem resume_cases (B : Backend C σ) (d : Dispatcher C σ) (t : Task C) :
    (∃ op next seen, t.phase = .handling (.ask op next) seen ∧ t.resume B d =
      ({ t with phase := .handling (next (CallOp.answer B op d).1) seen },
        (CallOp.answer B op d).2)) ∨
    (∃ conn deeds seen, t.phase = .handling (.pure (conn, deeds)) seen ∧ t.resume B d =
      ({ t with
          phase := if conn.mode = .closed then .ended else .serving conn seen,
          deeds := t.deeds ++ deeds }, d)) ∨
    (∀ rest seen, t.phase ≠ .handling rest seen) ∧ t.resume B d = (t, d) := by
  obtain ⟨rateLimit, phase, joined, aborted, deeds⟩ := t
  cases phase with
  | handling rest seen =>
    cases rest with
    | ask op next => exact Or.inl ⟨op, next, seen, rfl, rfl⟩
    | pure r => exact Or.inr (Or.inl ⟨r.1, r.2, seen, rfl, rfl⟩)
  | _ => exact Or.inr (Or.inr ⟨fun _ _ h => by (cases h), rfl⟩)

end Task

namespace Server
variable {C : Crates} {A : AclCrates C} {σ : Type}

/-- As `run_server` calls `run`. -/
def new (A : AclCrates C) (config : Settings) (file : ConfigFile) (tls : Bool) (now : Instant)
    (d : Dispatcher C σ) : Server A σ where
  reloading := .new A.toTokenCrate config file
  dispatcher := d
  authRequired := Shroudb.authRequired config
  tls := tls
  now := now
  seen := 0
  phase := .accepting
  tasks := []

/-- The drain is over when no task is left. -/
def settle (s : Server A σ) : Server A σ :=
  if s.tasks.all (·.joined) then { s with phase := .returned } else s

/-- The shutdown branch of the accept loop, when it is ready. -/
def observe (s : Server A σ) : Server A σ :=
  if s.reloading.shutdown.value then
    settle { s with
      seen := s.reloading.shutdown.version, phase := .draining (s.now + 30 * 10 ^ 9) }
  else { s with seen := s.reloading.shutdown.version }

/-- The accept loop is biased: the shutdown signal comes before a connection. The rate limit is the
one in force at the accept. -/
def accept (handshakes : Bool) (instant : Instant) (s : Server A σ) : Server A σ :=
  if s.reloading.shutdown.changed s.seen then s.observe
  else
    { s with
      tasks := s.tasks ++
        [.spawn s.authRequired handshakes s.reloading.rateLimit.value s.seen instant] }

def resume (B : Backend C σ) (i : Nat) (s : Server A σ) : Server A σ :=
  match s.tasks[i]? with
  | none => s
  | some t =>
    let (t, d) := t.resume B s.dispatcher
    { s with tasks := s.tasks.set i t, dispatcher := d }

/-- Moves that do not apply change nothing. -/
def move (B : Backend C σ) (s : Server A σ) : ServerMove → Server A σ
  | .reload mv => { s with reloading := s.reloading.move mv }
  | .poll =>
    match s.phase with
    | .accepting => if s.reloading.shutdown.changed s.seen then s.observe else s
    | _ => s
  | .accept overTcp instant =>
    match s.phase with
    | .accepting => s.accept (s.tls && overTcp) instant
    | _ => s
  | .acceptFailed =>
    match s.phase with
    | .accepting => if s.reloading.shutdown.changed s.seen then s.observe else s
    | _ => s
  | .handshake i ok instant =>
    { s with tasks := s.tasks.modify i fun t => t.handshake s.authRequired ok instant }
  | .take i r input =>
    { s with
      tasks := s.tasks.modify i
        (Task.take B s.authRequired s.reloading r input s.dispatcher) }
  | .resume i => s.resume B i
  | .cancel i => { s with tasks := s.tasks.modify i Task.cancel }
  | .join i =>
    match s.phase with
    | .draining _ => settle { s with tasks := s.tasks.modify i Task.join }
    | _ => s
  | .pass time => { s with now := s.now + time }
  | .deadline =>
    match s.phase with
    | .draining deadline =>
      if deadline ≤ s.now then
        { s with phase := .returned, tasks := s.tasks.map Task.abort }
      else s
    | _ => s

/-- What `settle` does: nothing, or the server returns as no task is left. -/
theorem settle_cases (s : Server A σ) :
    (false ∈ s.tasks.map (·.joined) ∧ s.settle = s) ∨
    (false ∉ s.tasks.map (·.joined) ∧ s.settle = { s with phase := .returned }) := by
  unfold settle
  split_ifs with hall
  · refine Or.inr ⟨fun hleft => ?_, rfl⟩
    obtain ⟨t, ht, hjoined⟩ := List.mem_map.mp hleft
    rw [List.all_eq_true.mp hall t ht] at hjoined
    cases hjoined
  · refine Or.inl ⟨?_, rfl⟩
    simpa using hall

/-- What a move can do. -/
theorem move_cases (B : Backend C σ) (s : Server A σ) (mv : ServerMove) :
    (∃ rm, mv = .reload rm ∧ s.move B mv = { s with reloading := s.reloading.move rm }) ∨
    (s.phase = .accepting ∧ s.move B mv = s.observe) ∨
    (s.phase = .accepting ∧ s.reloading.shutdown.changed s.seen = false ∧
      ∃ handshakes instant, s.move B mv = { s with
        tasks := s.tasks ++
          [.spawn s.authRequired handshakes s.reloading.rateLimit.value s.seen instant] }) ∨
    (∃ i ok instant, s.move B mv = { s with
      tasks := s.tasks.modify i fun t => t.handshake s.authRequired ok instant }) ∨
    (∃ i r input, s.move B mv = { s with
      tasks := s.tasks.modify i
        (Task.take B s.authRequired s.reloading r input s.dispatcher) }) ∨
    (∃ i t, s.tasks[i]? = some t ∧ s.move B mv = { s with
      tasks := s.tasks.set i (t.resume B s.dispatcher).1,
      dispatcher := (t.resume B s.dispatcher).2 }) ∨
    (∃ i, s.move B mv = { s with tasks := s.tasks.modify i Task.cancel }) ∨
    (∃ i deadline, s.phase = .draining deadline ∧
      s.move B mv = settle { s with tasks := s.tasks.modify i Task.join }) ∨
    (∃ time, s.move B mv = { s with now := s.now + time }) ∨
    (∃ deadline, s.phase = .draining deadline ∧ s.move B mv =
      { s with phase := .returned, tasks := s.tasks.map Task.abort }) ∨
    s.move B mv = s := by
  cases mv with
  | reload rm => exact Or.inl ⟨rm, rfl, rfl⟩
  | poll =>
    rw [move]
    split
    case h_1 hphase =>
      split_ifs
      · exact Or.inr (Or.inl ⟨hphase, rfl⟩)
      · simp
    case h_2 => simp
  | acceptFailed =>
    rw [move]
    split
    case h_1 hphase =>
      split_ifs
      · exact Or.inr (Or.inl ⟨hphase, rfl⟩)
      · simp
    case h_2 => simp
  | accept overTcp instant =>
    rw [move]
    split
    case h_1 hphase =>
      unfold accept
      split_ifs with hchanged
      · exact Or.inr (Or.inl ⟨hphase, rfl⟩)
      · exact Or.inr (Or.inr (Or.inl
          ⟨hphase, Bool.eq_false_iff.mpr hchanged, s.tls && overTcp, instant, rfl⟩))
    case h_2 => simp
  | handshake i ok instant => exact Or.inr (Or.inr (Or.inr (Or.inl ⟨i, ok, instant, rfl⟩)))
  | take i r input => exact Or.inr (Or.inr (Or.inr (Or.inr (Or.inl ⟨i, r, input, rfl⟩))))
  | resume i =>
    rw [move, resume]
    split
    · simp
    case h_2 t ht =>
      exact Or.inr (Or.inr (Or.inr (Or.inr (Or.inr (Or.inl ⟨i, t, ht, rfl⟩)))))
  | cancel i =>
    exact Or.inr (Or.inr (Or.inr (Or.inr (Or.inr (Or.inr (Or.inl ⟨i, rfl⟩))))))
  | join i =>
    rw [move]
    split
    case h_1 deadline hphase =>
      exact Or.inr (Or.inr (Or.inr (Or.inr (Or.inr (Or.inr (Or.inr (Or.inl
        ⟨i, deadline, hphase, rfl⟩)))))))
    case h_2 => simp
  | pass time =>
    exact Or.inr (Or.inr (Or.inr (Or.inr (Or.inr (Or.inr (Or.inr (Or.inr (Or.inl
      ⟨time, rfl⟩))))))))
  | deadline =>
    rw [move]
    split
    case h_1 deadline hphase =>
      split_ifs
      · exact Or.inr (Or.inr (Or.inr (Or.inr (Or.inr (Or.inr (Or.inr (Or.inr (Or.inr (Or.inl
          ⟨deadline, hphase, rfl⟩)))))))))
      · simp
    case h_2 => simp

end Server

namespace Memory

/-- The principal of a token of the file. -/
def acl : AclCrates crates where
  toTokenCrate := tokenCrate
  intoContext token :=
    ⟨token.tenant, token.actor, token.isPlatform,
      token.grants.flatMap fun g => g.scopes.map fun scope => (g.ns, scope), token.expiresAt⟩

/-- A request made of words by the first client, at time 10. -/
def words (ws : List String) : ServerMove :=
  .take 0 ⟨0, some 10, true⟩ (.frame (.array (ws.map fun w => .bulkString (utf8 w))))

end Memory

end Shroudb
