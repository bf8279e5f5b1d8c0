import Shroudb.Client.Connection
import Shroudb.Client.Exchange
import Shroudb.Server.Attribution

/-! Tasks that share a `RemoteStore`, and with it the one connection that it holds under a lock. -/
namespace Shroudb
open Wire Effect Resp3Frame

/-- The arguments of a command that the server reads. -/
abbrev BoundedArgs := { args : List String // WithinLimits args }

/-- A call of a task that is over. -/
structure Returned (ι : Type) where
  task : ι
  request : BoundedArgs
  result : Except ReadFailure Response

/-- The tasks `ι`, their connection and the server at its other end. The task that has the lock is
in a call, `requests` holds what the calls so far have sent, by their number, and `todo` what each
task has still to ask for. -/
structure SharedStore (ι : Type) (C : Crates) (σ : Type) where
  link : Link
  holder : Option (ι × BoundedArgs)
  requests : List BoundedArgs
  todo : ι → List BoundedArgs
  returned : List (Returned ι)
  dispatcher : Dispatcher C σ

/-- `elsewhere` is a command of another client of the server. -/
inductive SharedMove (ι : Type) (C : Crates) where
  | lock (task : ι)
  | write
  | send
  | flushed
  | deliver (n : Nat)
  | poll
  | timeout
  | elsewhere (command : ContextCommand C)

section
variable {ι : Type} {C : Crates} {σ : Type}

/-- The server reads its requests one after the other, and writes a reply to each. -/
def serveAll (B : Backend C σ) (auth : Option C.AuthContext) :
    List BoundedArgs → Dispatcher C σ → Bytes × Dispatcher C σ
  | [], d => ([], d)
  | request :: requests, d =>
    let (reply, d) := serveFrame B auth (commandFrame request.1) d
    let (replies, d) := serveAll B auth requests d
    (writeFrame reply ++ replies, d)

namespace SharedStore

def new (d : Dispatcher C σ) (todo : ι → List BoundedArgs) : SharedStore ι C σ :=
  ⟨.new, none, [], todo, [], d⟩

/-- The lock is given back when the call has a result. -/
def settle (s : SharedStore ι C σ) (link : Link) : SharedStore ι C σ :=
  match s.holder, link.results[s.link.results.length]? with
  | some (task, request), some result =>
    { s with link, holder := none, returned := s.returned ++ [⟨task, request, result⟩] }
  | _, _ => { s with link }

/-- What the connection does alone does not depend on the replies. -/
def linkMove (s : SharedStore ι C σ) (mv : LinkMove) : SharedStore ι C σ :=
  s.settle (s.link.move (fun _ => []) mv)

variable [DecidableEq ι] (B : Backend C σ) (auth : Option C.AuthContext)

/-- Every task takes the lock for a whole call. Moves that do not apply change nothing. -/
def move (s : SharedStore ι C σ) : SharedMove ι C → SharedStore ι C σ
  | .lock task =>
    match s.holder, s.todo task with
    | none, request :: rest =>
      { s with
        link := s.link.move (fun _ => []) .call
        holder := some (task, request)
        requests := s.requests ++ [request]
        todo := Function.update s.todo task rest }
    | _, _ => s
  | .write => s.linkMove .write
  | .send =>
    if s.link.activity = .flushing then
      let (replies, dispatcher) :=
        serveAll B auth (s.link.unsent.filterMap (s.requests[·]?)) s.dispatcher
      { s with
        link := { s.link with unsent := [], wire := s.link.wire ++ replies }
        dispatcher }
    else s
  | .flushed => s.linkMove .flushed
  | .deliver n => s.linkMove (.deliver n)
  | .poll => s.linkMove .poll
  | .timeout => s.linkMove .timeout
  | .elsewhere command => { s with dispatcher := command.after B s.dispatcher }

/-- A timeout finds nothing of its command written, and the client can read what the server
replies. -/
structure Calm (s : SharedStore ι C σ) (mv : SharedMove ι C) : Prop where
  unwritten : mv = .timeout → s.link.activity = .idle ∨ s.link.activity = .writing
  readable : mv = .send → ∀ task request, s.holder = some (task, request) →
    Legible (serveFrame B auth (commandFrame request.1) s.dispatcher).1

/-- The server between two calls: it may have executed commands of other clients. -/
def Elsewhere (d d' : Dispatcher C σ) : Prop :=
  ∃ commands, d' = Schedule.run (ContextCommand.after B) d commands

/-- The calls one after the other, each alone with the server: it has returned what the server
replied to its own request, or timed out and the server has never seen it. -/
def Follows : Dispatcher C σ → List (Returned ι) → Dispatcher C σ → Prop
  | d, [], d' => Elsewhere B d d'
  | d, call :: calls, d' => ∃ before, Elsewhere B d before ∧
    (call.result = timedOut ∧ Follows before calls d' ∨
      call.result = (exchange B auth call.request.1 before).1 ∧
        Follows (exchange B auth call.request.1 before).2 calls d')

/-! ## One call -/

/-- The task that has the lock, with the request of the call it is in. -/
structure Holds (s : SharedStore ι C σ) (task : ι) (request : BoundedArgs) : Prop where
  holder : s.holder = some (task, request)
  numbered : s.requests[s.link.results.length]? = some request
  length : s.requests.length = s.link.results.length + 1

/-- How far the call in progress is, where `d` is the server before it. -/
inductive CallStage (d : Dispatcher C σ) (s : SharedStore ι C σ) : Prop
  | free (hactivity : s.link.activity = .idle) (hholder : s.holder = none)
      (hrequests : s.requests.length = s.link.results.length) (hunsent : s.link.unsent = [])
      (hquiet : s.link.inbox.contents ++ s.link.wire = []) (hserver : s.dispatcher = d)
  | begun (task : ι) (request : BoundedArgs) (hactivity : s.link.activity = .writing)
      (hholds : Holds s task request) (hunsent : s.link.unsent = [])
      (hquiet : s.link.inbox.contents ++ s.link.wire = []) (hserver : s.dispatcher = d)
  | buffered (task : ι) (request : BoundedArgs) (hactivity : s.link.activity = .flushing)
      (hholds : Holds s task request) (hunsent : s.link.unsent = [s.link.results.length])
      (hquiet : s.link.inbox.contents ++ s.link.wire = []) (hserver : s.dispatcher = d)
  | served (task : ι) (request : BoundedArgs) (reply : Resp3Frame)
      (hactivity : s.link.activity = .flushing ∨ s.link.activity = .reading)
      (hholds : Holds s task request) (hunsent : s.link.unsent = [])
      (hreply : s.link.inbox.contents ++ s.link.wire = writeFrame reply)
      (hserver : (serveFrame B auth (commandFrame request.1) d).1 = reply)
      (hafter : Elsewhere B (serveFrame B auth (commandFrame request.1) d).2 s.dispatcher)
      (hlegible : Legible reply)

variable {B auth} {s : SharedStore ι C σ} {d d' : Dispatcher C σ}

omit [DecidableEq ι] in
theorem linkMove_of_results {mv : LinkMove}
    (h : (s.link.move (fun _ => []) mv).results = s.link.results) :
    s.linkMove mv = { s with link := s.link.move (fun _ => []) mv } := by
  rw [linkMove, settle, h]
  cases s.holder with
  | none => rfl
  | some holder => simp

omit [DecidableEq ι] in
theorem linkMove_of_eq {mv : LinkMove} (h : s.link.move (fun _ => []) mv = s.link) :
    s.linkMove mv = s := by
  rw [linkMove_of_results (by rw [h]), h]

omit [DecidableEq ι] in
theorem linkMove_finish {mv : LinkMove} {task : ι} {request : BoundedArgs} {inbox : Inbox}
    {result : Except ReadFailure Response} (hholder : s.holder = some (task, request))
    (h : s.link.move (fun _ => []) mv = s.link.finish inbox result) :
    s.linkMove mv = { s with
      link := s.link.finish inbox result
      holder := none
      returned := s.returned ++ [⟨task, request, result⟩] } := by
  rw [linkMove, settle, h, hholder]
  simp [Link.finish]

theorem Elsewhere.refl (d : Dispatcher C σ) : Elsewhere B d d := ⟨[], rfl⟩

theorem Elsewhere.after (h : Elsewhere B d d') (command : ContextCommand C) :
    Elsewhere B d (command.after B d') := by
  obtain ⟨commands, rfl⟩ := h
  refine ⟨commands ++ [command], ?_⟩
  rw [Schedule.run_append]
  rfl

theorem exchange_of_readable {request : BoundedArgs}
    (h : Legible (serveFrame B auth (commandFrame request.1) d).1) :
    exchange B auth request.1 d = (.ok (img (serveFrame B auth (commandFrame request.1) d).1),
      (serveFrame B auth (commandFrame request.1) d).2) := by
  rw [exchange_of_read request.2, receive_writeFrame h.oneLine h.held]

omit [DecidableEq ι] in
theorem Follows.after {calls : List (Returned ι)} {d₀ : Dispatcher C σ}
    (h : Follows B auth d₀ calls d) (command : ContextCommand C) :
    Follows B auth d₀ calls (command.after B d) := by
  induction calls generalizing d₀ with
  | nil => exact Elsewhere.after h command
  | cons call calls ih =>
    obtain ⟨before, hbefore, ⟨htimeout, h⟩ | ⟨hresult, h⟩⟩ := h
    · exact ⟨before, hbefore, Or.inl ⟨htimeout, ih h⟩⟩
    · exact ⟨before, hbefore, Or.inr ⟨hresult, ih h⟩⟩

omit [DecidableEq ι] in
theorem Follows.concat {calls : List (Returned ι)} {call : Returned ι} {d₀ : Dispatcher C σ}
    (h : Follows B auth d₀ calls d)
    (hcall : call.result = timedOut ∧ d' = d ∨
      call.result = (exchange B auth call.request.1 d).1 ∧
        Elsewhere B (exchange B auth call.request.1 d).2 d') :
    Follows B auth d₀ (calls ++ [call]) d' := by
  induction calls generalizing d₀ with
  | nil =>
    rcases hcall with ⟨htimeout, rfl⟩ | ⟨hresult, hafter⟩
    · exact ⟨d', h, Or.inl ⟨htimeout, Elsewhere.refl d'⟩⟩
    · exact ⟨d, h, Or.inr ⟨hresult, hafter⟩⟩
  | cons first calls ih =>
    obtain ⟨before, hbefore, ⟨htimeout, h⟩ | ⟨hresult, h⟩⟩ := h
    · exact ⟨before, hbefore, Or.inl ⟨htimeout, ih h⟩⟩
    · exact ⟨before, hbefore, Or.inr ⟨hresult, ih h⟩⟩

/-! ## One move -/

theorem stage_lock (task : ι) (h : CallStage B auth d s) :
    CallStage B auth d (s.move B auth (.lock task)) := by
  rw [move]
  split
  case h_1 request rest hholder htodo =>
    cases h with
    | free hactivity _ hrequests hunsent hquiet hserver =>
      have hcall : s.link.move (fun _ => []) .call = { s.link with activity := .writing } := by
        rw [Link.move, if_pos hactivity]
      rw [hcall]
      refine .begun task request rfl ⟨rfl, ?_, ?_⟩ hunsent hquiet hserver
      · simp [← hrequests]
      · simp [hrequests]
    | begun _ _ _ hholds => simp [hholds.holder] at hholder
    | buffered _ _ _ hholds => simp [hholds.holder] at hholder
    | served _ _ _ _ hholds => simp [hholds.holder] at hholder
  case h_2 => exact h

theorem stage_write (h : CallStage B auth d s) : CallStage B auth d (s.move B auth .write) := by
  rw [move]
  by_cases hwriting : s.link.activity = .writing
  · have hlink : s.link.move (fun _ => []) .write = { s.link with
        activity := .flushing, unsent := s.link.unsent ++ [s.link.results.length] } := by
      rw [Link.move, if_pos hwriting]
    rw [linkMove_of_results (by rw [hlink]), hlink]
    cases h with
    | begun task request _ hholds hunsent hquiet hserver =>
      refine .buffered task request rfl ⟨hholds.1, hholds.2, hholds.3⟩ ?_ hquiet hserver
      simp [hunsent]
    | free hactivity => simp [hactivity] at hwriting
    | buffered _ _ hactivity => simp [hactivity] at hwriting
    | served _ _ _ hactivity => simp [hwriting] at hactivity
  · rw [linkMove_of_eq (by rw [Link.move, if_neg hwriting])]
    exact h

theorem stage_send (hcalm : Calm B auth s .send) (h : CallStage B auth d s) :
    CallStage B auth d (s.move B auth .send) := by
  rw [move]
  split_ifs with hflushing
  · cases h with
    | buffered task request _ hholds hunsent hquiet hserver =>
      have hlegible := hcalm.readable rfl task request hholds.holder
      have hunserved : s.link.unsent.filterMap (s.requests[·]?) = [request] := by
        simp [hunsent, hholds.numbered]
      rw [hserver] at hlegible
      rw [hunserved, hserver]
      refine .served task request _ (Or.inl hflushing) ⟨hholds.1, hholds.2, hholds.3⟩ rfl ?_ rfl
        (Elsewhere.refl _) hlegible
      simp only [serveAll]
      rw [List.append_nil, ← List.append_assoc, hquiet, List.nil_append]
    | served task request reply hactivity hholds hunsent hreply hserver hafter hlegible =>
      rw [hunsent]
      refine .served task request reply hactivity ⟨hholds.1, hholds.2, hholds.3⟩ rfl ?_ hserver
        hafter hlegible
      simpa [serveAll] using hreply
    | free hactivity => simp [hactivity] at hflushing
    | begun _ _ hactivity => simp [hactivity] at hflushing
  · exact h

theorem stage_flushed (h : CallStage B auth d s) : CallStage B auth d (s.move B auth .flushed) := by
  rw [move]
  by_cases hflushed : s.link.activity = .flushing ∧ s.link.unsent = []
  · have hlink : s.link.move (fun _ => []) .flushed = { s.link with activity := .reading } := by
      rw [Link.move, if_pos hflushed]
    rw [linkMove_of_results (by rw [hlink]), hlink]
    cases h with
    | served task request reply _ hholds hunsent hreply hserver hafter hlegible =>
      exact .served task request reply (Or.inr rfl) ⟨hholds.1, hholds.2, hholds.3⟩ hunsent hreply
        hserver hafter hlegible
    | free hactivity => simp [hactivity] at hflushed
    | begun _ _ hactivity => simp [hactivity] at hflushed
    | buffered _ _ _ _ hunsent => simp [hunsent] at hflushed
  · rw [linkMove_of_eq (by rw [Link.move, if_neg hflushed])]
    exact h

theorem stage_deliver (n : Nat) (h : CallStage B auth d s) :
    CallStage B auth d (s.move B auth (.deliver n)) := by
  rw [move, linkMove_of_results rfl]
  have hstream : (s.link.move (fun _ => []) (.deliver n)).inbox.contents ++
      (s.link.move (fun _ => []) (.deliver n)).wire =
        s.link.inbox.contents ++ s.link.wire := by
    simp [Link.move]
  cases h with
  | free hactivity hholder hrequests hunsent hquiet hserver =>
    exact .free hactivity hholder hrequests hunsent (hstream.trans hquiet) hserver
  | begun task request hactivity hholds hunsent hquiet hserver =>
    exact .begun task request hactivity ⟨hholds.1, hholds.2, hholds.3⟩ hunsent
      (hstream.trans hquiet) hserver
  | buffered task request hactivity hholds hunsent hquiet hserver =>
    exact .buffered task request hactivity ⟨hholds.1, hholds.2, hholds.3⟩ hunsent
      (hstream.trans hquiet) hserver
  | served task request reply hactivity hholds hunsent hreply hserver hafter hlegible =>
    exact .served task request reply hactivity ⟨hholds.1, hholds.2, hholds.3⟩ hunsent
      (hstream.trans hreply) hserver hafter hlegible

/-- A poll goes on waiting, or returns the reply to the call's own request. -/
theorem stage_poll {d₀ : Dispatcher C σ} (hfollows : Follows B auth d₀ s.returned d)
    (h : CallStage B auth d s) :
    ∃ d', Follows B auth d₀ (s.move B auth .poll).returned d' ∧
      CallStage B auth d' (s.move B auth .poll) := by
  rw [move]
  by_cases hreading : s.link.activity = .reading
  · cases h with
    | served task request reply _ hholds hunsent hreply hserver hafter hlegible =>
      rcases Inbox.poll_of_reads Response.lawful_readValue (reads_readValue hlegible.oneLine hlegible.held) hreply with
        ⟨hnone, hcontents⟩ | ⟨hread, hwire⟩
      · have hlink : s.link.move (fun _ => []) .poll =
            { s.link with inbox := (s.link.inbox.poll Response.readValue false).2 } := by
          rw [Link.move, if_pos hreading]
          split <;> simp_all
        rw [linkMove_of_results (by rw [hlink]), hlink]
        refine ⟨d, hfollows, .served task request reply (Or.inr hreading)
          ⟨hholds.1, hholds.2, hholds.3⟩ hunsent ?_ hserver hafter hlegible⟩
        exact (congrArg (· ++ s.link.wire) hcontents).trans hreply
      · have hlink : s.link.move (fun _ => []) .poll =
            s.link.finish ⟨[], []⟩ (.ok (img reply)) := by
          rw [Link.move, if_pos hreading, hread]
        subst hserver
        rw [linkMove_finish hholds.holder hlink]
        refine ⟨s.dispatcher, hfollows.concat (Or.inr ?_), ?_⟩
        · rw [exchange_of_readable hlegible]
          exact ⟨rfl, hafter⟩
        · refine .free rfl rfl ?_ hunsent ?_ rfl
          · simp [Link.finish, hholds.length]
          · simp [Link.finish, Inbox.contents, hwire]
    | free hactivity => simp [hactivity] at hreading
    | begun _ _ hactivity => simp [hactivity] at hreading
    | buffered _ _ hactivity => simp [hactivity] at hreading
  · rw [linkMove_of_eq (by rw [Link.move, if_neg hreading])]
    exact ⟨d, hfollows, h⟩

/-- A call that times out before it has written anything leaves the connection as it was. -/
theorem stage_timeout {d₀ : Dispatcher C σ} (hcalm : Calm B auth s .timeout)
    (hfollows : Follows B auth d₀ s.returned d) (h : CallStage B auth d s) :
    ∃ d', Follows B auth d₀ (s.move B auth .timeout).returned d' ∧
      CallStage B auth d' (s.move B auth .timeout) := by
  rw [move]
  rcases hcalm.unwritten rfl with hidle | hwriting
  · rw [linkMove_of_eq (by rw [Link.move, if_pos hidle])]
    exact ⟨d, hfollows, h⟩
  · have hlink : s.link.move (fun _ => []) .timeout =
        s.link.finish s.link.inbox.abandon timedOut := by
      rw [Link.move, if_neg (by simp [hwriting])]
    cases h with
    | begun task request _ hholds hunsent hquiet hserver =>
      rw [linkMove_finish hholds.holder hlink]
      refine ⟨d, hfollows.concat (Or.inl ⟨rfl, rfl⟩), .free rfl rfl ?_ hunsent ?_ hserver⟩
      · simp [Link.finish, hholds.length]
      · simp only [Inbox.contents, List.append_eq_nil_iff] at hquiet
        simp [Link.finish, Inbox.abandon, Inbox.contents, hquiet]
    | free hactivity => simp [hactivity] at hwriting
    | buffered _ _ hactivity => simp [hactivity] at hwriting
    | served _ _ _ hactivity => simp [hwriting] at hactivity

theorem stage_elsewhere (command : ContextCommand C) (h : CallStage B auth d s) :
    CallStage B auth d (s.move B auth (.elsewhere command)) ∨
      CallStage B auth (command.after B d) (s.move B auth (.elsewhere command)) := by
  cases h with
  | free hactivity hholder hrequests hunsent hquiet hserver =>
    exact Or.inr (.free hactivity hholder hrequests hunsent hquiet
      (congrArg (command.after B) hserver))
  | begun task request hactivity hholds hunsent hquiet hserver =>
    exact Or.inr (.begun task request hactivity ⟨hholds.1, hholds.2, hholds.3⟩ hunsent hquiet
      (congrArg (command.after B) hserver))
  | buffered task request hactivity hholds hunsent hquiet hserver =>
    exact Or.inr (.buffered task request hactivity ⟨hholds.1, hholds.2, hholds.3⟩ hunsent hquiet
      (congrArg (command.after B) hserver))
  | served task request reply hactivity hholds hunsent hreply hserver hafter hlegible =>
    exact Or.inl (.served task request reply hactivity ⟨hholds.1, hholds.2, hholds.3⟩ hunsent
      hreply hserver (hafter.after command) hlegible)

theorem returned_move {mv : SharedMove ι C} (hpoll : mv ≠ .poll) (htimeout : mv ≠ .timeout) :
    (s.move B auth mv).returned = s.returned := by
  cases mv with
  | lock task =>
    rw [move]
    split <;> rfl
  | write =>
    rw [move, linkMove_of_results]
    rw [Link.move]
    split_ifs <;> rfl
  | send =>
    rw [move]
    split_ifs <;> rfl
  | flushed =>
    rw [move, linkMove_of_results]
    rw [Link.move]
    split_ifs <;> rfl
  | deliver n => rw [move, linkMove_of_results rfl]
  | poll => exact absurd rfl hpoll
  | timeout => exact absurd rfl htimeout
  | elsewhere command => rfl

/-- What one move keeps. -/
theorem stage_move {d₀ : Dispatcher C σ} {mv : SharedMove ι C} (hcalm : Calm B auth s mv)
    (h : ∃ d, Follows B auth d₀ s.returned d ∧ CallStage B auth d s) :
    ∃ d, Follows B auth d₀ (s.move B auth mv).returned d ∧
      CallStage B auth d (s.move B auth mv) := by
  obtain ⟨d, hfollows, hstage⟩ := h
  by_cases hpoll : mv = .poll
  · subst hpoll
    exact stage_poll hfollows hstage
  by_cases htimeout : mv = .timeout
  · subst htimeout
    exact stage_timeout hcalm hfollows hstage
  rw [returned_move hpoll htimeout]
  cases mv with
  | lock task => exact ⟨d, hfollows, stage_lock task hstage⟩
  | write => exact ⟨d, hfollows, stage_write hstage⟩
  | send => exact ⟨d, hfollows, stage_send hcalm hstage⟩
  | flushed => exact ⟨d, hfollows, stage_flushed hstage⟩
  | deliver n => exact ⟨d, hfollows, stage_deliver n hstage⟩
  | poll => exact absurd rfl hpoll
  | timeout => exact absurd rfl htimeout
  | elsewhere command =>
    rcases stage_elsewhere command hstage with hstage | hstage
    · exact ⟨d, hfollows, hstage⟩
    · exact ⟨command.after B d, hfollows.after command, hstage⟩

/-! ## The order of each task -/

/-- All requests of a task: those that have returned, the one it is at, and those still to come. -/
def asked (s : SharedStore ι C σ) (task : ι) : List BoundedArgs :=
  (s.returned.filter (·.task = task)).map (·.request) ++
    (s.holder.toList.filter (·.1 = task)).map (·.2) ++ s.todo task

theorem asked_linkMove (mv : LinkMove) (task : ι) : (s.linkMove mv).asked task = s.asked task := by
  rw [linkMove, settle]
  split
  case h_1 holder request result hholder hresult =>
    rw [asked, asked, hholder]
    by_cases htask : holder = task <;> simp [htask]
  case h_2 => rfl

theorem asked_move (mv : SharedMove ι C) (task : ι) :
    (s.move B auth mv).asked task = s.asked task := by
  cases mv with
  | lock other =>
    rw [move]
    split
    case h_1 request rest hholder htodo =>
      rw [asked, asked, hholder]
      by_cases htask : task = other
      · subst htask
        simp [htodo]
      · simp [Function.update_of_ne htask, Ne.symm htask]
    case h_2 => rfl
  | write => exact asked_linkMove _ task
  | send =>
    rw [move]
    split_ifs <;> rfl
  | flushed => exact asked_linkMove _ task
  | deliver n => exact asked_linkMove _ task
  | poll => exact asked_linkMove _ task
  | timeout => exact asked_linkMove _ task
  | elsewhere command => rfl

end SharedStore

open SharedStore in
/-- However the tasks and the network interleave, the server has executed the calls one at a time,
in the order in which the tasks had the lock and with commands of other clients at most between
them, and each has returned the reply to its own request: all that can be ahead of what has
returned is the call in progress. Every task's calls are in its own order. -/
theorem tasks_share_connection [DecidableEq ι] (B : Backend C σ) (auth : Option C.AuthContext)
    (d : Dispatcher C σ) (todo : ι → List BoundedArgs) (moves : List (SharedMove ι C))
    (hcalm : Schedule.Guarded (SharedStore.move B auth) (Calm B auth) (.new d todo) moves) :
    let s := Schedule.run (SharedStore.move B auth) (.new d todo) moves
    (∃ d', Follows B auth d s.returned d' ∧ (s.dispatcher = d' ∨
      ∃ task request, s.holder = some (task, request) ∧
        Elsewhere B (exchange B auth request.1 d').2 s.dispatcher)) ∧
    ∀ task, s.asked task = todo task := by
  intro s
  have hstart : ∃ d', Follows B auth d (SharedStore.new d todo).returned d' ∧
      CallStage B auth d' (SharedStore.new d todo) :=
    ⟨d, Elsewhere.refl d, .free rfl rfl rfl rfl rfl rfl⟩
  obtain ⟨d', hfollows, hstage⟩ :
      ∃ d', Follows B auth d s.returned d' ∧ CallStage B auth d' s :=
    Schedule.run_invariant
      (I := fun s => ∃ d', Follows B auth d s.returned d' ∧ CallStage B auth d' s)
      (fun _ _ hc h => stage_move hc h) hcalm hstart
  refine ⟨⟨d', hfollows, ?_⟩, fun task => ?_⟩
  · cases hstage with
    | free _ _ _ _ _ hserver => exact Or.inl hserver
    | begun _ _ _ _ _ _ hserver => exact Or.inl hserver
    | buffered _ _ _ _ _ _ hserver => exact Or.inl hserver
    | served task request reply _ hholds _ _ hserver hafter hlegible =>
      subst hserver
      refine Or.inr ⟨task, request, hholds.holder, ?_⟩
      rw [exchange_of_readable hlegible]
      exact hafter
  · refine Schedule.run_keeps (I := fun s => SharedStore.asked s task = todo task) ?_ rfl
    intro s mv h
    rw [asked_move, h]

end

namespace Memory

/-- A conditional write, which only the first of two finds the key absent for. -/
def claim : BoundedArgs := ⟨["PUTIF", "a", "k", "v", "EXPECT", "0"], by decide, by decide⟩

/-- Both tasks want the lock, and the second gets it when the first has its reply. -/
def contend : List (SharedMove Bool crates) :=
  [.lock true, .lock false, .write, .send, .flushed, .deliver 100, .lock false, .poll,
    .lock false, .write, .send, .flushed, .deliver 100, .poll]

theorem legible_conflict : Legible (.simpleError "VERSIONCONFLICT current=1") :=
  ⟨by simp [InMemory], by simp [LineSafe, lineTexts]⟩

theorem calm_contend : Schedule.Guarded (SharedStore.move backend (some writer))
    (SharedStore.Calm backend (some writer)) (.new (fresh []) fun _ => [claim]) contend := by
  have hother : ∀ (s : SharedStore Bool crates State) mv, mv ≠ .send → mv ≠ .timeout →
      SharedStore.Calm backend (some writer) s mv :=
    fun _ _ hsend htimeout => ⟨fun h => absurd h htimeout, fun h => absurd h hsend⟩
  refine ⟨hother _ _ nofun nofun, hother _ _ nofun nofun, hother _ _ nofun nofun, ⟨nofun, ?_⟩,
    hother _ _ nofun nofun, hother _ _ nofun nofun, hother _ _ nofun nofun,
    hother _ _ nofun nofun, hother _ _ nofun nofun, hother _ _ nofun nofun, ⟨nofun, ?_⟩,
    hother _ _ nofun nofun, hother _ _ nofun nofun, hother _ _ nofun nofun, trivial⟩
  · rintro - task request ⟨⟩
    exact legible_version 1
  · rintro - task request ⟨⟩
    exact legible_conflict

/-- The server executes the two claims one after the other, and the second task is told so. -/
theorem second_claim_conflicts :
    let s := Schedule.run (SharedStore.move backend (some writer))
      (.new (fresh []) fun _ => [claim]) contend
    ((∃ d', SharedStore.Follows backend (some writer) (fresh []) s.returned d' ∧
      (s.dispatcher = d' ∨ ∃ task request, s.holder = some (task, request) ∧
        SharedStore.Elsewhere backend (exchange backend (some writer) request.1 d').2
          s.dispatcher)) ∧
    ∀ task, s.asked task = [claim]) ∧
    (s.returned[1]?).map (·.result) = some (.ok (.error "VERSIONCONFLICT current=1")) := by
  refine ⟨tasks_share_connection backend (some writer) (fresh []) (fun _ => [claim]) contend
    calm_contend, ?_⟩
  rfl

end Memory

end Shroudb
