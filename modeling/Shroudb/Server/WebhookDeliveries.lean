import Mathlib.Algebra.Order.BigOperators.Group.List
import Shroudb.Server.Webhooks

/-! Which events a webhook actor posts, in what order and how often. -/
namespace Shroudb
open Wire Effect

/-! ## What a log says -/

/-- The request for an event that passes the filter and can be serialized. -/
def dueRequest (K : WebhookCrates) (config : WebhookConfig) (event : SubscriptionEvent) :
    Option WebhookRequest :=
  if matchesFilter config event then (webhookRequest K config event).toOption else none

namespace WebhookDeed

/-- The request that is settled: it was accepted, or it was given up. -/
def settled : WebhookDeed → Option WebhookRequest
  | .posted request result => if isSuccess result then some request else none
  | .exhausted request => some request
  | _ => none

def missed : WebhookDeed → Nat
  | .lagged missed => missed
  | _ => 0

def posts : WebhookDeed → Nat
  | .posted .. => 1
  | _ => 0

def pause : WebhookDeed → Nat
  | .slept secs => secs
  | _ => 0

end WebhookDeed

def settledRequests (log : List WebhookDeed) : List WebhookRequest :=
  log.filterMap WebhookDeed.settled

def missedEvents (log : List WebhookDeed) : Nat := (log.map WebhookDeed.missed).sum

def postCount (log : List WebhookDeed) : Nat := (log.map WebhookDeed.posts).sum

def pauseTotal (log : List WebhookDeed) : Nat := (log.map WebhookDeed.pause).sum

section
variable {deed : WebhookDeed} {log log' : List WebhookDeed}

@[simp] theorem settledRequests_nil : settledRequests [] = [] := rfl

@[simp] theorem settledRequests_cons :
    settledRequests (deed :: log) = deed.settled.toList ++ settledRequests log := by
  rw [settledRequests, List.filterMap_cons]
  cases deed.settled <;> rfl

@[simp] theorem settledRequests_append :
    settledRequests (log ++ log') = settledRequests log ++ settledRequests log' :=
  List.filterMap_append

@[simp] theorem missedEvents_append :
    missedEvents (log ++ log') = missedEvents log + missedEvents log' := by
  simp [missedEvents]

@[simp] theorem postCount_nil : postCount [] = 0 := rfl

@[simp] theorem postCount_cons : postCount (deed :: log) = deed.posts + postCount log := rfl

@[simp] theorem postCount_append : postCount (log ++ log') = postCount log + postCount log' := by
  simp [postCount]

@[simp] theorem pauseTotal_nil : pauseTotal [] = 0 := rfl

@[simp] theorem pauseTotal_cons : pauseTotal (deed :: log) = deed.pause + pauseTotal log := rfl

@[simp] theorem pauseTotal_append :
    pauseTotal (log ++ log') = pauseTotal log + pauseTotal log' := by
  simp [pauseTotal]

end

/-! ## Failed attempts -/

/-- What failed attempts leave in the log, the first of them being number `attempt`. -/
def failedAttempts (config : WebhookConfig) (request : WebhookRequest) :
    Nat → List PostResult → List WebhookDeed
  | _, [] => []
  | attempt, result :: results =>
    .posted request result ::
      ((if attempt < config.maxRetries.toNat then [.slept (backoff attempt)] else []) ++
        failedAttempts config request (attempt + 1) results)

section
variable {config : WebhookConfig} {request : WebhookRequest} {attempt : Nat}
  {failures : List PostResult} {result : PostResult}

theorem backoff_le (attempt : Nat) : backoff attempt ≤ 8 := by
  rw [backoff, Nat.one_shiftLeft]
  exact Nat.pow_le_pow_right (by decide) (Nat.min_le_right attempt 3)

theorem failedAttempts_concat :
    failedAttempts config request attempt (failures ++ [result]) =
      failedAttempts config request attempt failures ++ .posted request result ::
        if attempt + failures.length < config.maxRetries.toNat then
          [.slept (backoff (attempt + failures.length))] else [] := by
  induction failures generalizing attempt with
  | nil => simp [failedAttempts]
  | cons r failures ih =>
    simp only [List.cons_append, failedAttempts, ih, List.append_assoc, List.length_cons]
    rw [show attempt + 1 + failures.length = attempt + (failures.length + 1) by omega]

theorem settledRequests_failedAttempts (h : ∀ r ∈ failures, isSuccess r = false) :
    settledRequests (failedAttempts config request attempt failures) = [] := by
  induction failures generalizing attempt with
  | nil => rfl
  | cons r failures ih =>
    rw [List.forall_mem_cons] at h
    rw [failedAttempts]
    split_ifs <;> simp [WebhookDeed.settled, h.1, ih h.2]

theorem postCount_failedAttempts :
    postCount (failedAttempts config request attempt failures) = failures.length := by
  induction failures generalizing attempt with
  | nil => rfl
  | cons r failures ih =>
    rw [failedAttempts]
    split_ifs <;> simp [WebhookDeed.posts, ih, Nat.add_comm]

/-- A pause follows only the attempts before the last. -/
theorem pauseTotal_failedAttempts (attempt : Nat) (failures : List PostResult) :
    pauseTotal (failedAttempts config request attempt failures) ≤
      8 * (config.maxRetries.toNat - attempt) := by
  induction failures generalizing attempt with
  | nil => exact Nat.zero_le _
  | cons r failures ih =>
    have hrest := ih (attempt + 1)
    have hpause := backoff_le attempt
    rw [failedAttempts]
    split_ifs with hlast
    · simp only [pauseTotal_cons, List.cons_append, List.nil_append, WebhookDeed.pause]
      omega
    · simp only [pauseTotal_cons, List.nil_append, WebhookDeed.pause]
      omega

end

/-! ## What every actor's log accounts for -/

/-- The log, chapter by chapter, is what an actor makes of the events it was sent. -/
inductive Handled (K : WebhookCrates) (config : WebhookConfig) :
    List SubscriptionEvent → List WebhookDeed → Prop
  | nil : Handled K config [] []
  | missed {events log} (lost : List SubscriptionEvent) : Handled K config events log →
      Handled K config (events ++ lost) (log ++ [.lagged lost.length])
  | filtered {events log event} : Handled K config events log →
      matchesFilter config event = false → Handled K config (events ++ [event]) log
  | unserializable {events log event e} : Handled K config events log →
      webhookRequest K config event = .error e →
      Handled K config (events ++ [event]) (log ++ [.unserializable e])
  | delivered {events log event request failures result} : Handled K config events log →
      dueRequest K config event = some request → (∀ r ∈ failures, isSuccess r = false) →
      failures.length ≤ config.maxRetries.toNat → isSuccess result = true →
      Handled K config (events ++ [event])
        (log ++ failedAttempts config request 0 failures ++ [.posted request result])
  | exhausted {events log event request failures} : Handled K config events log →
      dueRequest K config event = some request → (∀ r ∈ failures, isSuccess r = false) →
      failures.length = config.maxRetries.toNat + 1 →
      Handled K config (events ++ [event])
        (log ++ failedAttempts config request 0 failures ++ [.exhausted request])

/-- All events but the last are handled, and the attempts so far at the last one failed. -/
def Attempting (K : WebhookCrates) (config : WebhookConfig) (events : List SubscriptionEvent)
    (log : List WebhookDeed) (request : WebhookRequest) (failures : List PostResult) : Prop :=
  ∃ before event handled, events = before ++ [event] ∧ Handled K config before handled ∧
    dueRequest K config event = some request ∧ (∀ r ∈ failures, isSuccess r = false) ∧
    log = handled ++ failedAttempts config request 0 failures

def WebhookPhase.Accounts (K : WebhookCrates) (config : WebhookConfig)
    (events : List SubscriptionEvent) (log : List WebhookDeed) : WebhookPhase → Prop
  | .selecting => Handled K config events log
  | .posting request attempt => attempt ≤ config.maxRetries.toNat ∧
      ∃ failures, failures.length = attempt ∧ Attempting K config events log request failures
  | .backingOff request attempt => attempt < config.maxRetries.toNat ∧
      ∃ failures, failures.length = attempt + 1 ∧ Attempting K config events log request failures
  | .stopped => Handled K config events log ∨ ∃ request failures,
      failures.length ≤ config.maxRetries.toNat ∧
        Attempting K config events log request failures

structure WebhookActor.Accounted (K : WebhookCrates) (channel : Broadcast SubscriptionEvent)
    (a : WebhookActor) : Prop where
  start_le : a.start ≤ a.next
  next_le : a.next ≤ channel.sent.length
  log : a.phase.Accounts K a.config (channel.window a.start a.next) a.log

section
variable {K : WebhookCrates} {capacity : Nat} {channel : Broadcast SubscriptionEvent}
  {shutdown : Watch Bool} {a : WebhookActor} {config : WebhookConfig}
  {events : List SubscriptionEvent} {log : List WebhookDeed} {request : WebhookRequest}
  {failures : List PostResult}

/-- One more failed attempt. -/
theorem Attempting.fail {result : PostResult} (h : Attempting K config events log request failures)
    (hresult : isSuccess result = false) :
    Attempting K config events
      (log ++ .posted request result ::
        if failures.length < config.maxRetries.toNat then [.slept (backoff failures.length)] else [])
      request (failures ++ [result]) := by
  obtain ⟨before, event, handled, rfl, hbefore, hdue, hfailed, rfl⟩ := h
  refine ⟨before, event, handled, rfl, hbefore, hdue, ?_, ?_⟩
  · intro r hr
    rcases List.mem_append.mp hr with hr | hr
    · exact hfailed r hr
    · rw [List.mem_singleton.mp hr]
      exact hresult
  · rw [failedAttempts_concat, List.append_assoc, Nat.zero_add]

/-- An attempt that ends in any way leaves its log accounted for. -/
theorem accounts_finishAttempt {attempt : Nat} (result : PostResult)
    (hattempt : attempt ≤ a.config.maxRetries.toNat) (hlength : failures.length = attempt)
    (h : Attempting K a.config events a.log request failures) :
    (a.finishAttempt request attempt result).phase.Accounts K a.config events
      (a.finishAttempt request attempt result).log := by
  subst hlength
  unfold WebhookActor.finishAttempt
  split_ifs with hsuccess hretry
  · obtain ⟨before, event, handled, rfl, hbefore, hdue, hfailed, hlog⟩ := h
    dsimp only [WebhookPhase.Accounts]
    rw [hlog]
    exact .delivered hbefore hdue hfailed hattempt hsuccess
  · have hfail := h.fail (Bool.eq_false_iff.mpr hsuccess)
    rw [if_pos hretry] at hfail
    exact ⟨hretry, _, by simp, hfail⟩
  · have hfail := h.fail (Bool.eq_false_iff.mpr hsuccess)
    rw [if_neg hretry] at hfail
    obtain ⟨before, event, handled, rfl, hbefore, hdue, hfailed, hlog⟩ := hfail
    have hexhausted := Handled.exhausted hbefore hdue hfailed
      (by rw [List.length_append, List.length_singleton]; omega)
    dsimp only [WebhookPhase.Accounts]
    rw [← hlog, List.append_assoc] at hexhausted
    exact hexhausted

theorem accounted_select (h : a.Accounted K channel) (hphase : a.phase = .selecting) :
    (a.select K capacity channel shutdown).Accounted K channel := by
  have hhandled : Handled K a.config (channel.window a.start a.next) a.log := by
    have hlog := h.log
    rwa [hphase] at hlog
  unfold WebhookActor.select
  split_ifs with hchanged hstop
  · exact ⟨h.start_le, h.next_le, Or.inl hhandled⟩
  · exact ⟨h.start_le, h.next_le, hhandled⟩
  rcases Broadcast.recv_cases capacity channel a.next with ⟨hlag, hrecv⟩ | ⟨event, hevent, hrecv⟩ |
    ⟨-, hrecv⟩ | hrecv
  · -- the events between the old position and the new one are gone
    rw [hrecv]
    have hnext : a.next ≤ channel.sent.length - capacity := by omega
    have hmissed := hhandled.missed (channel.window a.next (channel.sent.length - capacity))
    rw [← Broadcast.window_append h.start_le hnext (Nat.sub_le _ _),
      Broadcast.length_window (Nat.sub_le _ _)] at hmissed
    refine ⟨Nat.le_trans h.start_le hnext, Nat.sub_le _ _, ?_⟩
    dsimp only [WebhookActor.receive]
    rw [hphase]
    exact hmissed
  · rw [hrecv]
    have hlt : a.next < channel.sent.length := (List.getElem?_eq_some_iff.mp hevent).1
    have hwindow := Broadcast.window_succ h.start_le hevent
    dsimp only
    unfold WebhookActor.receive
    dsimp only
    split_ifs with hmatch
    · cases hrequest : webhookRequest K a.config event with
      | error e =>
        refine ⟨Nat.le_succ_of_le h.start_le, hlt, ?_⟩
        dsimp only
        rw [hphase, hwindow]
        exact hhandled.unserializable hrequest
      | ok request =>
        refine ⟨Nat.le_succ_of_le h.start_le, hlt, Nat.zero_le _, [], rfl, ?_⟩
        refine ⟨_, event, a.log, hwindow, hhandled, ?_, by simp, by simp [failedAttempts]⟩
        rw [dueRequest, if_pos hmatch, hrequest]
        rfl
    · refine ⟨Nat.le_succ_of_le h.start_le, hlt, ?_⟩
      dsimp only
      rw [hphase, hwindow]
      exact hhandled.filtered (by simpa using hmatch)
  · rw [hrecv]
    exact ⟨h.start_le, h.next_le, Or.inl hhandled⟩
  · rw [hrecv]
    exact h

/-- An actor can be aborted wherever it waits. -/
theorem accounts_stopped {phase : WebhookPhase} (h : phase.Accounts K config events log) :
    WebhookPhase.stopped.Accounts K config events log := by
  cases phase with
  | selecting => exact Or.inl h
  | posting request attempt =>
    obtain ⟨hattempt, failures, hlength, h⟩ := h
    exact Or.inr ⟨request, failures, by omega, h⟩
  | backingOff request attempt =>
    obtain ⟨hattempt, failures, hlength, h⟩ := h
    exact Or.inr ⟨request, failures, by omega, h⟩
  | stopped => exact h

theorem accounted_move (mv : WebhookMove) (h : a.Accounted K channel) :
    (a.move K capacity channel shutdown mv).Accounted K channel := by
  have hlog := h.log
  rcases a.move_cases mv with ⟨hphase, -, hmove⟩ | ⟨request, attempt, result, hphase, -, hmove⟩ |
    ⟨request, attempt, hphase, -, hmove⟩ | ⟨-, -, hmove⟩ | ⟨-, hmove⟩
  · rw [hmove]
    exact accounted_select h hphase
  · rw [hphase] at hlog
    obtain ⟨hattempt, failures, hlength, hattempting⟩ := hlog
    have hfinish := accounts_finishAttempt result hattempt hlength hattempting
    rw [hmove]
    unfold WebhookActor.finishAttempt at hfinish ⊢
    split_ifs at hfinish ⊢
    all_goals exact ⟨h.start_le, h.next_le, hfinish⟩
  · rw [hphase] at hlog
    obtain ⟨hattempt, failures, hlength, hattempting⟩ := hlog
    rw [hmove]
    exact ⟨h.start_le, h.next_le, hattempt, failures, hlength, hattempting⟩
  · rw [hmove]
    exact ⟨h.start_le, h.next_le, accounts_stopped hlog⟩
  · rw [hmove]
    exact h

theorem accounted_send {event : SubscriptionEvent} (h : a.Accounted K channel) :
    a.Accounted K (channel.send event) := by
  refine ⟨h.start_le, ?_, ?_⟩
  · rw [Broadcast.send, List.length_append]
    exact Nat.le_add_right_of_le h.next_le
  · rw [Broadcast.window_send h.next_le]
    exact h.log

end

namespace Webhooks
variable {K : WebhookCrates} {capacity : Nat}

/-- What one move keeps. -/
theorem accounted_step (s : Webhooks) (mv : WebhooksMove)
    (h : ∀ a ∈ s.actors, a.Accounted K s.channel) :
    ∀ a ∈ (s.move K capacity mv).actors, a.Accounted K (s.move K capacity mv).channel := by
  cases mv with
  | publish event =>
    rw [move]
    split_ifs with hclosed
    · exact h
    · exact fun a ha => accounted_send (h a ha)
  | close => exact fun a ha => ⟨(h a ha).start_le, (h a ha).next_le, (h a ha).log⟩
  | notify shutdown => exact h
  | spawn config =>
    intro a ha
    rcases List.mem_append.mp ha with ha | ha
    · exact h a ha
    · rw [List.mem_singleton.mp ha]
      refine ⟨Nat.le_refl _, Nat.le_refl _, ?_⟩
      dsimp only [WebhookActor.new, WebhookPhase.Accounts, move]
      rw [Broadcast.window_self]
      exact .nil
  | actor i mv => exact Schedule.forall_mem_modify (fun a _ ha => accounted_move mv ha) h

theorem accounted_run (channel : Broadcast SubscriptionEvent) (moves : List WebhooksMove) :
    ∀ a ∈ (Schedule.run (move K capacity) (new channel) moves).actors,
      a.Accounted K (Schedule.run (move K capacity) (new channel) moves).channel := by
  refine Schedule.run_keeps (I := fun s : Webhooks => ∀ a ∈ s.actors, a.Accounted K s.channel)
    accounted_step ?_
  simp [new]

end Webhooks

/-! ## Deliveries -/

/-- What the events and the log of an actor add up to. -/
structure Tally (K : WebhookCrates) (config : WebhookConfig) (events : List SubscriptionEvent)
    (log : List WebhookDeed) : Prop where
  inOrder : (settledRequests log).Sublist (events.filterMap (dueRequest K config))
  complete : (events.filterMap (dueRequest K config)).length ≤
    (settledRequests log).length + missedEvents log
  posts : postCount log ≤ (config.maxRetries.toNat + 1) * (settledRequests log).length
  pauses : pauseTotal log ≤ 8 * config.maxRetries.toNat * (settledRequests log).length

section
variable {K : WebhookCrates} {config : WebhookConfig} {events : List SubscriptionEvent}
  {log : List WebhookDeed} {request : WebhookRequest} {failures : List PostResult}

/-- An event that is not due adds nothing, whatever is logged about it. -/
theorem Tally.skip {event : SubscriptionEvent} {deeds : List WebhookDeed}
    (h : Tally K config events log) (hdue : dueRequest K config event = none)
    (hsettled : settledRequests deeds = []) (hposts : postCount deeds = 0)
    (hpauses : pauseTotal deeds = 0) : Tally K config (events ++ [event]) (log ++ deeds) := by
  have hevents : (events ++ [event]).filterMap (dueRequest K config) =
      events.filterMap (dueRequest K config) := by
    simp [hdue]
  constructor
  · rw [hevents, settledRequests_append, hsettled, List.append_nil]
    exact h.inOrder
  · rw [hevents, settledRequests_append, hsettled, List.append_nil, missedEvents_append]
    have hcomplete := h.complete
    omega
  · rw [settledRequests_append, hsettled, List.append_nil, postCount_append, hposts]
    exact h.posts
  · rw [settledRequests_append, hsettled, List.append_nil, pauseTotal_append, hpauses]
    exact h.pauses

/-- A due event is settled by one deed after its failed attempts. -/
theorem Tally.settle {event : SubscriptionEvent} {deed : WebhookDeed}
    (h : Tally K config events log) (hdue : dueRequest K config event = some request)
    (hfailed : ∀ r ∈ failures, isSuccess r = false) (hdeed : deed.settled = some request)
    (hposts : failures.length + deed.posts ≤ config.maxRetries.toNat + 1)
    (hpause : deed.pause = 0) :
    Tally K config (events ++ [event])
      (log ++ failedAttempts config request 0 failures ++ [deed]) := by
  have hevents : (events ++ [event]).filterMap (dueRequest K config) =
      events.filterMap (dueRequest K config) ++ [request] := by
    simp [hdue]
  have hsettled : settledRequests (log ++ failedAttempts config request 0 failures ++ [deed]) =
      settledRequests log ++ [request] := by
    simp [settledRequests_failedAttempts hfailed, hdeed]
  have hlength : (settledRequests log ++ [request]).length = (settledRequests log).length + 1 := by
    simp
  constructor
  · rw [hevents, hsettled]
    exact h.inOrder.append (.refl _)
  · have hcomplete := h.complete
    rw [hevents, hsettled, hlength]
    simp only [List.length_append, List.length_singleton, missedEvents_append]
    omega
  · have hbefore := h.posts
    rw [hsettled, hlength, Nat.mul_add, Nat.mul_one]
    simp only [postCount_append, postCount_failedAttempts, postCount_cons, postCount_nil]
    omega
  · have hbefore := h.pauses
    have hfailures : pauseTotal (failedAttempts config request 0 failures) ≤
        8 * config.maxRetries.toNat := pauseTotal_failedAttempts 0 failures
    rw [hsettled, hlength, Nat.mul_add, Nat.mul_one]
    simp only [pauseTotal_append, pauseTotal_cons, pauseTotal_nil, hpause]
    omega

end

namespace Memory

/-- An event is its key, and a signature the secret in front of the body. -/
def webhookCrates : WebhookCrates := ⟨fun event => .ok event.key, fun key body => key ++ body⟩

/-- A webhook for puts in namespaces that start with `a`, with one retry. -/
def webhook : WebhookConfig := ⟨"http://hook", "s", ["PUT"], ["a*"], 1⟩

def appPut : SubscriptionEvent := ⟨.put, "app", [107], 1, "writer", 0⟩

end Memory

end Shroudb
