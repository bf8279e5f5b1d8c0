import Shroudb.Effect.Potential
import Shroudb.Server.WebhookDeliveries

/-! What webhook actors do after the shutdown signal. -/
namespace Shroudb
open Wire Effect

namespace WebhookPhase

/-- The request under way. -/
def request : WebhookPhase → Option WebhookRequest
  | .posting request _ => some request
  | .backingOff request _ => some request
  | _ => none

/-- How many turns an actor has left when no new event is taken up. -/
def work (maxRetries : Nat) : WebhookPhase → Nat
  | .selecting => 1
  | .posting _ attempt => 2 * (maxRetries - attempt) + 2
  | .backingOff _ attempt => 2 * (maxRetries - attempt) + 1
  | .stopped => 0

end WebhookPhase

namespace WebhookActor

def work (a : WebhookActor) : Nat := a.phase.work a.config.maxRetries.toNat

/-- The shutdown signal waits for the actor, or has stopped it. -/
def Signalled (shutdown : Watch Bool) (a : WebhookActor) : Prop :=
  shutdown.value = true ∧ (shutdown.changed a.seen ∨ a.phase = .stopped)

/-- From `a` to `a'` no event was taken up, and only the request under way was posted. -/
structure Winds (a a' : WebhookActor) : Prop where
  next : a'.next = a.next
  config : a'.config = a.config
  request : ∀ r, a'.phase.request = some r → a.phase.request = some r
  log : ∃ deeds, a'.log = a.log ++ deeds ∧
    ∀ r result, .posted r result ∈ deeds → a.phase.request = some r

variable {K : WebhookCrates} {capacity : Nat} {channel : Broadcast SubscriptionEvent}
  {shutdown : Watch Bool} {a a' a'' : WebhookActor}

theorem Winds.refl : Winds a a := ⟨rfl, rfl, fun _ h => h, [], by simp, by simp⟩

theorem Winds.trans (h : Winds a a') (h' : Winds a' a'') : Winds a a'' := by
  obtain ⟨deeds, hlog, hposted⟩ := h.log
  obtain ⟨deeds', hlog', hposted'⟩ := h'.log
  refine ⟨h'.next.trans h.next, h'.config.trans h.config, fun r hr => h.request r (h'.request r hr),
    deeds ++ deeds', by rw [hlog', hlog, List.append_assoc], fun r result hr => ?_⟩
  rcases List.mem_append.mp hr with hr | hr
  · exact hposted r result hr
  · exact h.request r (hposted' r result hr)

/-- An actor that has stopped or has nothing under way has logged nothing. -/
theorem winds_idle {phase : WebhookPhase} {seen : Nat} (h : phase.request = none) :
    Winds a { a with phase, seen } :=
  ⟨rfl, rfl, fun r hr => by simp [h] at hr, [], by simp, by simp⟩

theorem winds_finishAttempt {request : WebhookRequest} {attempt : Nat} {result : PostResult}
    (h : a.phase = .posting request attempt) :
    Winds a (a.finishAttempt request attempt result) := by
  have hrequest : a.phase.request = some request := by rw [h, WebhookPhase.request]
  unfold finishAttempt
  split_ifs
  · refine ⟨rfl, rfl, ?_, _, rfl, fun r result' hr => ?_⟩
    · intro r hr
      cases hr
    · cases List.mem_singleton.mp hr
      exact hrequest
  · refine ⟨rfl, rfl, fun r hr => hrequest.trans hr, _, rfl, fun r result' hr => ?_⟩
    simp only [List.mem_cons, WebhookDeed.posted.injEq, reduceCtorEq, List.not_mem_nil,
      or_self, or_false] at hr
    rw [hr.1]
    exact hrequest
  · refine ⟨rfl, rfl, ?_, _, rfl, fun r result' hr => ?_⟩
    · intro r hr
      cases hr
    · simp only [List.mem_cons, WebhookDeed.posted.injEq, reduceCtorEq, List.not_mem_nil,
        or_self, or_false] at hr
      rw [hr.1]
      exact hrequest

theorem work_finishAttempt {request : WebhookRequest} {attempt : Nat} {result : PostResult}
    (h : a.phase = .posting request attempt) :
    1 + (a.finishAttempt request attempt result).work ≤ a.work := by
  have hwork : a.work = 2 * (a.config.maxRetries.toNat - attempt) + 2 := by
    rw [work, h, WebhookPhase.work]
  unfold finishAttempt
  split_ifs <;> dsimp only [work, WebhookPhase.work] at hwork ⊢ <;> omega

theorem work_eq_zero_iff : a.work = 0 ↔ a.phase = .stopped := by
  unfold work
  cases hphase : a.phase <;> simp [WebhookPhase.work]

/-- What one turn does once the signal is there. -/
theorem winds_move (capacity : Nat) (mv : WebhookMove) (haccounted : a.Accounted K channel)
    (h : a.Signalled shutdown) :
    Winds a (a.move K capacity channel shutdown mv) ∧
      (a.move K capacity channel shutdown mv).Signalled shutdown ∧
      a.turn mv + (a.move K capacity channel shutdown mv).work ≤ a.work := by
  have hlog := haccounted.log
  rcases a.move_cases mv with ⟨hphase, hturn, hmove⟩ |
    ⟨request, attempt, result, hphase, hturn, hmove⟩ | ⟨request, attempt, hphase, hturn, hmove⟩ |
    ⟨hturn, hphase, hmove⟩ | ⟨hturn, hmove⟩
  · have hchanged : shutdown.changed a.seen = true := by simpa [hphase] using h.2
    rw [hmove, select, if_pos hchanged, if_pos h.1, hturn]
    refine ⟨winds_idle rfl, ⟨h.1, Or.inr rfl⟩, ?_⟩
    rw [work, work, hphase]
    exact Nat.le_refl 1
  · have hchanged : shutdown.changed a.seen = true := by simpa [hphase] using h.2
    rw [hmove, hturn]
    refine ⟨winds_finishAttempt hphase, ⟨h.1, Or.inl ?_⟩, work_finishAttempt hphase⟩
    rwa [finishAttempt_seen]
  · have hchanged : shutdown.changed a.seen = true := by simpa [hphase] using h.2
    rw [hphase] at hlog
    have hattempt := hlog.1
    rw [hmove, hturn]
    refine ⟨⟨rfl, rfl, fun r hr => ?_, [], by simp, by simp⟩, ⟨h.1, Or.inl hchanged⟩, ?_⟩
    · rw [hphase]
      exact hr
    · rw [work, work, hphase]
      dsimp only [WebhookPhase.work]
      omega
  · rw [hmove]
    refine ⟨winds_idle rfl, ⟨h.1, Or.inr rfl⟩, ?_⟩
    have hpositive : 0 < a.work := Nat.pos_of_ne_zero (mt work_eq_zero_iff.mp hphase)
    exact Nat.le_trans hturn hpositive
  · rw [hmove, hturn, Nat.zero_add]
    exact ⟨.refl, h, Nat.le_refl _⟩

end WebhookActor

namespace Webhooks
variable {K : WebhookCrates} {capacity : Nat} {i : Nat}

/-- Whether a move is a turn of actor `i`. -/
def turnOf (i : Nat) (s : Webhooks) : WebhooksMove → Nat
  | .actor j mv => if j = i then (s.actors[i]?.map fun a => a.turn mv).getD 0 else 0
  | _ => 0

/-- No actor has seen a signal that was not sent. -/
theorem seen_step (s : Webhooks) (mv : WebhooksMove)
    (h : ∀ a ∈ s.actors, a.seen ≤ s.shutdown.version) :
    ∀ a ∈ (s.move K capacity mv).actors, a.seen ≤ (s.move K capacity mv).shutdown.version := by
  cases mv with
  | publish event =>
    rw [move]
    split_ifs <;> exact h
  | close => exact h
  | notify shutdown => exact fun a ha => Nat.le_succ_of_le (h a ha)
  | spawn config =>
    intro a ha
    rcases List.mem_append.mp ha with ha | ha
    · exact h a ha
    · rw [List.mem_singleton.mp ha]
      exact Nat.zero_le _
  | actor i mv =>
    refine Schedule.forall_mem_modify (fun a _ ha => ?_) h
    rcases a.move_seen K capacity s.channel s.shutdown mv with hnow | hsame
    · exact Nat.le_of_eq hnow
    · rw [hsame]
      exact ha

theorem seen_run (channel : Broadcast SubscriptionEvent) (moves : List WebhooksMove) :
    ∀ a ∈ (Schedule.run (move K capacity) (new channel) moves).actors,
      a.seen ≤ (Schedule.run (move K capacity) (new channel) moves).shutdown.version := by
  refine Schedule.run_keeps
    (I := fun s : Webhooks => ∀ a ∈ s.actors, a.seen ≤ s.shutdown.version) seen_step ?_
  simp [new]

/-- Once the signal is there, a move without another one winds actor `i` down. -/
theorem winds_step (capacity : Nat) {s : Webhooks} {a : WebhookActor} {mv : WebhooksMove}
    (ha : s.actors[i]? = some a) (haccounted : ∀ a ∈ s.actors, a.Accounted K s.channel)
    (hsignalled : a.Signalled s.shutdown) (hmv : ∀ b, mv ≠ .notify b) :
    ∃ a', (s.move K capacity mv).actors[i]? = some a' ∧ a.Winds a' ∧
      a'.Signalled (s.move K capacity mv).shutdown ∧ turnOf i s mv + a'.work ≤ a.work := by
  have hsame : turnOf i s mv = 0 → (s.move K capacity mv).actors[i]? = some a →
      (s.move K capacity mv).shutdown = s.shutdown →
      ∃ a', (s.move K capacity mv).actors[i]? = some a' ∧ a.Winds a' ∧
        a'.Signalled (s.move K capacity mv).shutdown ∧ turnOf i s mv + a'.work ≤ a.work := by
    intro hturn hactor hshutdown
    rw [hturn, hshutdown]
    exact ⟨a, hactor, .refl, hsignalled, Nat.le_of_eq (Nat.zero_add _)⟩
  cases mv with
  | publish event =>
    apply hsame rfl <;> rw [move] <;> split_ifs <;> first | exact ha | rfl
  | close => exact hsame rfl ha rfl
  | notify b => exact absurd rfl (hmv b)
  | spawn config =>
    refine hsame rfl ?_ rfl
    obtain ⟨hi, -⟩ := List.getElem?_eq_some_iff.mp ha
    rw [← ha]
    exact List.getElem?_append_left hi
  | actor j mv =>
    by_cases hj : j = i
    · subst hj
      obtain ⟨hwinds, hsig, hwork⟩ := WebhookActor.winds_move capacity mv
        (haccounted a (List.mem_of_getElem? ha)) hsignalled
      refine ⟨_, ?_, hwinds, hsig, ?_⟩
      · dsimp only [move]
        rw [List.getElem?_modify_eq, ha]
        rfl
      · rw [turnOf, if_pos rfl, ha]
        exact hwork
    · refine hsame (by rw [turnOf, if_neg hj]) ?_ rfl
      dsimp only [move]
      rw [List.getElem?_modify_ne _ _ hj]
      exact ha

theorem winds_run (capacity : Nat) (s : Webhooks) (moves : List WebhooksMove) {a : WebhookActor}
    (ha : s.actors[i]? = some a) (haccounted : ∀ a ∈ s.actors, a.Accounted K s.channel)
    (hsignalled : a.Signalled s.shutdown) (hmoves : ∀ b, .notify b ∉ moves) :
    ∃ a', (Schedule.run (move K capacity) s moves).actors[i]? = some a' ∧ a.Winds a' ∧
      Schedule.total (move K capacity) (turnOf i) s moves + a'.work ≤ a.work := by
  induction moves generalizing s a with
  | nil => exact ⟨a, ha, .refl, Nat.le_of_eq (Nat.zero_add _)⟩
  | cons mv moves ih =>
    have hmv : ∀ b, mv ≠ .notify b := fun b h => hmoves b (h ▸ List.mem_cons_self)
    obtain ⟨a', ha', hwinds, hsig, hwork⟩ := winds_step capacity ha haccounted hsignalled hmv
    obtain ⟨a'', ha'', hwinds', hwork'⟩ := ih _ ha' (accounted_step s mv haccounted) hsig
      fun b h => hmoves b (List.mem_cons_of_mem mv h)
    refine ⟨a'', ha'', hwinds.trans hwinds', ?_⟩
    rw [Schedule.total]
    omega

end Webhooks

/-- After the shutdown signal an actor takes up no further event: it posts at most the request it is
at, and has stopped after at most `2 * max_retries + 2` turns, whatever else is going on. -/
theorem webhook_stops (K : WebhookCrates) (capacity : Nat)
    (channel : Broadcast SubscriptionEvent) (before after : List WebhooksMove) (i : Nat)
    (a : WebhookActor)
    (ha : (Schedule.run (Webhooks.move K capacity) (.new channel) before).actors[i]? = some a)
    (hafter : ∀ b, .notify b ∉ after) :
    let s := (Schedule.run (Webhooks.move K capacity) (.new channel) before).move K capacity
      (.notify true)
    ∃ a', (Schedule.run (Webhooks.move K capacity) s after).actors[i]? = some a' ∧
      a'.next = a.next ∧
      (∃ deeds, a'.log = a.log ++ deeds ∧
        ∀ request result, .posted request result ∈ deeds → a.phase.request = some request) ∧
      (2 * a.config.maxRetries.toNat + 2 ≤
          Schedule.total (Webhooks.move K capacity) (Webhooks.turnOf i) s after →
        a'.phase = .stopped) := by
  intro s
  have hmem := List.mem_of_getElem? ha
  have hseen := Webhooks.seen_run channel before a hmem
  have hsignalled : a.Signalled s.shutdown := by
    refine ⟨rfl, Or.inl ?_⟩
    have hne : (Schedule.run (Webhooks.move K capacity) (.new channel) before).shutdown.version + 1
        ≠ a.seen := by omega
    exact bne_iff_ne.mpr hne
  obtain ⟨a', ha', hwinds, hwork⟩ := Webhooks.winds_run capacity s after ha
    (Webhooks.accounted_run channel before) hsignalled hafter
  refine ⟨a', ha', hwinds.next, hwinds.log, fun hturns => ?_⟩
  have hbound : a.work ≤ 2 * a.config.maxRetries.toNat + 2 := by
    unfold WebhookActor.work
    cases a.phase <;> dsimp only [WebhookPhase.work] <;> omega
  apply WebhookActor.work_eq_zero_iff.mp
  omega

/-- The signal comes during the first attempt: the retry is made, and the next event is not. -/
theorem retry_made_after_signal :
    let before := [.spawn Memory.webhook, .publish Memory.appPut, .publish Memory.appPut,
      .actor 0 .poll]
    let after := [.actor 0 (.reply (.error "timed out")), .actor 0 .wake,
      .actor 0 (.reply (.ok 200)), .actor 0 .poll]
    let s := (Schedule.run (Webhooks.move Memory.webhookCrates 16) (.new ⟨[], false⟩) before).move
      Memory.webhookCrates 16 (.notify true)
    ∃ a, (Schedule.run (Webhooks.move Memory.webhookCrates 16) s after).actors[0]? = some a ∧
      a.phase = .stopped ∧ a.next = 1 := by
  intro before after s
  obtain ⟨a, ha, hnext, -, hstopped⟩ := webhook_stops Memory.webhookCrates 16 ⟨[], false⟩ before
    after 0 _ rfl (by simp [after])
  exact ⟨a, ha, hstopped (by decide), hnext⟩

end Shroudb
