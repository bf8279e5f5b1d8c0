import Shroudb.Server.Lifecycle

/-! What the server still does once it is told to shut down. -/
namespace Shroudb
open Wire Effect

section
variable {C : Crates} {A : AclCrates C} {σ : Type} {B : Backend C σ} {version : Nat}

/-! ## Turns -/

def Deed.isEntered : Deed C → Bool
  | .entered .. => true
  | _ => false

/-- Once its calls are begun, the turn enters a subscription at most. -/
def EntersOnly (rest : TurnProgram C) : Prop :=
  rest.Ends fun r => ∀ deed ∈ r.2, deed.isEntered = true

theorem entersOnly_turn {authRequired : Bool} {m : Moment C} {conn : Connection C}
    {d : Dispatcher C σ} {input : Input} :
    EntersOnly (turn B authRequired m conn d input).rest := by
  unfold turn
  split
  · refine Admitted.rest_ends.mono fun r hr deed hdeed => ?_
    obtain ⟨ns, rfl, -⟩ := hr.entered deed hdeed
    rfl
  · intro deed hdeed
    cases hdeed

/-! ## Tasks -/

/-- What the task has taken on, of commands and of tokens to validate. -/
def Task.requests (t : Task C) : List (Deed C) := t.deeds.filter (!·.isEntered)

/-- Whether the task was joined, and whether it was aborted. -/
def Task.marks (t : Task C) : Bool × Bool := (t.joined, t.aborted)

/-- The calls that the task has still to make. -/
def Task.left (t : Task C) : CallProgram C Unit :=
  match t.phase with
  | .handling rest _ => rest.bind fun _ => .pure ()
  | _ => .pure ()

/-- Nothing of the task has seen a later signal than `version`. -/
def TaskPhase.UpTo (version : Nat) : TaskPhase C → Prop
  | .handshaking seen => seen ≤ version
  | .serving _ seen => seen ≤ version
  | .handling rest seen => seen ≤ version ∧ EntersOnly rest
  | .ended => True

/-- The task is joined only once it has ended. -/
structure Task.UpTo (version : Nat) (t : Task C) : Prop where
  phase : t.phase.UpTo version
  joined : t.joined = true → t.phase = .ended

/-- Receivers are at `version`, or the signal to shut down is the only one they have not seen. -/
def Signals (version : Nat) (shutdown : Watch Bool) : Prop :=
  shutdown.version = version ∨ shutdown = ⟨true, version + 1⟩

theorem TaskPhase.UpTo.mono {later : Nat} (hle : version ≤ later) {phase : TaskPhase C}
    (h : phase.UpTo version) : phase.UpTo later := by
  cases phase with
  | handshaking seen => exact Nat.le_trans h hle
  | serving conn seen => exact Nat.le_trans h hle
  | handling rest seen => exact ⟨Nat.le_trans h.1 hle, h.2⟩
  | ended => trivial

theorem Task.UpTo.mono {later : Nat} (hle : version ≤ later) {t : Task C} (h : t.UpTo version) :
    t.UpTo later :=
  ⟨h.phase.mono hle, h.joined⟩

/-- The task makes no call: it goes on with those it has, or ends. -/
structure Task.Idles (t t' : Task C) : Prop where
  left : t'.left = t.left ∨ t'.phase = .ended
  ended : t.phase = .ended → t'.phase = .ended
  requests : t'.requests = t.requests

section
variable {t : Task C}

theorem Task.Idles.refl (t : Task C) : t.Idles t := ⟨Or.inl rfl, id, rfl⟩

theorem upTo_spawn {authRequired handshakes : Bool} {rateLimit : Option UInt32} {seen : Nat}
    {instant : Instant} (h : seen ≤ version) :
    (Task.spawn authRequired handshakes rateLimit seen instant : Task C).UpTo version := by
  refine ⟨?_, fun hjoined => by cases hjoined⟩
  unfold Task.spawn
  dsimp only
  split_ifs
  · exact h
  · exact h

theorem upTo_handshake {authRequired ok : Bool} {instant : Instant} (h : t.UpTo version) :
    (t.handshake authRequired ok instant).UpTo version := by
  obtain ⟨rateLimit, phase, joined, aborted, deeds⟩ := t
  cases phase with
  | handshaking seen =>
    cases ok with
    | true => exact ⟨h.phase, fun hjoined => by cases h.joined hjoined⟩
    | false => exact ⟨trivial, fun _ => rfl⟩
  | _ => exact h

theorem idles_handshake {authRequired ok : Bool} {instant : Instant} :
    t.Idles (t.handshake authRequired ok instant) := by
  obtain ⟨rateLimit, phase, joined, aborted, deeds⟩ := t
  cases phase with
  | handshaking seen => cases ok <;> exact ⟨Or.inl rfl, fun h => (by cases h), rfl⟩
  | _ => exact ⟨Or.inl rfl, id, rfl⟩

theorem Task.handshake_marks {authRequired ok : Bool} {instant : Instant} :
    (t.handshake authRequired ok instant).marks = t.marks := by
  unfold Task.handshake
  split <;> rfl

theorem Task.handshake_phase_ne {authRequired ok : Bool} {instant : Instant} {seen : Nat} :
    (t.handshake authRequired ok instant).phase ≠ .handshaking seen := by
  obtain ⟨rateLimit, phase, joined, aborted, deeds⟩ := t
  cases phase with
  | handshaking _ => cases ok <;> exact fun h => by cases h
  | _ => exact fun h => by cases h

theorem upTo_ended (h : t.phase = .ended) : t.UpTo version :=
  ⟨h ▸ trivial, fun _ => h⟩

/-- What the signal to shut down leaves of a task when it comes to its `select!`. -/
def TaskPhase.hungUp : TaskPhase C → TaskPhase C
  | .serving .. => .ended
  | phase => phase

/-- With the signal to shut down ahead, a task that comes to its `select!` hangs up, whatever is
handed to it there. -/
theorem take_signalled {authRequired : Bool} {shared : Reloading A.toTokenCrate} {r : Readings}
    {input : Input} {d : Dispatcher C σ} (hshutdown : shared.shutdown = ⟨true, version + 1⟩)
    (h : t.UpTo version) :
    t.take B authRequired shared r input d = { t with phase := t.phase.hungUp } := by
  obtain ⟨rateLimit, phase, joined, aborted, deeds⟩ := t
  cases phase with
  | serving conn seen =>
    have hseen : seen ≤ version := h.phase
    have hchanged : shared.shutdown.changed seen = true := by
      rw [hshutdown]
      simp only [Watch.changed, bne_iff_ne]
      omega
    have hselect : Task.select shared.shutdown seen input = some (.notified true) := by
      unfold Task.select
      rw [if_pos hchanged, hshutdown]
    simp only [Task.take, hselect, TaskPhase.hungUp]
  | _ => rfl

theorem upTo_hungUp (h : t.UpTo version) :
    ({ t with phase := t.phase.hungUp } : Task C).UpTo version := by
  obtain ⟨rateLimit, phase, joined, aborted, deeds⟩ := t
  cases phase with
  | serving conn seen => exact upTo_ended rfl
  | _ => exact h

theorem idles_hungUp : t.Idles { t with phase := t.phase.hungUp } := by
  obtain ⟨rateLimit, phase, joined, aborted, deeds⟩ := t
  cases phase with
  | serving conn seen => exact ⟨Or.inl rfl, fun h => (by cases h), rfl⟩
  | _ => exact ⟨Or.inl rfl, id, rfl⟩

theorem upTo_take {authRequired : Bool} {shared : Reloading A.toTokenCrate} {r : Readings}
    {input : Input} {d : Dispatcher C σ} (hsignals : Signals version shared.shutdown)
    (h : t.UpTo version) : (t.take B authRequired shared r input d).UpTo version := by
  rcases hsignals with hversion | hshutdown
  · unfold Task.take
    split
    case h_2 => exact h
    case h_1 conn seen hphase =>
      have hjoined : t.joined ≠ true := fun hjoined => by cases hphase.symm.trans (h.joined hjoined)
      have hseen := h.phase
      rw [hphase] at hseen
      split
      · exact h
      · exact upTo_ended rfl
      · exact ⟨hversion.le, fun hj => absurd hj hjoined⟩
      · exact ⟨⟨hseen, entersOnly_turn⟩, fun hj => absurd hj hjoined⟩
  · rw [take_signalled hshutdown h]
    exact upTo_hungUp h

theorem Task.take_marks {authRequired : Bool} {shared : Reloading A.toTokenCrate} {r : Readings}
    {input : Input} {d : Dispatcher C σ} :
    (t.take B authRequired shared r input d).marks = t.marks := by
  unfold Task.take
  split
  · split <;> rfl
  · rfl

theorem Task.resume_marks {d : Dispatcher C σ} : (t.resume B d).1.marks = t.marks := by
  rcases t.resume_cases B d with ⟨_, _, _, -, h⟩ | ⟨_, _, _, -, h⟩ | ⟨-, h⟩ <;> rw [h] <;> rfl

theorem upTo_resume {d : Dispatcher C σ} (h : t.UpTo version) : (t.resume B d).1.UpTo version := by
  have hphase := h.phase
  rcases t.resume_cases B d with ⟨op, next, seen, hrest, hresume⟩ |
    ⟨conn, deeds, seen, hrest, hresume⟩ | ⟨-, hresume⟩
  · rw [hrest] at hphase
    rw [hresume]
    exact ⟨⟨hphase.1, hphase.2 _⟩, fun hjoined => by cases hrest.symm.trans (h.joined hjoined)⟩
  · rw [hrest] at hphase
    rw [hresume]
    refine ⟨?_, fun hjoined => by cases hrest.symm.trans (h.joined hjoined)⟩
    dsimp only
    split_ifs
    · trivial
    · exact hphase.1
  · rw [hresume]
    exact h

theorem resume_requests {d : Dispatcher C σ} (h : t.UpTo version) :
    (t.resume B d).1.requests = t.requests := by
  rcases t.resume_cases B d with ⟨_, _, _, -, hresume⟩ | ⟨conn, deeds, seen, hrest, hresume⟩ |
    ⟨-, hresume⟩
  · rw [hresume]
    rfl
  · have hlate := h.phase
    rw [hrest] at hlate
    have hnone : deeds.filter (!·.isEntered) = [] := by
      rw [List.filter_eq_nil_iff]
      intro deed hdeed
      simp [hlate.2 deed hdeed]
    rw [hresume, Task.requests, List.filter_append, hnone, List.append_nil]
    rfl
  · rw [hresume]

theorem upTo_cancel (h : t.UpTo version) : t.cancel.UpTo version := by
  unfold Task.cancel
  split_ifs
  · exact upTo_ended rfl
  · exact h

theorem idles_cancel : t.Idles t.cancel := by
  unfold Task.cancel
  split_ifs
  · exact ⟨Or.inr rfl, fun _ => rfl, rfl⟩
  · exact .refl t

theorem Task.cancel_marks : t.cancel.marks = t.marks := by
  unfold Task.cancel
  split_ifs <;> rfl

theorem Task.isEnded_iff : t.isEnded = true ↔ t.phase = .ended := by
  obtain ⟨rateLimit, phase, joined, aborted, deeds⟩ := t
  cases phase <;> simp [Task.isEnded]

theorem upTo_join (h : t.UpTo version) : t.join.UpTo version := by
  unfold Task.join
  split_ifs with hended
  · exact upTo_ended (Task.isEnded_iff.mp hended)
  · exact h

theorem idles_join : t.Idles t.join := by
  unfold Task.join
  split_ifs <;> exact ⟨Or.inl rfl, id, rfl⟩

theorem idles_abort : t.Idles t.abort := ⟨Or.inl rfl, id, rfl⟩

theorem Task.join_aborted : t.join.aborted = t.aborted := by
  unfold Task.join
  split_ifs <;> rfl

theorem Task.join_joined (h : t.phase = .ended) : t.join.joined = true := by
  unfold Task.join
  rw [if_pos (Task.isEnded_iff.mpr h)]

end

end

namespace Server
variable {C : Crates} {A : AclCrates C} {σ : Type} {B : Backend C σ} {version : Nat}

/-! ## Up to the signal -/

/-- A drain goes on for a task that is not joined, and for thirty seconds at most. Tasks are aborted
when the server returns, and then each of them is joined or aborted. -/
def Counted (now : Instant) (marks : List (Bool × Bool)) : ServerPhase → Prop
  | .accepting => ∀ m ∈ marks, m.2 = false
  | .draining deadline =>
    (∀ m ∈ marks, m.2 = false) ∧ (∃ m ∈ marks, m.1 = false) ∧ deadline ≤ now + 30 * 10 ^ 9
  | .returned => ∀ m ∈ marks, m.1 = true ∨ m.2 = true

theorem Counted.later {now : Instant} {marks : List (Bool × Bool)} {phase : ServerPhase}
    (h : Counted now marks phase) (time : Nat) : Counted (now + time) marks phase := by
  cases phase with
  | draining deadline =>
    refine ⟨h.1, h.2.1, h.2.2.trans ?_⟩
    exact Nat.add_le_add_right (Nat.le_add_right now time) _
  | accepting => exact h
  | returned => exact h

/-- Nothing of the server has seen a later signal than `version`, except that it may drain for
one. -/
structure UpTo (version : Nat) (s : Server A σ) : Prop where
  accepting : s.phase = .accepting → s.seen ≤ version
  tasks : ∀ t ∈ s.tasks, t.UpTo version
  counted : Counted s.now (s.tasks.map Task.marks) s.phase

theorem UpTo.mono {later : Nat} (hle : version ≤ later) {s : Server A σ} (h : s.UpTo version) :
    s.UpTo later :=
  ⟨fun hs => (h.accepting hs).trans hle, fun t ht => (h.tasks t ht).mono hle, h.counted⟩

theorem UpTo.returned {s : Server A σ} (h : s.UpTo version) (hphase : s.phase = .returned) :
    ∀ t ∈ s.tasks, t.joined = true ∨ t.aborted = true := by
  intro t ht
  have hcounted := h.counted
  rw [hphase] at hcounted
  exact hcounted t.marks (List.mem_map_of_mem ht)

/-- A drain that is settled. -/
theorem upTo_settle {s : Server A σ} {deadline : Instant} (hphase : s.phase = .draining deadline)
    (hdeadline : deadline ≤ s.now + 30 * 10 ^ 9) (htasks : ∀ t ∈ s.tasks, t.UpTo version)
    (hrunning : ∀ m ∈ s.tasks.map Task.marks, m.2 = false) : s.settle.UpTo version := by
  rcases s.settle_cases with ⟨hleft, hsettle⟩ | ⟨hnone, hsettle⟩
  · rw [hsettle]
    refine ⟨fun hs => ?_, htasks, ?_⟩
    · cases hphase.symm.trans hs
    · obtain ⟨t, ht, hjoined⟩ := List.mem_map.mp hleft
      rw [hphase]
      exact ⟨hrunning, ⟨t.marks, List.mem_map_of_mem ht, hjoined⟩, hdeadline⟩
  · rw [hsettle]
    refine ⟨fun hs => (by cases hs), htasks, fun m hm => Or.inl ?_⟩
    obtain ⟨t, ht, rfl⟩ := List.mem_map.mp hm
    by_contra hjoined
    exact hnone (List.mem_map.mpr ⟨t, ht, Bool.eq_false_iff.mpr hjoined⟩)

theorem upTo_observe {s : Server A σ} (hsignals : Signals version s.reloading.shutdown)
    (hphase : s.phase = .accepting) (h : s.UpTo version) : s.observe.UpTo version := by
  have hrunning := h.counted
  rw [hphase] at hrunning
  unfold observe
  split_ifs with hvalue
  · exact upTo_settle rfl le_rfl h.tasks hrunning
  · rcases hsignals with hversion | hshutdown
    · exact ⟨fun _ => hversion.le, h.tasks, h.counted⟩
    · rw [hshutdown] at hvalue
      exact absurd rfl hvalue

/-- One of the tasks does something, and is neither joined nor aborted by it. -/
theorem UpTo.modify {s : Server A σ} {i : Nat} {f : Task C → Task C} (h : s.UpTo version)
    (hf : ∀ t : Task C, t.UpTo version → (f t).UpTo version)
    (hmarks : ∀ t, (f t).marks = t.marks) :
    UpTo version { s with tasks := s.tasks.modify i f } := by
  refine ⟨h.accepting, Schedule.forall_mem_modify (fun t _ => hf t) h.tasks, ?_⟩
  dsimp only
  rw [Schedule.map_modify_of_eq hmarks]
  exact h.counted

theorem upTo_step (s : Server A σ) (mv : ServerMove)
    (hsignals : Signals version s.reloading.shutdown) (h : s.UpTo version) :
    (s.move B mv).UpTo version := by
  have hcounted := h.counted
  rcases s.move_cases B mv with ⟨rm, -, hmove⟩ | ⟨hphase, hmove⟩ |
    ⟨hphase, -, handshakes, instant, hmove⟩ | ⟨i, ok, instant, hmove⟩ |
    ⟨i, r, input, hmove⟩ | ⟨i, t, ht, hmove⟩ | ⟨i, hmove⟩ | ⟨i, deadline, hphase, hmove⟩ |
    ⟨time, hmove⟩ | ⟨deadline, hphase, hmove⟩ | hmove
  · rw [hmove]
    exact ⟨h.accepting, h.tasks, h.counted⟩
  · rw [hmove]
    exact upTo_observe hsignals hphase h
  · rw [hphase] at hcounted
    rw [hmove]
    refine ⟨h.accepting, fun t ht => ?_, ?_⟩
    · rcases List.mem_append.mp ht with ht | ht
      · exact h.tasks t ht
      · rw [List.mem_singleton.mp ht]
        exact upTo_spawn (h.accepting hphase)
    · dsimp only
      rw [hphase, List.map_append]
      intro m hm
      rcases List.mem_append.mp hm with hm | hm
      · exact hcounted m hm
      · rw [List.mem_singleton.mp hm]
        rfl
  · rw [hmove]
    exact h.modify (fun _ => upTo_handshake) fun _ => Task.handshake_marks
  · rw [hmove]
    exact h.modify (fun _ => upTo_take hsignals) fun _ => Task.take_marks
  · rw [hmove]
    refine ⟨h.accepting, fun t' ht' => ?_, ?_⟩
    · rcases List.mem_or_eq_of_mem_set ht' with ht' | rfl
      · exact h.tasks t' ht'
      · exact upTo_resume (h.tasks t (List.mem_of_getElem? ht))
    · dsimp only
      rw [Schedule.map_set_of_eq ht Task.resume_marks]
      exact hcounted
  · rw [hmove]
    exact h.modify (fun _ => upTo_cancel) fun _ => Task.cancel_marks
  · rw [hphase] at hcounted
    rw [hmove]
    refine upTo_settle hphase hcounted.2.2
      (Schedule.forall_mem_modify (fun t _ => upTo_join) h.tasks) fun m hm => ?_
    obtain ⟨t, ht, rfl⟩ := List.mem_map.mp hm
    exact Schedule.forall_mem_modify (I := fun t : Task C => t.aborted = false)
      (fun t _ hrunning => Task.join_aborted.trans hrunning)
      (fun t ht => hcounted.1 t.marks (List.mem_map_of_mem ht)) t ht
  · rw [hmove]
    exact ⟨h.accepting, h.tasks, hcounted.later time⟩
  · rw [hmove]
    refine ⟨fun hs => (by cases hs), fun t ht => ?_, fun m hm => Or.inr ?_⟩
    · obtain ⟨t, hmem, rfl⟩ := List.mem_map.mp ht
      exact ⟨(h.tasks t hmem).phase, (h.tasks t hmem).joined⟩
    · rw [List.map_map] at hm
      obtain ⟨t, ht, rfl⟩ := List.mem_map.mp hm
      rfl
  · rw [hmove]
    exact h

/-! ## After the signal -/

/-- The signal to shut down was given and nobody who listens for it has missed it. -/
structure Signalled (version : Nat) (s : Server A σ) : Prop where
  shutdown : s.reloading.shutdown = ⟨true, version + 1⟩
  upTo : s.UpTo version

theorem settle_reloading {s : Server A σ} : s.settle.reloading = s.reloading := by
  unfold settle
  split_ifs <;> rfl

theorem settle_tasks {s : Server A σ} : s.settle.tasks = s.tasks := by
  unfold settle
  split_ifs <;> rfl

theorem settle_dispatcher {s : Server A σ} : s.settle.dispatcher = s.dispatcher := by
  unfold settle
  split_ifs <;> rfl

theorem observe_reloading {s : Server A σ} : s.observe.reloading = s.reloading := by
  unfold observe
  split_ifs
  · exact settle_reloading
  · rfl

theorem observe_tasks {s : Server A σ} : s.observe.tasks = s.tasks := by
  unfold observe
  split_ifs
  · exact settle_tasks
  · rfl

theorem observe_dispatcher {s : Server A σ} : s.observe.dispatcher = s.dispatcher := by
  unfold observe
  split_ifs
  · exact settle_dispatcher
  · rfl

/-- No further signal. -/
def Quiet (_ : Server A σ) (mv : ServerMove) : Prop := ∀ b, mv ≠ .reload (.notify b)

theorem move_shutdown {s : Server A σ} {mv : ServerMove} (hquiet : Quiet s mv) :
    (s.move B mv).reloading.shutdown = s.reloading.shutdown := by
  rcases s.move_cases B mv with ⟨rm, rfl, hmove⟩ | ⟨-, hmove⟩ | ⟨-, -, _, _, hmove⟩ |
    ⟨_, _, _, hmove⟩ | ⟨_, _, _, hmove⟩ | ⟨_, _, -, hmove⟩ | ⟨_, hmove⟩ | ⟨_, _, -, hmove⟩ |
    ⟨_, hmove⟩ | ⟨_, -, hmove⟩ | hmove
  case inl =>
    rw [hmove]
    exact Reloading.move_shutdown fun b hrm => hquiet b (by rw [hrm])
  case inr.inl => rw [hmove, observe_reloading]
  case inr.inr.inr.inr.inr.inr.inr.inl => rw [hmove, settle_reloading]
  all_goals rw [hmove]

theorem signalled_step (s : Server A σ) (mv : ServerMove) (hquiet : Quiet s mv)
    (h : s.Signalled version) : (s.move B mv).Signalled version :=
  ⟨(move_shutdown hquiet).trans h.shutdown, upTo_step s mv (Or.inr h.shutdown) h.upTo⟩

/-- The calls that are left of the turns the tasks are in. -/
def inFlight (s : Server A σ) :
    Threads Nat (CallOp.Answer (C := C)) Unit (Dispatcher C σ) :=
  ⟨s.dispatcher, fun i => (s.tasks[i]?).elim (.pure ()) Task.left⟩

/-- The server is where the turns in flight have led it. A task that was dropped leaves calls
undone. -/
structure Winds (turns : Threads Nat (CallOp.Answer (C := C)) Unit (Dispatcher C σ))
    (s : Server A σ) : Prop where
  dispatcher : s.dispatcher = turns.env
  tasks : ∀ i t, s.tasks[i]? = some t → t.left = turns.program i ∨ t.phase = .ended

theorem winds_inFlight (s : Server A σ) : s.Winds s.inFlight := by
  refine ⟨rfl, fun i t ht => Or.inl ?_⟩
  simp only [inFlight, ht, Option.elim]

/-- No connection is taken up and no request, and the dispatcher is changed only by calls of the
turns that were in flight. -/
structure Kept (B : Backend C σ) (s s' : Server A σ) : Prop where
  requests : s'.tasks.map Task.requests = s.tasks.map Task.requests
  winds : ∀ turns, s.Winds turns → ∃ schedule, s'.Winds (turns.run (CallOp.answer B) schedule)

theorem Kept.refl (s : Server A σ) : Kept B s s := ⟨rfl, fun _ h => ⟨[], h⟩⟩

theorem Kept.trans {s s' s'' : Server A σ} (h : Kept B s s') (h' : Kept B s' s'') :
    Kept B s s'' := by
  refine ⟨h'.requests.trans h.requests, fun turns hturns => ?_⟩
  obtain ⟨first, hfirst⟩ := h.winds turns hturns
  obtain ⟨rest, hrest⟩ := h'.winds _ hfirst
  refine ⟨first ++ rest, ?_⟩
  rw [Threads.run, Schedule.run_append]
  exact hrest

/-- Tasks that make no call. -/
theorem kept_of_idles {s s' : Server A σ} (hdispatcher : s'.dispatcher = s.dispatcher)
    (hlength : s'.tasks.length = s.tasks.length)
    (htasks : ∀ (i : Nat) (t t' : Task C), s.tasks[i]? = some t → s'.tasks[i]? = some t' →
      t.Idles t') : Kept B s s' := by
  have hbefore : ∀ (i : Nat) (t' : Task C), s'.tasks[i]? = some t' →
      ∃ t, s.tasks[i]? = some t ∧ Task.Idles t t' := by
    intro i t' ht'
    have hi : i < s.tasks.length := hlength ▸ (List.getElem?_eq_some_iff.mp ht').1
    exact ⟨_, List.getElem?_eq_getElem hi, htasks i _ t' (List.getElem?_eq_getElem hi) ht'⟩
  constructor
  · refine List.ext_getElem (by simpa using hlength) fun i hi hi' => ?_
    rw [List.length_map] at hi hi'
    simpa using (htasks i _ _ (List.getElem?_eq_getElem hi') (List.getElem?_eq_getElem hi)).requests
  · refine fun turns h => ⟨[], hdispatcher.trans h.dispatcher, fun i t' ht' => ?_⟩
    obtain ⟨t, ht, hidles⟩ := hbefore i t' ht'
    rcases h.tasks i t ht with hleft | hended
    · exact hidles.left.imp_left fun hsame => hsame.trans hleft
    · exact Or.inr (hidles.ended hended)

theorem kept_modify {s : Server A σ} {i : Nat} {f : Task C → Task C}
    (hf : ∀ t ∈ s.tasks, t.Idles (f t)) : Kept B s { s with tasks := s.tasks.modify i f } := by
  refine kept_of_idles rfl (List.length_modify ..) fun j t t' ht ht' => ?_
  dsimp only at ht'
  rw [List.getElem?_modify, ht] at ht'
  split_ifs at ht' with hij
  · cases ht'
    exact hf t (List.mem_of_getElem? ht)
  · cases ht'
    exact .refl t

theorem kept_set {s : Server A σ} {i : Nat} {t t' : Task C} (ht : s.tasks[i]? = some t)
    (hidles : t.Idles t') : Kept B s { s with tasks := s.tasks.set i t' } := by
  refine kept_of_idles rfl (List.length_set ..) fun j u u' hu hu' => ?_
  dsimp only at hu'
  rw [List.getElem?_set] at hu'
  split_ifs at hu' with hij
  · cases hu'
    cases hij
    cases ht.symm.trans hu
    exact hidles
  · cases hu.symm.trans hu'
    exact .refl u

theorem kept_of_eq {s s' : Server A σ} (hdispatcher : s'.dispatcher = s.dispatcher)
    (htasks : s'.tasks = s.tasks) : Kept B s s' := by
  refine kept_of_idles hdispatcher (congrArg List.length htasks) fun i t t' ht ht' => ?_
  rw [htasks, ht] at ht'
  cases ht'
  exact .refl t

/-- A call is a turn of its thread. -/
theorem winds_ask {turns : Threads Nat (CallOp.Answer (C := C)) Unit (Dispatcher C σ)}
    {s : Server A σ} {i seen : Nat} {t : Task C} {op : CallOp C}
    {next : op.Answer → TurnProgram C} (ht : s.tasks[i]? = some t)
    (hphase : t.phase = .handling (.ask op next) seen) (h : s.Winds turns) :
    Winds (turns.step (CallOp.answer B) i) { s with
      tasks := s.tasks.set i
        { t with phase := .handling (next (CallOp.answer B op s.dispatcher).1) seen },
      dispatcher := (CallOp.answer B op s.dispatcher).2 } := by
  have hleft : t.left = .ask op fun a => (next a).bind fun _ => .pure () := by
    rw [Task.left, hphase]
    rfl
  have hprogram : turns.program i = .ask op fun a => (next a).bind fun _ => .pure () := by
    rcases h.tasks i t ht with hsame | hended
    · rw [← hsame, hleft]
    · cases hphase.symm.trans hended
  refine ⟨?_, fun j u hu => ?_⟩
  · rw [Threads.step_ask_env hprogram, h.dispatcher]
  · dsimp only at hu
    rw [List.getElem?_set] at hu
    split_ifs at hu with hij
    · cases hu
      cases hij
      rw [Threads.step_ask_program hprogram, ← h.dispatcher]
      exact Or.inl rfl
    · rw [Threads.step_other (Ne.symm hij)]
      exact h.tasks j u hu

theorem kept_resume {s : Server A σ} {i : Nat} {t : Task C} (ht : s.tasks[i]? = some t)
    (h : t.UpTo version) :
    Kept B s { s with
      tasks := s.tasks.set i (t.resume B s.dispatcher).1,
      dispatcher := (t.resume B s.dispatcher).2 } := by
  have hrequests : (t.resume B s.dispatcher).1.requests = t.requests := resume_requests h
  rcases t.resume_cases B s.dispatcher with ⟨op, next, seen, hrest, hresume⟩ |
    ⟨conn, deeds, seen, hrest, hresume⟩ | ⟨-, hresume⟩
  · refine ⟨Schedule.map_set_of_eq ht hrequests, fun turns hturns => ⟨[i], ?_⟩⟩
    rw [hresume]
    exact winds_ask ht hrest hturns
  · rw [hresume] at hrequests ⊢
    refine kept_set ht ⟨Or.inl ?_, fun hended => ?_, hrequests⟩
    · rw [Task.left, Task.left, hrest]
      dsimp only
      split_ifs <;> rfl
    · cases hrest.symm.trans hended
  · rw [hresume]
    exact kept_set ht (.refl t)

theorem kept_step {s : Server A σ} {mv : ServerMove} (h : s.Signalled version) :
    Kept B s (s.move B mv) := by
  rcases s.move_cases B mv with ⟨rm, -, hmove⟩ | ⟨hphase, hmove⟩ |
    ⟨hphase, hchanged, _, _, -⟩ | ⟨i, ok, instant, hmove⟩ | ⟨i, r, input, hmove⟩ |
    ⟨i, t, ht, hmove⟩ | ⟨i, hmove⟩ | ⟨i, deadline, hphase, hmove⟩ | ⟨time, hmove⟩ |
    ⟨deadline, -, hmove⟩ | hmove
  · rw [hmove]
    exact kept_of_eq rfl rfl
  · rw [hmove]
    exact kept_of_eq observe_dispatcher observe_tasks
  · -- the accept loop would have seen the signal
    have hseen := h.upTo.accepting hphase
    rw [h.shutdown] at hchanged
    simp only [Watch.changed, bne_eq_false_iff_eq] at hchanged
    omega
  · rw [hmove]
    exact kept_modify fun t _ => idles_handshake
  · rw [hmove]
    refine kept_modify fun t ht => ?_
    rw [take_signalled h.shutdown (h.upTo.tasks t ht)]
    exact idles_hungUp
  · rw [hmove]
    exact kept_resume ht (h.upTo.tasks t (List.mem_of_getElem? ht))
  · rw [hmove]
    exact kept_modify fun t _ => idles_cancel
  · rw [hmove]
    have hjoin : Kept B s { s with tasks := s.tasks.modify i Task.join } :=
      kept_modify fun t _ => idles_join
    exact hjoin.trans (kept_of_eq settle_dispatcher settle_tasks)
  · rw [hmove]
    exact kept_of_eq rfl rfl
  · rw [hmove]
    refine kept_of_idles rfl (List.length_map ..) fun i t t' ht ht' => ?_
    dsimp only at ht'
    rw [List.getElem?_map, ht] at ht'
    cases ht'
    exact idles_abort
  · rw [hmove]
    exact .refl s

theorem kept_run {s : Server A σ} {moves : List ServerMove}
    (hquiet : ∀ b, .reload (.notify b) ∉ moves) (h : s.Signalled version) :
    Kept B s (Schedule.run (Server.move B) s moves) ∧
      (Schedule.run (Server.move B) s moves).Signalled version := by
  have hguarded : Schedule.Guarded (Server.move B) Quiet s moves := by
    apply Schedule.guarded_of_forall
    intro mv hmv t b hb
    exact hquiet b (hb ▸ hmv)
  refine Schedule.run_invariant (I := fun t => Kept B s t ∧ t.Signalled version) ?_ hguarded
    ⟨.refl s, h⟩
  intro t mv hmv ⟨hkept, ht⟩
  exact ⟨hkept.trans (kept_step ht), signalled_step t mv hmv ht⟩

/-! ## The end of the drain -/

theorem settle_not_accepting {s : Server A σ} (h : s.phase ≠ .accepting) :
    s.settle.phase ≠ .accepting := by
  rcases s.settle_cases with ⟨-, hsettle⟩ | ⟨-, hsettle⟩
  · rw [hsettle]
    exact h
  · rw [hsettle]
    exact ServerPhase.noConfusion

theorem not_accepting_step {s : Server A σ} {mv : ServerMove} (h : s.phase ≠ .accepting) :
    (s.move B mv).phase ≠ .accepting := by
  rcases s.move_cases B mv with ⟨rm, rfl, hmove⟩ | ⟨hphase, -⟩ | ⟨hphase, -⟩ |
    ⟨_, _, _, hmove⟩ | ⟨_, _, _, hmove⟩ | ⟨_, _, -, hmove⟩ | ⟨_, hmove⟩ | ⟨i, _, -, hmove⟩ |
    ⟨_, hmove⟩ | ⟨_, -, hmove⟩ | hmove
  case inr.inl => exact absurd hphase h
  case inr.inr.inl => exact absurd hphase h
  case inr.inr.inr.inr.inr.inr.inr.inl =>
    rw [hmove]
    exact settle_not_accepting h
  case inr.inr.inr.inr.inr.inr.inr.inr.inr.inl =>
    rw [hmove]
    exact ServerPhase.noConfusion
  all_goals
    rw [hmove]
    exact h

/-- The server does not accept any more, as it was told to shut down. -/
structure Closing (version : Nat) (s : Server A σ) : Prop extends s.Signalled version where
  phase : s.phase ≠ .accepting

/-- The accept loop sees the signal at its next turn. -/
theorem closing_poll {s : Server A σ} (h : s.Signalled version) :
    (s.move B .poll).Closing version := by
  refine ⟨signalled_step s .poll (fun b => ServerMove.noConfusion) h, ?_⟩
  cases hphase : s.phase with
  | draining deadline => exact not_accepting_step (by simp [hphase])
  | returned => exact not_accepting_step (by simp [hphase])
  | accepting =>
    have hseen := h.upTo.accepting hphase
    have hchanged : s.reloading.shutdown.changed s.seen = true := by
      rw [h.shutdown]
      simp only [Watch.changed, bne_iff_ne]
      omega
    rw [move, hphase]
    dsimp only
    rw [if_pos hchanged, observe, if_pos (by rw [h.shutdown])]
    exact settle_not_accepting ServerPhase.noConfusion

theorem closing_step {s : Server A σ} {mv : ServerMove} (hquiet : Quiet s mv)
    (h : s.Closing version) : (s.move B mv).Closing version :=
  ⟨signalled_step s mv hquiet h.toSignalled, not_accepting_step h.phase⟩

/-- A quiet move of a server that was told to shut down takes up no task. -/
theorem length_step {s : Server A σ} {mv : ServerMove} (h : s.Closing version) :
    (s.move B mv).tasks.length = s.tasks.length := by
  have hkept : Kept B s (s.move B mv) := kept_step h.toSignalled
  simpa using congrArg List.length hkept.requests

/-- A turn of the accept loop; then every handshake comes to its end, the turns that are in flight
are finished, every connection comes to its `select!`, and every task is joined. -/
def windUp (ok : Nat → Bool) (r : Nat → Readings) (input : Nat → Input) (resumes : List Nat)
    (n : Nat) : List ServerMove :=
  .poll :: ((List.range n).map (fun i => .handshake i (ok i) (r i).instant) ++
    (resumes.map .resume ++
      ((List.range n).map (fun i => .take i (r i) (input i)) ++ (List.range n).map .join)))

theorem run_handshakes {s : Server A σ} (ok : Nat → Bool) (r : Nat → Readings)
    (h : s.Closing version) :
    let t := Schedule.run (Server.move B) s
      ((List.range s.tasks.length).map fun i => .handshake i (ok i) (r i).instant)
    t.Closing version ∧ t.tasks.length = s.tasks.length ∧
      ∀ task ∈ t.tasks, ∀ seen, task.phase ≠ .handshaking seen := by
  refine Schedule.run_range_all Server.tasks (fun _ => True) _ (fun _ _ => trivial)
    (fun s i => closing_step fun b => ServerMove.noConfusion) (fun s i => length_step) ?_ h
    (fun _ _ => trivial)
  intro s i hs _ j task htask
  rw [move, List.getElem?_modify] at htask
  split_ifs at htask with hij
  · obtain ⟨before, -, rfl⟩ := Option.map_eq_some_iff.mp htask
    exact Or.inl fun seen => Task.handshake_phase_ne
  · exact Or.inr ⟨Ne.symm hij, by simpa using htask⟩

theorem move_resume {s : Server A σ} {i : Nat} {t : Task C} (ht : s.tasks[i]? = some t) :
    s.move B (.resume i) = { s with
      tasks := s.tasks.set i (t.resume B s.dispatcher).1,
      dispatcher := (t.resume B s.dispatcher).2 } := by
  rw [move, resume, ht]

/-- A turn in flight makes finitely many calls. -/
theorem run_resume (rest : TurnProgram C) {s : Server A σ} {i seen : Nat} {t : Task C}
    (ht : s.tasks[i]? = some t) (hphase : t.phase = .handling rest seen) :
    ∃ n t', (Schedule.run (fun s i => s.move B (.resume i)) s (List.replicate n i)).tasks =
        s.tasks.set i t' ∧ (t'.phase = .ended ∨ ∃ conn, t'.phase = .serving conn seen) := by
  induction rest generalizing s t with
  | pure result =>
    refine ⟨1, (t.resume B s.dispatcher).1, congrArg Server.tasks (move_resume ht), ?_⟩
    rw [Task.resume, hphase]
    dsimp only
    split_ifs
    · exact Or.inl rfl
    · exact Or.inr ⟨_, rfl⟩
  | ask op next ih =>
    have hresume : t.resume B s.dispatcher =
        ({ t with phase := .handling (next (CallOp.answer B op s.dispatcher).1) seen },
          (CallOp.answer B op s.dispatcher).2) := by
      rw [Task.resume, hphase]
    have hmove := move_resume (B := B) ht
    rw [hresume] at hmove
    have hi := (List.getElem?_eq_some_iff.mp ht).1
    obtain ⟨n, t', htasks, ht'⟩ := ih (CallOp.answer B op s.dispatcher).1
      (s := s.move B (.resume i)) (by rw [hmove]; exact List.getElem?_set_self hi) rfl
    refine ⟨n + 1, t', ?_, ht'⟩
    rw [List.replicate_succ]
    refine htasks.trans ?_
    rw [hmove]
    exact List.set_set ..

/-- No task is in its handshake. -/
structure Shaken (version n : Nat) (s : Server A σ) : Prop extends s.Closing version where
  length : s.tasks.length = n
  shaken : ∀ task ∈ s.tasks, ∀ seen, task.phase ≠ .handshaking seen

def inTurn (t : Task C) : Bool :=
  match t.phase with
  | .handling .. => true
  | _ => false

/-- One of the tasks that are in a turn finishes it. -/
theorem exists_turn_finished {n : Nat} {s : Server A σ} (h : s.Shaken version n) {task : Task C}
    (htask : task ∈ s.tasks) (hturn : inTurn task = true) :
    ∃ moves, let t := Schedule.run (fun s i => s.move B (.resume i)) s moves
      t.Shaken version n ∧ t.tasks.countP inTurn < s.tasks.countP inTurn := by
  obtain ⟨i, hi⟩ := List.getElem?_of_mem htask
  obtain ⟨rest, seen, hphase⟩ : ∃ rest seen, task.phase = .handling rest seen := by
    unfold inTurn at hturn
    split at hturn
    · exact ⟨_, _, by assumption⟩
    · cases hturn
  obtain ⟨k, t', htasks, ht'⟩ := run_resume (B := B) rest hi hphase
  have hclosing : (Schedule.run (fun s i => s.move B (.resume i)) s
      (List.replicate k i)).Closing version :=
    Schedule.run_keeps (fun s i hs => closing_step (fun b => ServerMove.noConfusion) hs)
      h.toClosing
  refine ⟨List.replicate k i, ⟨hclosing, ?_, fun u hu => ?_⟩, ?_⟩
  · rw [htasks, List.length_set]
    exact h.length
  · rw [htasks] at hu
    rcases List.mem_or_eq_of_mem_set hu with hu | rfl
    · exact h.shaken u hu
    · rcases ht' with ht' | ⟨conn, ht'⟩ <;> simp [ht']
  · obtain ⟨hlt, hget⟩ := List.getElem?_eq_some_iff.mp hi
    have hdone : inTurn t' = false := by
      rcases ht' with ht' | ⟨conn, ht'⟩ <;> simp [inTurn, ht']
    have hpos : 0 < s.tasks.countP inTurn := List.countP_pos_iff.mpr ⟨task, htask, hturn⟩
    rw [htasks, List.countP_set hlt, hget, if_pos hturn, hdone, if_neg Bool.false_ne_true]
    omega

/-- Task after task finishes its turn. -/
theorem exists_resumes {n : Nat} {s : Server A σ} (h : s.Shaken version n) :
    ∃ resumes : List Nat,
      let t := Schedule.run (Server.move B) s (resumes.map .resume)
      t.Shaken version n ∧ ∀ task ∈ t.tasks, inTurn task = false := by
  suffices hmoves : ∃ moves : List Nat,
      (Schedule.run (fun s i => s.move B (.resume i)) s moves).Shaken version n ∧
        ∀ task ∈ (Schedule.run (fun s i => s.move B (.resume i)) s moves).tasks,
          inTurn task = false by
    obtain ⟨moves, hmoves⟩ := hmoves
    refine ⟨moves, ?_⟩
    rw [Schedule.run, List.foldl_map]
    exact hmoves
  refine Schedule.exists_run (I := Shaken version n)
    (G := fun s => s.Shaken version n ∧ ∀ task ∈ s.tasks, inTurn task = false)
    (fun s => s.tasks.countP inTurn) (fun s hs hleft => ?_) h
  obtain ⟨task, htask, hturn⟩ : ∃ task ∈ s.tasks, inTurn task = true := by
    by_contra hnone
    refine hleft ⟨hs, fun task htask => ?_⟩
    by_contra hturn
    exact hnone ⟨task, htask, by simpa using hturn⟩
  exact exists_turn_finished hs htask hturn

theorem run_takes {n : Nat} {s : Server A σ} (r : Nat → Readings) (input : Nat → Input)
    (h : s.Shaken version n) (hturns : ∀ task ∈ s.tasks, inTurn task = false) :
    let t := Schedule.run (Server.move B) s
      ((List.range s.tasks.length).map fun i => .take i (r i) (input i))
    t.Closing version ∧ t.tasks.length = s.tasks.length ∧
      ∀ task ∈ t.tasks, task.phase = .ended := by
  refine Schedule.run_range_all Server.tasks (fun task : Task C => task.phase.hungUp = .ended) _
    (fun task htask => by rw [htask]; rfl)
    (fun s i => closing_step fun b => ServerMove.noConfusion) (fun s i => length_step) ?_
    h.toClosing fun task htask => ?_
  · intro s i hs hwait j task htask
    rw [move, List.getElem?_modify] at htask
    split_ifs at htask with hij
    · obtain ⟨before, hbefore, rfl⟩ := Option.map_eq_some_iff.mp htask
      have hmem := List.mem_of_getElem? hbefore
      rw [take_signalled hs.shutdown (hs.upTo.tasks before hmem)]
      exact Or.inl (hwait before hmem)
    · exact Or.inr ⟨Ne.symm hij, by simpa using htask⟩
  · have hturn := hturns task htask
    cases hphase : task.phase with
    | handshaking seen => exact absurd hphase (h.shaken task htask seen)
    | handling rest seen =>
      rw [inTurn, hphase] at hturn
      cases hturn
    | serving conn seen => rfl
    | ended => rfl

theorem run_joins {s : Server A σ} (h : s.Closing version)
    (hended : ∀ task ∈ s.tasks, task.phase = .ended) :
    let t := Schedule.run (Server.move B) s ((List.range s.tasks.length).map .join)
    t.Closing version ∧ t.tasks.length = s.tasks.length ∧
      ∀ task ∈ t.tasks, task.phase = .ended ∧ (task.joined = true ∨ task.aborted = true) := by
  refine Schedule.run_range_all Server.tasks _ _ (fun task htask => htask.1)
    (fun s i => closing_step fun b => ServerMove.noConfusion) (fun s i => length_step) ?_ h hended
  intro s i hs hended j task htask
  cases hphase : s.phase with
  | accepting => exact absurd hphase hs.phase
  | draining deadline =>
    rw [move, hphase] at htask
    dsimp only at htask
    rw [settle_tasks, List.getElem?_modify] at htask
    split_ifs at htask with hij
    · obtain ⟨before, hbefore, rfl⟩ := Option.map_eq_some_iff.mp htask
      have hend := hended before (List.mem_of_getElem? hbefore)
      exact Or.inl ⟨idles_join.ended hend, Or.inl (Task.join_joined hend)⟩
    · exact Or.inr ⟨Ne.symm hij, by simpa using htask⟩
  | returned =>
    rw [move, hphase] at htask
    have hmem := List.mem_of_getElem? htask
    exact Or.inl ⟨hended task hmem, hs.upTo.returned hphase task hmem⟩

/-- Nothing but the tasks is waited for. -/
theorem exists_windUp {s : Server A σ} (ok : Nat → Bool) (r : Nat → Readings)
    (input : Nat → Input) (h : s.Signalled version) :
    ∃ resumes, (Schedule.run (Server.move B) s
      (windUp ok r input resumes s.tasks.length)).phase = .returned := by
  have hpoll : (s.move B .poll).Closing version := closing_poll h
  have hkept : Kept B s (s.move B .poll) := kept_step h
  have hlength : (s.move B .poll).tasks.length = s.tasks.length := by
    simpa using congrArg List.length hkept.requests
  obtain ⟨hclosing, hlength₁, hshaken⟩ := run_handshakes (B := B) ok r hpoll
  obtain ⟨resumes, hfinished, hturns⟩ := exists_resumes (B := B) ⟨hclosing, hlength₁, hshaken⟩
  refine ⟨resumes, ?_⟩
  obtain ⟨hclosing, hlength₂, hended⟩ := run_takes (B := B) r input hfinished hturns
  obtain ⟨hclosing, -, hjoined⟩ := run_joins (B := B) hclosing hended
  rw [hlength₂, hfinished.length, ← Schedule.run_append, ← Schedule.run_append,
    ← Schedule.run_append, hlength] at hclosing hjoined
  change (Schedule.run (Server.move B) (s.move B .poll) _).phase = .returned
  have hcounted := hclosing.upTo.counted
  cases hphase : (Schedule.run (Server.move B) (s.move B .poll) _).phase with
  | returned => rfl
  | accepting => exact absurd hphase hclosing.phase
  | draining deadline =>
    rw [hphase] at hcounted
    obtain ⟨hrunning, ⟨m, hm, hleft⟩, -⟩ := hcounted
    obtain ⟨task, htask, rfl⟩ := List.mem_map.mp hm
    rcases (hjoined task htask).2 with hjoined | haborted
    · cases hleft.symm.trans hjoined
    · cases (hrunning task.marks hm).symm.trans haborted

/-- The drain ends with its thirty seconds, whatever the tasks do. -/
theorem run_deadline {s : Server A σ} (h : s.Signalled version) :
    (Schedule.run (Server.move B) s [.poll, .pass (30 * 10 ^ 9), .deadline]).phase =
      .returned := by
  have hpoll : (s.move B .poll).Closing version := closing_poll h
  change (((s.move B .poll).move B (.pass (30 * 10 ^ 9))).move B .deadline).phase = .returned
  generalize s.move B .poll = u at hpoll
  have hcounted := hpoll.upTo.counted
  cases hphase : u.phase with
  | accepting => exact absurd hphase hpoll.phase
  | returned => simp [move, hphase]
  | draining deadline =>
    rw [hphase] at hcounted
    simp only [move, hphase, if_pos hcounted.2.2]

/-- Until any signal, all of the server is up to it. -/
theorem upTo_run (config : Settings) (file : ConfigFile) (tls : Bool) (now : Instant)
    (d : Dispatcher C σ) (moves : List ServerMove) :
    let s := Schedule.run (Server.move B) (.new A config file tls now d) moves
    s.UpTo s.reloading.shutdown.version := by
  refine Schedule.run_keeps (I := fun s : Server A σ => s.UpTo s.reloading.shutdown.version) ?_ ?_
  · intro s mv hs
    refine (upTo_step s mv (Or.inl rfl) hs).mono ?_
    by_cases hquiet : Quiet s mv
    · rw [move_shutdown hquiet]
    · unfold Quiet at hquiet
      push Not at hquiet
      obtain ⟨b, rfl⟩ := hquiet
      exact Nat.le_succ _
  · refine ⟨fun _ => le_rfl, ?_, ?_⟩
    · simp [Server.new]
    · intro m hm
      cases hm

end Server

/-- Once the server is told to shut down it accepts no connection and takes up no request, whatever
the clients have sent; what is still done to the dispatcher and its store is what is left of the
turns that were in flight at the signal, call by call. When the server has returned each task has
ended, or was aborted and is not waited for. The server can return as soon as the handshakes have
come to their end, the turns in flight are finished and each connection has come to its `select!`,
and it returns after thirty seconds in any case. -/
theorem shutdown_drains {C : Crates} {σ : Type} (A : AclCrates C) (B : Backend C σ)
    (config : Settings) (file : ConfigFile) (tls : Bool) (now : Instant) (d : Dispatcher C σ)
    (before after : List ServerMove) (hquiet : ∀ b, .reload (.notify b) ∉ after) :
    let s := Schedule.run (Server.move B) (.new A config file tls now d) before
    let t := Schedule.run (Server.move B) s (.reload (.notify true) :: after)
    t.tasks.map (·.requests) = s.tasks.map (·.requests) ∧
    (∃ schedule, t.dispatcher = (s.inFlight.run (CallOp.answer B) schedule).env) ∧
    (t.phase = .returned → ∀ task ∈ t.tasks, task.phase = .ended ∨ task.aborted = true) ∧
    (∀ ok r input, ∃ resumes, (Schedule.run (Server.move B) t
      (Server.windUp ok r input resumes t.tasks.length)).phase = .returned) ∧
    (Schedule.run (Server.move B) t [.poll, .pass (30 * 10 ^ 9), .deadline]).phase =
      .returned := by
  intro s t
  have hs : s.UpTo s.reloading.shutdown.version := Server.upTo_run config file tls now d before
  have hsignalled : (s.move B (.reload (.notify true))).Signalled s.reloading.shutdown.version :=
    ⟨rfl, hs.accepting, hs.tasks, hs.counted⟩
  obtain ⟨hkept, ht⟩ := Server.kept_run (B := B) hquiet hsignalled
  obtain ⟨schedule, hwinds⟩ := hkept.winds s.inFlight ⟨rfl, (Server.winds_inFlight s).tasks⟩
  refine ⟨hkept.requests, ⟨schedule, hwinds.dispatcher⟩, fun hphase task htask => ?_,
    fun ok r input => Server.exists_windUp ok r input ht, Server.run_deadline ht⟩
  exact (ht.upTo.returned hphase task htask).imp_left (ht.upTo.tasks task htask).joined

namespace Memory

/-- A write that is in flight at the signal is made, and the one that comes after it is not. -/
theorem write_in_flight_made :
    let s := Schedule.run (Server.move backend) (.new acl ⟨none, none⟩
      ⟨none, .ok ⟨none, none⟩⟩ false 0 (.new [] (Stream'.const 0) (Stream'.const (some 10))))
      [.accept true 0, words ["PUT", "a", "k", "VALUE", "v"]]
    let t := Schedule.run (Server.move backend) s [.reload (.notify true), .resume 0, .resume 0,
      words ["PUT", "a", "l", "VALUE", "v"]]
    s.dispatcher.store = [] ∧ t.dispatcher.store = [⟨"a", [107], [118], 1⟩] ∧
      (∃ schedule, t.dispatcher = (s.inFlight.run (CallOp.answer backend) schedule).env) ∧
      t.tasks.map (·.requests) = s.tasks.map (·.requests) := by
  intro s t
  obtain ⟨hrequests, hdispatcher, -⟩ := shutdown_drains acl backend ⟨none, none⟩
    ⟨none, .ok ⟨none, none⟩⟩ false 0 (.new [] (Stream'.const 0) (Stream'.const (some 10)))
    [.accept true 0, words ["PUT", "a", "k", "VALUE", "v"]]
    [.resume 0, .resume 0, words ["PUT", "a", "l", "VALUE", "v"]] (by simp [words])
  exact ⟨rfl, rfl, hdispatcher, hrequests⟩

end Memory

end Shroudb
