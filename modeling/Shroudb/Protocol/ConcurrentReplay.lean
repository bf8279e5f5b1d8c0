import Shroudb.Effect.Schedule
import Shroudb.Protocol.CacheIsolation

/-! Concurrent calls of one pipeline under one request id. -/
namespace Shroudb
open Effect

/-- Where a call of `execute` is. -/
inductive Phase (C : Crates) where
  | waiting
  | running (results : List (CommandResponse C)) (todo : List Command)
  | finished (response : CommandResponse C)

/-- The calls `ι` share a dispatcher. `applied` lists the sub-commands run so far, by any call. -/
structure Tasks (ι : Type) (C : Crates) (σ : Type) where
  dispatcher : Dispatcher C σ
  phase : ι → Phase C
  applied : List Command

/-- Nothing has happened yet. -/
def Tasks.start {ι : Type} {C : Crates} {σ : Type} (d : Dispatcher C σ) : Tasks ι C σ :=
  ⟨d, fun _ => .waiting, []⟩

section
variable {ι : Type} [DecidableEq ι] {C : Crates} {σ : Type}

/-- Call `i` goes on: it looks its id up, runs the next sub-command, or caches its response. -/
def Tasks.step (B : Backend C σ) (auth : ι → Option C.AuthContext) (cs : List Command) (x : String)
    (s : Tasks ι C σ) (i : ι) : Tasks ι C σ :=
  match s.phase i with
  | .waiting =>
    match s.dispatcher.lookup (some x) with
    | (some frame, d) =>
      { s with dispatcher := d, phase := Function.update s.phase i (.finished (.cachedFrame frame)) }
    | (none, d) => { s with dispatcher := d, phase := Function.update s.phase i (.running [] cs) }
  | .running results (c :: todo) =>
    let (result, d) := execute B (auth i) c s.dispatcher
    ⟨d, Function.update s.phase i (.running (results ++ [result]) todo), s.applied ++ [c]⟩
  | .running results [] =>
    { s with
      dispatcher := s.dispatcher.remember (some x) (.array results)
      phase := Function.update s.phase i (.finished (.array results)) }
  | .finished _ => s

variable (B : Backend C σ) (auth : ι → Option C.AuthContext) (cs : List Command) (x : String)
  {s : Tasks ι C σ} {i : ι}

theorem Tasks.step_hit {frame : Resp3Frame} (h : s.phase i = .waiting)
    (hl : (s.dispatcher.lookup (some x)).1 = some frame) :
    s.step B auth cs x i = { s with
      dispatcher := (s.dispatcher.lookup (some x)).2
      phase := Function.update s.phase i (.finished (.cachedFrame frame)) } := by
  unfold step
  rw [h]
  dsimp only
  split
  case h_1 => simp_all
  case h_2 => simp_all

theorem Tasks.step_miss (h : s.phase i = .waiting)
    (hl : (s.dispatcher.lookup (some x)).1 = none) :
    s.step B auth cs x i = { s with
      dispatcher := (s.dispatcher.lookup (some x)).2
      phase := Function.update s.phase i (.running [] cs) } := by
  unfold step
  rw [h]
  dsimp only
  split
  case h_1 => simp_all
  case h_2 => simp_all

theorem Tasks.step_sub {results : List (CommandResponse C)} {c : Command} {todo : List Command}
    (h : s.phase i = .running results (c :: todo)) :
    s.step B auth cs x i = ⟨(execute B (auth i) c s.dispatcher).2,
      Function.update s.phase i
        (.running (results ++ [(execute B (auth i) c s.dispatcher).1]) todo),
      s.applied ++ [c]⟩ := by
  unfold step
  rw [h]

theorem Tasks.step_insert {results : List (CommandResponse C)}
    (h : s.phase i = .running results []) :
    s.step B auth cs x i = { s with
      dispatcher := s.dispatcher.remember (some x) (.array results)
      phase := Function.update s.phase i (.finished (.array results)) } := by
  unfold step
  rw [h]

theorem Tasks.step_finished {response : CommandResponse C} (h : s.phase i = .finished response) :
    s.step B auth cs x i = s := by
  unfold step
  rw [h]

/-! ## One call alone -/

theorem run_subs {results : List (CommandResponse C)} {todo : List Command}
    (h : s.phase i = .running results todo) :
    let t := Schedule.run (Tasks.step B auth cs x) s (List.replicate todo.length i)
    t.phase i = .running (results ++ (executeAll B (auth i) todo s.dispatcher).1) [] ∧
    t.dispatcher = (executeAll B (auth i) todo s.dispatcher).2 := by
  induction todo generalizing s results with
  | nil => exact ⟨by simpa [Schedule.run, executeAll] using h, rfl⟩
  | cons c todo ih =>
    have hstep := Tasks.step_sub B auth cs x h
    have hphase : (s.step B auth cs x i).phase i =
        .running (results ++ [(execute B (auth i) c s.dispatcher).1]) todo := by
      simp [hstep]
    have hnext := ih hphase
    rw [hstep] at hnext
    simpa [Schedule.run, List.replicate_succ, executeAll, hstep] using hnext

/-- A call that is not interrupted does what `execute` does. -/
theorem run_alone (h : s.phase i = .waiting) :
    let r := execute B (auth i) (.pipeline cs (some x)) s.dispatcher
    ∃ n, let t := Schedule.run (Tasks.step B auth cs x) s (List.replicate n i)
      t.phase i = .finished r.1 ∧ t.dispatcher = r.2 := by
  intro r
  cases hl : (s.dispatcher.lookup (some x)).1 with
  | some frame =>
    refine ⟨1, ?_⟩
    simp [Schedule.run, Tasks.step_hit B auth cs x h hl, r, execute_pipeline_hit hl]
  | none =>
    have hstep := Tasks.step_miss B auth cs x h hl
    have hphase : (s.step B auth cs x i).phase i = .running [] cs := by simp [hstep]
    obtain ⟨hsubs, hd⟩ := run_subs B auth cs x hphase
    refine ⟨cs.length + 2, ?_⟩
    have hrun : Schedule.run (Tasks.step B auth cs x) s (List.replicate (cs.length + 2) i) =
        (Schedule.run (Tasks.step B auth cs x) (s.step B auth cs x i)
          (List.replicate cs.length i)).step B auth cs x i := by
      rw [List.replicate_succ', Schedule.run, List.foldl_append, List.replicate_succ]
      rfl
    rw [hrun, Tasks.step_insert B auth cs x hsubs, hd]
    simp [r, execute_pipeline_miss hl, hstep]

/-! ## Calls that do not overlap -/

theorem IdempotencyMap.get_of_fresh {m : IdempotencyMap} {id : String} {entry : CachedResponse}
    {now : Instant} (h : m id = some entry) (hfresh : ¬ Aged entry.createdAt now) :
    m.get id now = (some entry.frame, m) := by
  have hlive : entry.expired now = false := by
    rw [← Bool.not_eq_true, CachedResponse.expired_iff]
    exact hfresh
  simp [get, h, hlive]

/-- All readings are within the lifetime of an entry. -/
def Brief (clock : Stream' Instant) : Prop := ∀ i j, ¬ Aged (clock.get i) (clock.get j)

theorem Brief.tail {clock : Stream' Instant} (h : Brief clock) : Brief clock.tail :=
  fun i j => h (i + 1) (j + 1)

theorem execute_brief {auth : Option C.AuthContext} (cmd : Command) {d : Dispatcher C σ}
    (h : Brief d.instants) : Brief (execute B auth cmd d).2.instants := by
  have hlookup : ∀ id (d : Dispatcher C σ), Brief d.instants → Brief (d.lookup id).2.instants := by
    intro id d hd
    cases id with
    | none => exact hd
    | some id =>
      rw [Dispatcher.lookup_some]
      exact hd.tail
  refine execute_leads (R := fun d d' => Brief d.instants → Brief d'.instants) (fun _ hd => hd)
    (fun _ _ _ h₁ h₂ hd => h₂ (h₁ hd)) ?_ hlookup ?_ cmd d h
  · intro cmd d hd
    rw [(executeLeaf_cache B auth cmd).2]
    exact hd
  · intro id r d d' _ h' hd
    cases id with
    | none => exact h' hd
    | some id => exact (h' (hlookup (some id) d hd)).tail

/-- A call that is about to look its id up finds no other call running. -/
def Lone (s : Tasks ι C σ) (i : ι) : Prop :=
  s.phase i = .waiting → ∀ j results todo, s.phase j ≠ .running results todo

/-- No call has begun, one is running, or the response is cached and whoever has finished has it. -/
inductive Stage (s : Tasks ι C σ) : Prop where
  | idle (hwaiting : ∀ i, s.phase i = .waiting) (happlied : s.applied = [])
      (hentry : s.dispatcher.idempotency x = none)
  | busy (i : ι) (results : List (CommandResponse C)) (todo : List Command)
      (hrunning : s.phase i = .running results todo) (hothers : ∀ j, j ≠ i → s.phase j = .waiting)
      (happlied : s.applied ++ todo = cs)
  | cached (entry : CachedResponse) (hentry : s.dispatcher.idempotency x = some entry)
      (hfresh : ∀ n, ¬ Aged entry.createdAt (s.dispatcher.instants.get n))
      (hdone : ∀ i, s.phase i = .waiting ∨
        ∃ r, s.phase i = .finished r ∧ responseToFrame r = entry.frame)
      (happlied : s.applied <+: cs)

theorem stage_idle_step (hwaiting : ∀ j, s.phase j = .waiting) (happlied : s.applied = [])
    (hentry : s.dispatcher.idempotency x = none) : Stage cs x (s.step B auth cs x i) := by
  have hmiss : (s.dispatcher.lookup (some x)).1 = none := by
    rw [Dispatcher.lookup_some]
    exact IdempotencyMap.live_eq_none.mpr (by simp [hentry])
  rw [Tasks.step_miss B auth cs x (hwaiting i) hmiss]
  refine .busy i [] cs (by simp) (fun j hj => ?_) (by simp [happlied])
  simp [Function.update_of_ne hj, hwaiting j]

theorem stage_busy_step {results : List (CommandResponse C)} {todo : List Command}
    (hbrief : Brief s.dispatcher.instants) (hrunning : s.phase i = .running results todo)
    (hothers : ∀ j, j ≠ i → s.phase j = .waiting) (happlied : s.applied ++ todo = cs) :
    Stage cs x (s.step B auth cs x i) := by
  cases todo with
  | cons c todo =>
    rw [Tasks.step_sub B auth cs x hrunning]
    refine .busy i (results ++ [(execute B (auth i) c s.dispatcher).1]) todo (by simp)
      (fun j hj => ?_) (by simpa using happlied)
    simp [Function.update_of_ne hj, hothers j hj]
  | nil =>
    rw [Tasks.step_insert B auth cs x hrunning, Dispatcher.remember_some]
    refine .cached ⟨responseToFrame (.array results), s.dispatcher.instants.head⟩
      IdempotencyMap.update_same (fun n => hbrief 0 (n + 1)) (fun j => ?_) (by simp_all)
    by_cases hj : j = i
    · subst hj
      exact Or.inr ⟨.array results, by simp, rfl⟩
    · exact Or.inl (by simp [Function.update_of_ne hj, hothers j hj])

theorem stage_cached_step {entry : CachedResponse}
    (hentry : s.dispatcher.idempotency x = some entry)
    (hfresh : ∀ n, ¬ Aged entry.createdAt (s.dispatcher.instants.get n))
    (hdone : ∀ j, s.phase j = .waiting ∨
      ∃ r, s.phase j = .finished r ∧ responseToFrame r = entry.frame)
    (happlied : s.applied <+: cs) : Stage cs x (s.step B auth cs x i) := by
  rcases hdone i with hwaiting | ⟨r, hr, -⟩
  · have hget := IdempotencyMap.get_of_fresh hentry (hfresh 0)
    have hhit : (s.dispatcher.lookup (some x)).1 = some entry.frame := by
      rw [Dispatcher.lookup_some, ← IdempotencyMap.get_fst]
      exact congrArg Prod.fst hget
    have hkept : (s.dispatcher.lookup (some x)).2.idempotency = s.dispatcher.idempotency := by
      rw [Dispatcher.lookup_some]
      exact congrArg Prod.snd hget
    rw [Tasks.step_hit B auth cs x hwaiting hhit]
    refine .cached entry (by simp [hkept, hentry]) (fun n => ?_) (fun j => ?_) happlied
    · rw [Dispatcher.lookup_some]
      exact hfresh (n + 1)
    · by_cases hj : j = i
      · subst hj
        exact Or.inr ⟨.cachedFrame entry.frame, by simp, by simp [responseToFrame]⟩
      · simpa [Function.update_of_ne hj] using hdone j
  · rw [Tasks.step_finished B auth cs x hr]
    exact .cached entry hentry hfresh hdone happlied

theorem stage_step (hlone : Lone s i) (hbrief : Brief s.dispatcher.instants)
    (h : Stage cs x s) : Stage cs x (s.step B auth cs x i) := by
  cases h with
  | idle hwaiting happlied hentry => exact stage_idle_step B auth cs x hwaiting happlied hentry
  | busy j results todo hrunning hothers happlied =>
    by_cases hij : i = j
    · subst hij
      exact stage_busy_step B auth cs x hbrief hrunning hothers happlied
    · exact absurd hrunning (hlone (hothers i hij) j results todo)
  | cached entry hentry hfresh hdone happlied =>
    exact stage_cached_step B auth cs x hentry hfresh hdone happlied

theorem brief_step (i : ι) (h : Brief s.dispatcher.instants) :
    Brief (s.step B auth cs x i).dispatcher.instants := by
  cases hp : s.phase i with
  | waiting =>
    cases hl : (s.dispatcher.lookup (some x)).1 with
    | some frame =>
      rw [Tasks.step_hit B auth cs x hp hl, Dispatcher.lookup_some]
      exact h.tail
    | none =>
      rw [Tasks.step_miss B auth cs x hp hl, Dispatcher.lookup_some]
      exact h.tail
  | running results todo =>
    cases todo with
    | cons c todo =>
      rw [Tasks.step_sub B auth cs x hp]
      exact execute_brief B c h
    | nil =>
      rw [Tasks.step_insert B auth cs x hp]
      exact h.tail
  | finished r => rwa [Tasks.step_finished B auth cs x hp]

omit [DecidableEq ι] in
theorem stage_start {d : Dispatcher C σ}
    (hfresh : ∀ entry, d.idempotency x = some entry →
      ∀ n, ¬ Aged entry.createdAt (d.instants.get n)) :
    Stage cs x (Tasks.start d : Tasks ι C σ) := by
  cases hx : d.idempotency x with
  | none => exact .idle (fun _ => rfl) rfl hx
  | some entry => exact .cached entry hx (hfresh entry hx) (fun _ => Or.inl rfl) (by simp [Tasks.start])

/-- While nothing expires and no call looks its id up during another, the sub-commands are
applied at most once by all calls together, and all finished calls have the same frame. -/
theorem applied_at_most_once (d : Dispatcher C σ) (hbrief : Brief d.instants)
    (hfresh : ∀ entry, d.idempotency x = some entry →
      ∀ n, ¬ Aged entry.createdAt (d.instants.get n))
    (schedule : List ι) (hlone : Schedule.Guarded (Tasks.step B auth cs x) Lone (.start d) schedule) :
    let s := Schedule.run (Tasks.step B auth cs x) (.start d) schedule
    s.applied <+: cs ∧
    ∀ i j r r', s.phase i = .finished r → s.phase j = .finished r' →
      responseToFrame r = responseToFrame r' := by
  intro s
  have hstage : Brief s.dispatcher.instants ∧ Stage cs x s := by
    refine Schedule.run_invariant (I := fun s => Brief s.dispatcher.instants ∧ Stage cs x s)
      ?_ hlone ⟨hbrief, stage_start cs x hfresh⟩
    rintro s i hlone ⟨hbrief, hstage⟩
    exact ⟨brief_step B auth cs x i hbrief, stage_step B auth cs x hlone hbrief hstage⟩
  cases hstage.2 with
  | idle hwaiting happlied hentry => exact ⟨by simp [happlied], by simp [hwaiting]⟩
  | busy k results todo hrunning hothers happlied =>
    refine ⟨⟨todo, happlied⟩, fun i j r r' hi _ => ?_⟩
    by_cases hik : i = k
    · subst hik
      simp [hrunning] at hi
    · simp [hothers i hik] at hi
  | cached entry hentry hfresh hdone happlied =>
    have hframe : ∀ i r, s.phase i = .finished r → responseToFrame r = entry.frame := by
      intro i r hi
      rcases hdone i with hwaiting | ⟨r', hr', hf⟩
      · simp [hwaiting] at hi
      · obtain rfl : r' = r := by simpa [hr'] using hi
        exact hf
    exact ⟨happlied, fun i j r r' hi hj => (hframe i r hi).trans (hframe j r' hj).symm⟩

end

namespace Memory

def increment : List Command := [.put "a" [107] [118] none none]

/-- The second call hits what the first has cached. -/
theorem retry_after_reply_is_replayed :
    let step := Tasks.step backend (fun _ : Bool => some writer) increment "x"
    let s := Schedule.run step (.start (fresh [])) [false, false, false, true]
    s.applied <+: increment ∧
    ∀ i j r r', s.phase i = .finished r → s.phase j = .finished r' →
      responseToFrame r = responseToFrame r' := by
  have hbrief : Brief (fresh []).instants := by
    intro i j
    change ¬ Aged 0 0
    simp [Aged, defaultTtlSecs]
  have hfresh : ∀ entry : CachedResponse, (fresh []).idempotency "x" = some entry →
      ∀ n, ¬ Aged entry.createdAt ((fresh []).instants.get n) := by
    intro entry h
    cases h
  refine applied_at_most_once backend _ increment "x" (fresh []) hbrief hfresh _ ?_
  refine ⟨fun _ j results todo h => ?_, fun h => ?_, fun h => ?_, fun _ j results todo h => ?_,
    trivial⟩
  · cases h
  · cases h
  · cases h
  · cases j <;> cases h

/-- Both calls miss, so the write happens twice and the replies differ. -/
theorem overlapping_retry_is_applied_twice :
    let step := Tasks.step backend (fun _ : Bool => some writer) increment "x"
    let s := Schedule.run step (.start (fresh [])) [false, true, false, true, false, true]
    let reply := fun version => CommandResponse.array (C := crates)
      [.success (ResponseMap.ok.field "version" (.integer version))]
    s.applied = increment ++ increment ∧
    s.dispatcher.store = [⟨"a", [107], [118], 2⟩, ⟨"a", [107], [118], 1⟩] ∧
    s.phase false = .finished (reply 1) ∧ s.phase true = .finished (reply 2) ∧
    responseToFrame (reply 1) ≠ responseToFrame (reply 2) := by
  refine ⟨rfl, rfl, rfl, rfl, ?_⟩
  simp [responseToFrame, responsesToFrames, responseMapToFrame, ResponseMap.ok, ResponseMap.field,
    responseFieldsToPairs, responseValueToFrame]

end Memory

end Shroudb
