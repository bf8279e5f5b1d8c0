import Shroudb.Protocol.CacheIsolation

/-! Retries under one request id, in a sequential history of calls and prunings. -/
namespace Shroudb
open Effect

/-- What happens to a dispatcher from outside: a call, or the reaper's turn. -/
inductive Occurrence (C : Crates) where
  | execute (auth : Option C.AuthContext) (cmd : Command)
  | prune

/-- One call of `execute` on a pipeline, nested or not, and the state it starts from. -/
structure Attempt (C : Crates) (σ : Type) where
  auth : Option C.AuthContext
  commands : List Command
  start : Dispatcher C σ

variable {C : Crates} {σ : Type}

namespace Attempt

/-- When the attempt looks its id up. -/
def time (a : Attempt C σ) : Instant := a.start.instants.head

def run (B : Backend C σ) (x : String) (a : Attempt C σ) : CommandResponse C × Dispatcher C σ :=
  execute B a.auth (.pipeline a.commands (some x)) a.start

/-- The answer is `frame`, and no store or engine call is made. -/
def Replays (B : Backend C σ) (x : String) (frame : Resp3Frame) (a : Attempt C σ) : Prop :=
  responseToFrame (a.run B x).1 = frame ∧ (a.run B x).2.calls = a.start.calls ∧
    (a.run B x).2.store = a.start.store

/-- All sub-commands are executed, and the answer is theirs. -/
def Afresh (B : Backend C σ) (x : String) (a : Attempt C σ) : Prop :=
  let ran := executeAll B a.auth a.commands (a.start.lookup (some x)).2
  a.run B x = (.array ran.1, ran.2.remember (some x) (.array ran.1))

end Attempt

/-- A pipeline is an attempt itself when it has the id. -/
def ownAttempt (x : String) (auth : Option C.AuthContext) (cs : List Command) (id : Option String)
    (d : Dispatcher C σ) : List (Attempt C σ) :=
  if id = some x then [⟨auth, cs, d⟩] else []

mutual
/-- The attempts under `x` in the course of a command, in their order. -/
def attempts (B : Backend C σ) (x : String) (auth : Option C.AuthContext) :
    Command → Dispatcher C σ → List (Attempt C σ)
  | .pipeline commands requestId, d =>
    ownAttempt x auth commands requestId d ++
      match d.lookup requestId with
      | (some _, _) => []
      | (none, d) => attemptsAll B x auth commands d
  | _, _ => []
def attemptsAll (B : Backend C σ) (x : String) (auth : Option C.AuthContext) :
    List Command → Dispatcher C σ → List (Attempt C σ)
  | [], _ => []
  | c :: cs, d => attempts B x auth c d ++ attemptsAll B x auth cs (execute B auth c d).2
end

def Dispatcher.prune (d : Dispatcher C σ) : Dispatcher C σ :=
  let (now, d) := d.tick
  { d with idempotency := d.idempotency.prune now }

namespace Occurrence

def apply (B : Backend C σ) : Occurrence C → Dispatcher C σ → Dispatcher C σ
  | .execute auth cmd, d => (Shroudb.execute B auth cmd d).2
  | .prune, d => d.prune

/-- The attempts under `x` in a history that starts from the given state. -/
def attempts (B : Backend C σ) (x : String) :
    List (Occurrence C) → Dispatcher C σ → List (Attempt C σ)
  | [], _ => []
  | .execute auth cmd :: rest, d =>
    Shroudb.attempts B x auth cmd d ++ attempts B x rest (apply B (.execute auth cmd) d)
  | .prune :: rest, d => attempts B x rest (apply B .prune d)

end Occurrence

section
variable {B : Backend C σ} {auth : Option C.AuthContext} {x : String} {d : Dispatcher C σ}

theorem attempts_leaf {cmd : Command} (h : cmd.isPipeline = false) :
    attempts B x auth cmd d = [] := by
  cases cmd <;> first | rfl | cases h

theorem attempts_hit {cs : List Command} {id : Option String} {frame : Resp3Frame}
    (h : (d.lookup id).1 = some frame) :
    attempts B x auth (.pipeline cs id) d = ownAttempt x auth cs id d := by
  rw [attempts]
  split <;> simp_all

theorem attempts_miss {cs : List Command} {id : Option String} (h : (d.lookup id).1 = none) :
    attempts B x auth (.pipeline cs id) d =
      ownAttempt x auth cs id d ++ attemptsAll B x auth cs (d.lookup id).2 := by
  rw [attempts]
  split <;> simp_all

theorem attemptsAll_invariant {I : Dispatcher C σ → Prop}
    (hexecute : ∀ cmd d, I d → I (execute B auth cmd d).2) {cs : List Command}
    (hcs : ∀ c ∈ cs, ∀ d, I d → ∀ a ∈ attempts B x auth c d, I a.start) (h : I d) :
    ∀ a ∈ attemptsAll B x auth cs d, I a.start := by
  induction cs generalizing d with
  | nil => simp [attemptsAll]
  | cons c cs ih =>
    intro a ha
    rcases List.mem_append.mp ha with ha | ha
    · exact hcs c (by simp) d h a ha
    · exact ih (fun c' hc' => hcs c' (by simp [hc'])) (hexecute c d h) a ha

/-- What lookups and calls keep, every attempt starts with. -/
theorem attempts_invariant {I : Dispatcher C σ → Prop} (hlookup : ∀ id d, I d → I (d.lookup id).2)
    (hexecute : ∀ cmd d, I d → I (execute B auth cmd d).2) (cmd : Command) (h : I d) :
    ∀ a ∈ attempts B x auth cmd d, I a.start := by
  induction cmd generalizing d with
  | leaf c hc => simp [attempts_leaf hc]
  | pipeline cs id ih =>
    have hown : ∀ a ∈ ownAttempt x auth cs id d, I a.start := by
      intro a ha
      unfold ownAttempt at ha
      split_ifs at ha
      · obtain rfl := List.mem_singleton.mp ha
        exact h
      · cases ha
    cases hl : (d.lookup id).1 with
    | some frame => rwa [attempts_hit hl]
    | none =>
      rw [attempts_miss hl]
      intro a ha
      rcases List.mem_append.mp ha with ha | ha
      · exact hown a ha
      · exact attemptsAll_invariant hexecute (fun c hc d => ih c hc) (hlookup id d h) a ha

end

/-! ## The entry of a completed pipeline -/

section
variable {B : Backend C σ} {auth : Option C.AuthContext} {x : String} {frame : Resp3Frame}
  {t : Instant} {d d' : Dispatcher C σ}

/-- Until it has aged, the entry made at `t` is in the cache. -/
structure Kept (x : String) (frame : Resp3Frame) (t : Instant) (d : Dispatcher C σ) : Prop where
  ticking : Ticking d.instants
  entry : ¬ Aged t d.instants.head → d.idempotency x = some ⟨frame, t⟩

theorem IdempotencyMap.get_ne {m : IdempotencyMap} {id : String} {now : Instant} (h : x ≠ id) :
    (m.get id now).2 x = m x := by
  unfold get
  split
  · rfl
  · split_ifs
    · exact Function.update_of_ne h none m
    · rfl

/-- What is fresh at the next reading of the clock is fresh now. -/
theorem Kept.fresh (h : Kept x frame t d) (hlater : ¬ Aged t d.instants.tail.head) :
    ¬ Aged t d.instants.head :=
  fun hnow => hlater (hnow.mono le_rfl h.ticking.head_le)

theorem Kept.lookup_hit (h : Kept x frame t d) (hfresh : ¬ Aged t d.instants.head) :
    d.lookup (some x) = (some frame, { d with instants := d.instants.tail }) := by
  simp [Dispatcher.lookup, Dispatcher.tick, IdempotencyMap.get, h.entry hfresh,
    CachedResponse.not_expired hfresh]

theorem Kept.lookup (id : Option String) (h : Kept x frame t d) :
    Kept x frame t (d.lookup id).2 := by
  cases id with
  | none => exact h
  | some id =>
    by_cases hid : x = id
    · subst hid
      refine ⟨by rw [Dispatcher.lookup_some]; exact h.ticking.tail, fun hlater => ?_⟩
      rw [Dispatcher.lookup_some] at hlater
      rw [h.lookup_hit (h.fresh hlater)]
      exact h.entry (h.fresh hlater)
    · rw [Dispatcher.lookup_some]
      refine ⟨h.ticking.tail, fun hlater => ?_⟩
      exact (IdempotencyMap.get_ne hid).trans (h.entry (h.fresh hlater))

/-- Only a pipeline that found the entry aged remembers something else under its id. -/
theorem Kept.remember {id : Option String} {response : CommandResponse C} (h : Kept x frame t d)
    (hmiss : (d.lookup id).1 = none) (h' : Kept x frame t d')
    (hle : d.instants.head ≤ d'.instants.head) : Kept x frame t (d'.remember id response) := by
  cases id with
  | none => exact h'
  | some id =>
    rw [Dispatcher.remember_some]
    refine ⟨h'.ticking.tail, fun hlater => ?_⟩
    have hfresh' := h'.fresh hlater
    by_cases hid : x = id
    · subst hid
      have hfresh : ¬ Aged t d.instants.head := fun hnow => hfresh' (hnow.mono le_rfl hle)
      rw [h.lookup_hit hfresh] at hmiss
      cases hmiss
    · exact (Function.update_of_ne hid _ _).trans (h'.entry hfresh')

theorem Kept.execute (B : Backend C σ) (auth : Option C.AuthContext) (cmd : Command)
    (h : Kept x frame t d) : Kept x frame t (execute B auth cmd d).2 := by
  refine (execute_leads (R := fun d d' => Drift d d' ∧ (Kept x frame t d → Kept x frame t d'))
    ?_ ?_ ?_ ?_ ?_ cmd d).2 h
  · exact fun d => ⟨Drift.refl d, fun hd => hd⟩
  · exact fun d₁ d₂ d₃ h₁ h₂ => ⟨h₁.1.trans h₂.1, fun hd => h₂.2 (h₁.2 hd)⟩
  · refine fun cmd d => ⟨drift_leaf B auth cmd d, fun hd => ?_⟩
    obtain ⟨hcache, hinstants⟩ := executeLeaf_cache (d := d) B auth cmd
    exact ⟨hinstants ▸ hd.ticking, hcache ▸ hinstants ▸ hd.entry⟩
  · exact fun id d => ⟨drift_lookup id d, Kept.lookup id⟩
  · intro id r d d' hmiss hr
    refine ⟨drift_remember hmiss hr.1, fun hd => ?_⟩
    have hl := (drift_lookup id d hd.ticking).2.1
    have hle := (hr.1 (hd.lookup id).ticking).2.1
    exact hd.remember hmiss (hr.2 (hd.lookup id)) (hl.trans hle)

theorem Kept.prune (h : Kept x frame t d) : Kept x frame t d.prune := by
  refine ⟨h.ticking.tail, fun hlater => ?_⟩
  have hfresh := h.fresh hlater
  change (d.idempotency x).filter _ = _
  rw [h.entry hfresh]
  simp [Option.filter, CachedResponse.not_expired hfresh]

/-! ## Up to the first attempt that comes too late -/

/-- `P` of every attempt up to the first one at which the entry of time `t` has aged. -/
def UpToAged (t : Instant) (P : Attempt C σ → Prop) : List (Attempt C σ) → Prop
  | [] => True
  | a :: rest => P a ∧ (¬ Aged t a.time → UpToAged t P rest)

theorem UpToAged.append {P : Attempt C σ → Prop} {as bs : List (Attempt C σ)}
    (h : UpToAged t P as) (h' : (∀ a ∈ as, ¬ Aged t a.time) → UpToAged t P bs) :
    UpToAged t P (as ++ bs) := by
  induction as with
  | nil => exact h' (by simp)
  | cons a as ih =>
    refine ⟨h.1, fun hfresh => ih (h.2 hfresh) fun has => h' ?_⟩
    exact List.forall_mem_cons.mpr ⟨hfresh, has⟩

instance (t now : Instant) : Decidable (Aged t now) :=
  inferInstanceAs (Decidable (defaultTtlSecs ≤ (now - t) / 10 ^ 9))

theorem UpToAged.first {P : Attempt C σ → Prop} {as : List (Attempt C σ)} {a : Attempt C σ}
    (h : UpToAged t P as) (ha : as.find? (fun a => Aged t a.time) = some a) : P a := by
  induction as with
  | nil => cases ha
  | cons b as ih =>
    rw [List.find?_cons] at ha
    split at ha
    · cases ha
      exact h.1
    · rename_i hb
      exact ih (h.2 (of_decide_eq_false hb)) ha

/-- No entry under `x` is younger than `t`. -/
def Dated (x : String) (t : Instant) (d : Dispatcher C σ) : Prop :=
  ∀ entry, d.idempotency x = some entry → entry.createdAt ≤ t

theorem IdempotencyMap.of_get_eq_some {m : IdempotencyMap} {id : String} {now : Instant}
    {entry : CachedResponse} (h : (m.get id now).2 x = some entry) : m x = some entry := by
  by_cases hid : x = id
  · subst hid
    unfold get at h
    split at h
    · exact h
    · split_ifs at h
      · cases IdempotencyMap.update_same.symm.trans h
      · exact h
  · exact (IdempotencyMap.get_ne hid).symm.trans h

theorem Dated.lookup (id : Option String) (h : Dated x t d) : Dated x t (d.lookup id).2 := by
  cases id with
  | none => exact h
  | some id =>
    rw [Dispatcher.lookup_some]
    exact fun entry hentry => h entry (IdempotencyMap.of_get_eq_some hentry)

theorem Dated.prune (h : Dated x t d) : Dated x t d.prune := by
  intro entry hentry
  exact h entry (Option.filter_eq_some_iff.mp hentry).1

theorem Dated.remember {id : Option String} {response : CommandResponse C} (h : Dated x t d)
    (hid : id ≠ some x) : Dated x t (d.remember id response) := by
  cases id with
  | none => exact h
  | some id =>
    intro entry hentry
    have hne : x ≠ id := fun he => hid (congrArg some he.symm)
    exact h entry ((Function.update_of_ne hne _ _).symm.trans hentry)

/-- The attempts `as` lead to `d'`, and nothing is cached under `x` before one comes too late. -/
def DatedThrough (x : String) (t : Instant) (as : List (Attempt C σ)) (d' : Dispatcher C σ) : Prop :=
  UpToAged t (fun a => Dated x t a.start) as ∧ ((∀ a ∈ as, ¬ Aged t a.time) → Dated x t d')

theorem DatedThrough.append {as bs : List (Attempt C σ)} {d'' : Dispatcher C σ}
    (h : DatedThrough x t as d') (h' : Dated x t d' → DatedThrough x t bs d'') :
    DatedThrough x t (as ++ bs) d'' := by
  refine ⟨h.1.append fun has => (h' (h.2 has)).1, fun hall => ?_⟩
  obtain ⟨has, hbs⟩ := List.forall_mem_append.mp hall
  exact (h' (h.2 has)).2 hbs

theorem datedThrough_own (auth : Option C.AuthContext) (cs : List Command) (id : Option String)
    (h : Dated x t d) : DatedThrough x t (ownAttempt x auth cs id d) (d.lookup id).2 := by
  refine ⟨?_, fun _ => h.lookup id⟩
  unfold ownAttempt
  split_ifs
  · exact ⟨h, fun _ => trivial⟩
  · trivial

theorem attemptsAll_dated {cs : List Command}
    (hcs : ∀ c ∈ cs, ∀ d, Kept x frame t d → Dated x t d →
      DatedThrough x t (attempts B x auth c d) (execute B auth c d).2)
    (hk : Kept x frame t d) (h : Dated x t d) :
    DatedThrough x t (attemptsAll B x auth cs d) (executeAll B auth cs d).2 := by
  induction cs generalizing d with
  | nil => exact ⟨trivial, fun _ => h⟩
  | cons c cs ih =>
    refine (hcs c (by simp) d hk h).append fun hd => ?_
    exact ih (fun c' hc' => hcs c' (by simp [hc'])) (hk.execute B auth c) hd

theorem attempts_dated (B : Backend C σ) (auth : Option C.AuthContext) (cmd : Command)
    (hk : Kept x frame t d) (h : Dated x t d) :
    DatedThrough x t (attempts B x auth cmd d) (execute B auth cmd d).2 := by
  induction cmd generalizing d with
  | leaf c hc =>
    rw [attempts_leaf hc, execute_leaf hc]
    refine ⟨trivial, fun _ entry hentry => h entry ?_⟩
    rwa [(executeLeaf_cache B auth c).1] at hentry
  | pipeline cs id ih =>
    have hown := datedThrough_own auth cs id h
    cases hl : (d.lookup id).1 with
    | some frame =>
      rw [attempts_hit hl, execute_pipeline_hit hl]
      exact hown
    | none =>
      rw [attempts_miss hl, execute_pipeline_miss hl]
      have hall := hown.append fun hd =>
        attemptsAll_dated (fun c hc d => ih c hc) (hk.lookup id) hd
      refine ⟨hall.1, fun hfresh => (hall.2 hfresh).remember ?_⟩
      -- A pipeline with the id itself missed, so it is an attempt that came too late.
      rintro rfl
      have hnow : ¬ Aged t d.instants.head := hfresh ⟨auth, cs, d⟩ (by simp [ownAttempt])
      rw [hk.lookup_hit hnow] at hl
      cases hl

theorem occurrence_attempts_kept (later : List (Occurrence C)) (h : Kept x frame t d) :
    ∀ a ∈ Occurrence.attempts B x later d, Kept x frame t a.start := by
  induction later generalizing d with
  | nil => simp [Occurrence.attempts]
  | cons e later ih =>
    cases e with
    | execute auth cmd =>
      refine List.forall_mem_append.mpr ⟨?_, ih (h.execute B auth cmd)⟩
      exact attempts_invariant (fun id _ => Kept.lookup id) (fun cmd _ => Kept.execute B auth cmd)
        cmd h
    | prune => exact ih h.prune

theorem occurrence_attempts_dated (later : List (Occurrence C)) (hk : Kept x frame t d)
    (h : Dated x t d) :
    UpToAged t (fun a => Dated x t a.start) (Occurrence.attempts B x later d) := by
  induction later generalizing d with
  | nil => trivial
  | cons e later ih =>
    cases e with
    | execute auth cmd =>
      obtain ⟨hfirst, hafter⟩ := attempts_dated B auth cmd hk h
      exact hfirst.append fun hfresh => ih (hk.execute B auth cmd) (hafter hfresh)
    | prune => exact ih hk.prune h.prune

theorem Kept.replays {a : Attempt C σ} (B : Backend C σ) (h : Kept x frame t a.start)
    (hfresh : ¬ Aged t a.time) : a.Replays B x frame := by
  have hlookup := h.lookup_hit hfresh
  have hrun : a.run B x = (.cachedFrame frame, (a.start.lookup (some x)).2) :=
    execute_pipeline_hit (by rw [hlookup])
  rw [Attempt.Replays, hrun, hlookup]
  exact ⟨rfl, rfl, rfl⟩

theorem Dated.afresh {a : Attempt C σ} (B : Backend C σ) (h : Dated x t a.start)
    (haged : Aged t a.time) : a.Afresh B x := by
  refine execute_pipeline_miss ?_
  rw [Dispatcher.lookup_some]
  exact IdempotencyMap.live_eq_none.mpr fun entry he => haged.mono (h entry he) le_rfl

/-- When a pipeline that is executed caches its response. -/
def completedAt (B : Backend C σ) (auth : Option C.AuthContext) (P : List Command) (x : String)
    (d : Dispatcher C σ) : Instant :=
  (executeAll B auth P (d.lookup (some x)).2).2.instants.head

/-- After a pipeline has been executed under `x`, every attempt under `x` within the lifetime of
its entry is answered with its frame, and the first one after that is executed. -/
theorem retries_replay_then_run (B : Backend C σ) (auth : Option C.AuthContext) (P : List Command)
    (x : String) (d : Dispatcher C σ) (hclock : Ticking d.instants)
    (hmiss : d.idempotency.live x d.instants.head = none) (later : List (Occurrence C)) :
    let t := completedAt B auth P x d
    let reply := execute B auth (.pipeline P (some x)) d
    let as := Occurrence.attempts B x later reply.2
    (∀ a ∈ as, ¬ Aged t a.time → a.Replays B x (responseToFrame reply.1)) ∧
      ∀ a, as.find? (fun a => Aged t a.time) = some a → a.Afresh B x := by
  intro t reply as
  have hlookup : (d.lookup (some x)).1 = none := by rw [Dispatcher.lookup_some, hmiss]
  have hreply : reply = _ := execute_pipeline_miss hlookup
  have hticking : Ticking reply.2.instants :=
    (execute_drift B auth (.pipeline P (some x)) d hclock).1
  have hentry : reply.2.idempotency x = some ⟨responseToFrame reply.1, t⟩ := by
    rw [hreply]
    exact IdempotencyMap.update_same
  have hkept : Kept x (responseToFrame reply.1) t reply.2 := ⟨hticking, fun _ => hentry⟩
  have hdated : Dated x t reply.2 := by
    intro entry he
    rw [hentry] at he
    cases he
    exact le_rfl
  refine ⟨fun a ha hfresh => (occurrence_attempts_kept later hkept a ha).replays B hfresh, ?_⟩
  intro a ha
  have haged : Aged t a.time := by simpa using List.find?_some ha
  exact ((occurrence_attempts_dated later hkept hdated).first ha).afresh B haged

end

namespace Memory

/-- A clock that is read every hundred seconds. -/
def steady : Stream' Instant := fun n => n * 100 * 10 ^ 9

theorem ticking_steady : Ticking steady :=
  fun _ _ h => Nat.mul_le_mul_right _ (Nat.mul_le_mul_right _ h)

/-- A write under an id, whose reply is cached at second 100. -/
def putOnce : Command := .pipeline [.put "a" [107] [118] none none] (some "x")

def cachedAt100 : CommandResponse crates × Dispatcher crates State :=
  execute backend (some writer) putOnce (.new [] steady (Stream'.const (some 0)))

/-- A reply from the cache at second 300 does not renew the entry: a retry a hundred seconds later
writes once more. -/
theorem retry_after_replay_runs :
    let replay := execute backend (some writer) putOnce cachedAt100.2.prune
    let a : Attempt crates State := ⟨some writer, [.put "a" [107] [118] none none], replay.2⟩
    cachedAt100.2.prune.instants.head = 300 * 10 ^ 9 ∧
      responseToFrame replay.1 = responseToFrame cachedAt100.1 ∧
      ¬ Aged (300 * 10 ^ 9) a.time ∧ ¬ a.Replays backend "x" (responseToFrame replay.1) := by
  refine ⟨rfl, rfl, by decide, fun h => ?_⟩
  cases h.2.1

theorem retries_of_putOnce :
    let later : List (Occurrence crates) := [.prune,
      .execute (some writer) (.pipeline [putOnce] none), .execute (some writer) putOnce]
    let as := Occurrence.attempts backend "x" later cachedAt100.2
    as.map Attempt.time = [300 * 10 ^ 9, 400 * 10 ^ 9] ∧
      (∀ a ∈ as, ¬ Aged (100 * 10 ^ 9) a.time →
        a.Replays backend "x" (responseToFrame cachedAt100.1)) ∧
      ∀ a, as.find? (fun a => Aged (100 * 10 ^ 9) a.time) = some a → a.Afresh backend "x" := by
  intro later
  exact ⟨rfl, retries_replay_then_run backend (some writer) [.put "a" [107] [118] none none] "x"
    (.new [] steady (Stream'.const (some 0))) ticking_steady rfl later⟩

end Memory

end Shroudb
