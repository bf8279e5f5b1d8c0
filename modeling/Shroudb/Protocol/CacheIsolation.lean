import Mathlib.Order.Monotone.Basic
import Shroudb.Protocol.AclCoverage

/-! When one principal's use of a request id shows in the pipeline of another. -/
namespace Shroudb
open Effect

/-- An entry of time `t` has outlived its time at `now`. -/
def Aged (t now : Instant) : Prop := defaultTtlSecs ≤ (now - t) / 10 ^ 9

theorem Aged.mono {t t' now now' : Nat} (h : Aged t now) (ht : t' ≤ t) (hn : now ≤ now') :
    Aged t' now' := by
  unfold Aged at *
  omega

theorem Aged.le {t now : Nat} (h : Aged t now) : t ≤ now := by
  unfold Aged defaultTtlSecs at h
  omega

theorem CachedResponse.expired_iff {entry : CachedResponse} {now : Instant} :
    entry.expired now = true ↔ Aged entry.createdAt now := by
  simp [expired, elapsedSecs, Aged]

theorem CachedResponse.not_expired {frame : Resp3Frame} {t now : Instant} (h : ¬ Aged t now) :
    CachedResponse.expired ⟨frame, t⟩ now = false := by
  rw [← Bool.not_eq_true, expired_iff]
  exact h

namespace IdempotencyMap
variable {m : IdempotencyMap} {id id' : String} {t now : Instant} {frame : Resp3Frame}

theorem live_eq_none :
    m.live id now = none ↔ ∀ entry, m id = some entry → Aged entry.createdAt now := by
  unfold live
  cases h : m id with
  | none => simp
  | some entry =>
    simp only [Option.some.injEq, forall_eq', ← CachedResponse.expired_iff]
    cases entry.expired now <;> simp

theorem exists_of_live (h : m.live id now = some frame) :
    ∃ entry, m id = some entry ∧ entry.frame = frame := by
  unfold live at h
  cases hm : m id with
  | none => simp [hm] at h
  | some entry =>
    simp only [hm] at h
    split_ifs at h
    exact ⟨entry, rfl, Option.some.inj h⟩

/-- What is not live stays so. -/
theorem live_eq_none_of_le (h : m.live id t = none) (hle : t ≤ now) : m.live id now = none := by
  rw [live_eq_none] at h ⊢
  exact fun entry he => (h entry he).mono le_rfl hle

theorem update_same {entry : Option CachedResponse} :
    (Function.update m id entry : IdempotencyMap) id = entry :=
  Function.update_self id entry m

theorem live_update_ne {entry : Option CachedResponse} (h : id' ≠ id) :
    live (Function.update m id entry) id' now = m.live id' now := by
  have hsame : (Function.update m id entry : IdempotencyMap) id' = m id' :=
    Function.update_of_ne h entry m
  unfold live
  rw [hsame]

/-- A lookup changes nothing that a later lookup sees. -/
theorem live_get (hle : t ≤ now) : (m.get id t).2.live id' now = m.live id' now := by
  unfold get
  cases hm : m id with
  | none => rfl
  | some entry =>
    dsimp only
    split
    · rename_i hexp
      by_cases hid : id' = id
      · subst hid
        have hnone : m.live id' t = none := by
          rw [live_eq_none]
          intro e he
          obtain rfl : entry = e := Option.some.inj (hm.symm.trans he)
          exact CachedResponse.expired_iff.mp hexp
        rw [live_eq_none_of_le hnone hle, live_eq_none]
        intro e he
        cases update_same.symm.trans he
      · exact live_update_ne hid
    · rfl

theorem live_insert_ne (h : id' ≠ id) : (m.insert id frame t).live id' now = m.live id' now :=
  live_update_ne h

theorem live_insert (m : IdempotencyMap) :
    (m.insert id frame t).live id now =
      if CachedResponse.expired ⟨frame, t⟩ now then none else some frame := by
  rw [live, insert, update_same]

theorem live_insert_eq_none : (m.insert id frame t).live id now = none ↔ Aged t now := by
  rw [live_eq_none, insert, update_same]
  simp

end IdempotencyMap

/-- A clock that does not go back. -/
def Ticking (s : Stream' Instant) : Prop := Monotone s.get

theorem Ticking.head_le {s : Stream' Instant} (h : Ticking s) : s.head ≤ s.tail.head :=
  h (Nat.zero_le 1)

theorem Ticking.tail {s : Stream' Instant} (h : Ticking s) : Ticking s.tail :=
  fun _ _ hle => h (Nat.succ_le_succ hle)

section
variable {C : Crates} {σ : Type} {B : Backend C σ} {auth : Option C.AuthContext}
  {d d' : Dispatcher C σ}

theorem executeLeaf_cache (B : Backend C σ) (auth : Option C.AuthContext) (cmd : Command) :
    (executeLeaf B auth cmd d).2.idempotency = d.idempotency ∧
    (executeLeaf B auth cmd d).2.instants = d.instants := by
  rw [executeLeaf]
  cases aclCheck auth cmd.aclRequirement with
  | some e => exact ⟨rfl, rfl⟩
  | none =>
    refine Program.run_invariant (p := dispatch B.hasEngine cmd)
      (I := fun d' : Dispatcher C σ =>
        d'.idempotency = d.idempotency ∧ d'.instants = d.instants)
      ?_ Program.uses_any ⟨rfl, rfl⟩
    rintro (c | _) d' - h
    · exact h
    · exact h

/-- Between `d` and `d'` time passes, and once everything cached meanwhile has aged, the two
caches answer alike. -/
def Drift (d d' : Dispatcher C σ) : Prop :=
  Ticking d.instants → Ticking d'.instants ∧ d.instants.head ≤ d'.instants.head ∧
    ∀ id now, Aged d'.instants.head now → d'.idempotency.live id now = d.idempotency.live id now

theorem drift_lookup (id : Option String) (d : Dispatcher C σ) : Drift d (d.lookup id).2 := by
  intro hd
  cases id with
  | none => exact ⟨hd, le_rfl, fun _ _ _ => rfl⟩
  | some id =>
    rw [Dispatcher.lookup_some]
    refine ⟨hd.tail, hd.head_le, fun id' now haged => ?_⟩
    exact IdempotencyMap.live_get (hd.head_le.trans haged.le)

/-- After a miss, what the call remembers itself does not matter once it has aged. -/
theorem live_remember {id id' : String} {response : CommandResponse C} {now : Instant}
    (hd : Ticking d.instants) (hmiss : (d.lookup (some id)).1 = none)
    (h : Drift (d.lookup (some id)).2 d') (haged : Aged d'.instants.head now) :
    (d'.remember (some id) response).idempotency.live id' now = d.idempotency.live id' now := by
  obtain ⟨hl, hle, hlive⟩ := drift_lookup (some id) d hd
  obtain ⟨-, hle', hlive'⟩ := h hl
  rw [Dispatcher.remember_some]
  by_cases hid : id' = id
  · subst hid
    have hnone : d.idempotency.live id' now = none := by
      rw [Dispatcher.lookup_some] at hmiss
      exact IdempotencyMap.live_eq_none_of_le hmiss ((hle.trans hle').trans haged.le)
    rw [hnone]
    exact IdempotencyMap.live_insert_eq_none.mpr haged
  · calc (d'.idempotency.insert id (responseToFrame response) d'.instants.head).live id' now
        = d'.idempotency.live id' now := IdempotencyMap.live_insert_ne hid
      _ = (d.lookup (some id)).2.idempotency.live id' now := hlive' id' now haged
      _ = d.idempotency.live id' now := hlive id' now (haged.mono hle' le_rfl)

theorem drift_remember {id : Option String} {response : CommandResponse C}
    (hmiss : (d.lookup id).1 = none) (h : Drift (d.lookup id).2 d') :
    Drift d (d'.remember id response) := by
  intro hd
  obtain ⟨hl, hle, -⟩ := drift_lookup id d hd
  obtain ⟨hd', hle', hlive'⟩ := h hl
  cases id with
  | none => exact ⟨hd', hle', hlive'⟩
  | some id =>
    refine ⟨hd'.tail, hle.trans (hle'.trans hd'.head_le), fun id' now haged => ?_⟩
    exact live_remember hd hmiss h (haged.mono hd'.head_le le_rfl)

theorem Drift.refl (d : Dispatcher C σ) : Drift d d := fun hd => ⟨hd, le_rfl, fun _ _ _ => rfl⟩

theorem Drift.trans {d₁ d₂ d₃ : Dispatcher C σ} (h₁ : Drift d₁ d₂) (h₂ : Drift d₂ d₃) :
    Drift d₁ d₃ := by
  intro hd
  obtain ⟨hd₂, hle₁, hlive₁⟩ := h₁ hd
  obtain ⟨hd₃, hle₂, hlive₂⟩ := h₂ hd₂
  refine ⟨hd₃, hle₁.trans hle₂, fun id now haged => ?_⟩
  exact (hlive₂ id now haged).trans (hlive₁ id now (haged.mono hle₂ le_rfl))

theorem drift_leaf (B : Backend C σ) (auth : Option C.AuthContext) (cmd : Command)
    (d : Dispatcher C σ) : Drift d (executeLeaf B auth cmd d).2 := by
  intro hd
  obtain ⟨hcache, hinstants⟩ := executeLeaf_cache (d := d) B auth cmd
  rw [hcache, hinstants]
  exact ⟨hd, le_rfl, fun _ _ _ => rfl⟩

theorem execute_drift (B : Backend C σ) (auth : Option C.AuthContext) (cmd : Command)
    (d : Dispatcher C σ) : Drift d (execute B auth cmd d).2 :=
  execute_leads Drift.refl (fun _ _ _ => Drift.trans) (drift_leaf B auth) drift_lookup
    (fun _ _ _ _ => drift_remember) cmd d

theorem executeAll_drift (B : Backend C σ) (auth : Option C.AuthContext) (cs : List Command)
    (d : Dispatcher C σ) : Drift d (executeAll B auth cs d).2 := by
  have h := execute_drift B auth (.pipeline cs none) d
  rwa [execute_pipeline_miss rfl] at h

/-- Dispatchers that a later call cannot tell apart. -/
structure Alike (d d' : Dispatcher C σ) : Prop where
  store : d.store = d'.store
  instants : d.instants = d'.instants
  wall : d.wall = d'.wall
  ticking : Ticking d.instants
  live : ∀ id now, d.instants.head ≤ now →
    d.idempotency.live id now = d'.idempotency.live id now

theorem alike_answer (op : Op C) (h : Alike d d') :
    (Dispatcher.answer B op d).1 = (Dispatcher.answer B op d').1 ∧
    Alike (Dispatcher.answer B op d).2 (Dispatcher.answer B op d').2 := by
  cases op with
  | call c =>
    simp only [Dispatcher.answer, h.store]
    exact ⟨rfl, rfl, h.instants, h.wall, h.ticking, h.live⟩
  | systemTime =>
    simp only [Dispatcher.answer, h.wall]
    exact ⟨rfl, h.store, h.instants, rfl, h.ticking, h.live⟩

theorem alike_lookup (id : Option String) (h : Alike d d') :
    (d.lookup id).1 = (d'.lookup id).1 ∧ Alike (d.lookup id).2 (d'.lookup id).2 := by
  cases id with
  | none => exact ⟨rfl, h⟩
  | some id =>
    rw [Dispatcher.lookup_some, Dispatcher.lookup_some, ← h.instants]
    refine ⟨h.live id _ le_rfl, h.store, rfl, h.wall, h.ticking.tail, fun id' now hle => ?_⟩
    have hle' : d.instants.head ≤ now := h.ticking.head_le.trans hle
    calc (d.idempotency.get id d.instants.head).2.live id' now
        = d.idempotency.live id' now := IdempotencyMap.live_get hle'
      _ = d'.idempotency.live id' now := h.live id' now hle'
      _ = (d'.idempotency.get id d.instants.head).2.live id' now :=
        (IdempotencyMap.live_get hle').symm

theorem alike_remember (id : Option String) (response : CommandResponse C) (h : Alike d d') :
    Alike (d.remember id response) (d'.remember id response) := by
  cases id with
  | none => exact h
  | some id =>
    rw [Dispatcher.remember_some, Dispatcher.remember_some, ← h.instants]
    refine ⟨h.store, rfl, h.wall, h.ticking.tail, fun id' now hle => ?_⟩
    have hle' : d.instants.head ≤ now := h.ticking.head_le.trans hle
    by_cases hid : id' = id
    · subst hid
      rw [IdempotencyMap.live_insert, IdempotencyMap.live_insert]
    · calc (d.idempotency.insert id (responseToFrame response) d.instants.head).live id' now
          = d.idempotency.live id' now := IdempotencyMap.live_insert_ne hid
        _ = d'.idempotency.live id' now := h.live id' now hle'
        _ = (d'.idempotency.insert id (responseToFrame response) d.instants.head).live id' now :=
          (IdempotencyMap.live_insert_ne hid).symm

theorem execute_alike (B : Backend C σ) (auth : Option C.AuthContext) (cmd : Command)
    (h : Alike d d') :
    (execute B auth cmd d).1 = (execute B auth cmd d').1 ∧
    Alike (execute B auth cmd d).2 (execute B auth cmd d').2 :=
  execute_related (fun op _ _ => alike_answer op) (fun id _ _ => alike_lookup id)
    (fun id r _ _ => alike_remember id r) cmd h

theorem length_executeAll (cs : List Command) (d : Dispatcher C σ) :
    (executeAll B auth cs d).1.length = cs.length := by
  induction cs generalizing d with
  | nil => rfl
  | cons c cs ih => exact congrArg (· + 1) (ih _)

/-- The dispatcher that a call at the time of `d'` finds when nothing was called since `d`. -/
def Dispatcher.waited (d d' : Dispatcher C σ) : Dispatcher C σ :=
  { d with instants := d'.instants, wall := d'.wall }

variable {P : List Command} {x : String}

theorem alike_of_hit {frame : Resp3Frame} (hclock : Ticking d.instants)
    (hhit : d.idempotency.live x d.instants.head = some frame) :
    Alike (execute B auth (.pipeline P (some x)) d).2
      (d.waited (execute B auth (.pipeline P (some x)) d).2) := by
  rw [execute_pipeline_hit (by rw [Dispatcher.lookup_some, hhit]), Dispatcher.lookup_some]
  refine ⟨rfl, rfl, rfl, hclock.tail, fun id now hle => ?_⟩
  exact IdempotencyMap.live_get (hclock.head_le.trans hle)

theorem alike_of_aged (hclock : Ticking d.instants)
    (hmiss : d.idempotency.live x d.instants.head = none)
    (hstore : (execute B auth (.pipeline P (some x)) d).2.store = d.store)
    (hold : (execute B auth (.pipeline P (some x)) d).2.idempotency.live x
      (execute B auth (.pipeline P (some x)) d).2.instants.head = none) :
    Alike (execute B auth (.pipeline P (some x)) d).2
      (d.waited (execute B auth (.pipeline P (some x)) d).2) := by
  have hlookup : (d.lookup (some x)).1 = none := by rw [Dispatcher.lookup_some, hmiss]
  have hticking := (execute_drift B auth (.pipeline P (some x)) d hclock).1
  rw [execute_pipeline_miss hlookup] at hstore hold hticking ⊢
  refine ⟨hstore, rfl, rfl, hticking, fun id now hle => ?_⟩
  have haged := IdempotencyMap.live_insert_eq_none.mp hold
  exact live_remember (d := d) hclock hlookup (executeAll_drift B auth P _) (haged.mono le_rfl hle)

/-- A pipeline under an id that is live is answered with what is cached. -/
theorem execute_live {frame : Resp3Frame} (Q : List Command)
    (h : d.idempotency.live x d.instants.head = some frame) :
    (execute B auth (.pipeline Q (some x)) d).1 = .cachedFrame frame := by
  rw [execute_pipeline_hit (by rw [Dispatcher.lookup_some, h])]

theorem execute_not_live (B : Backend C σ) (auth : Option C.AuthContext) (Q : List Command)
    (h : d.idempotency.live x d.instants.head = none) :
    ∃ results, results.length = Q.length ∧
      (execute B auth (.pipeline Q (some x)) d).1 = .array results := by
  rw [execute_pipeline_miss (by rw [Dispatcher.lookup_some, h])]
  exact ⟨_, length_executeAll Q _, rfl⟩

/-- What is live after a call that missed is the call's own response. -/
theorem live_after_miss {frame : Resp3Frame} {now : Instant}
    (hmiss : d.idempotency.live x d.instants.head = none)
    (h : (execute B auth (.pipeline P (some x)) d).2.idempotency.live x now = some frame) :
    ∃ results : List (CommandResponse C), results.length = P.length ∧
      frame = responseToFrame (.array results) := by
  rw [execute_pipeline_miss (by rw [Dispatcher.lookup_some, hmiss]), Dispatcher.remember_some] at h
  refine ⟨(executeAll B auth P (d.lookup (some x)).2).1, length_executeAll P _, ?_⟩
  rw [IdempotencyMap.live_insert] at h
  split at h
  · cases h
  · exact (Option.some.inj h).symm

/-- Alice's pipeline, which leaves the store as it was, shows in no later pipeline of Bob under
the same id exactly when her own call was answered from the cache or her entry has expired. -/
theorem cache_isolation_iff (B : Backend C σ) (alice bob : Option C.AuthContext) (x : String)
    (P : List Command) (d : Dispatcher C σ) (hclock : Ticking d.instants)
    (hstore : (execute B alice (.pipeline P (some x)) d).2.store = d.store) :
    let after := (execute B alice (.pipeline P (some x)) d).2
    (∀ Q : List Command,
      let r := execute B bob (.pipeline Q (some x)) after
      let r' := execute B bob (.pipeline Q (some x)) (d.waited after)
      responseToFrame r.1 = responseToFrame r'.1 ∧ r.2.store = r'.2.store) ↔
    (d.idempotency.live x d.instants.head).isSome ∨
      after.idempotency.live x after.instants.head = none := by
  intro after
  constructor
  · intro h
    by_contra hneither
    obtain ⟨hmiss, hlive⟩ := not_or.mp hneither
    rw [Option.not_isSome_iff_eq_none] at hmiss
    obtain ⟨frame, hframe⟩ := Option.ne_none_iff_exists'.mp hlive
    obtain ⟨results, hlen, rfl⟩ := live_after_miss hmiss hframe
    have hlater : (d.waited after).idempotency.live x (d.waited after).instants.head = none :=
      IdempotencyMap.live_eq_none_of_le hmiss (execute_drift B alice (.pipeline P (some x)) d hclock).2.1
    -- One command more than Alice sent.
    obtain ⟨results', hlen', hr'⟩ := execute_not_live B bob
      (List.replicate (P.length + 1) .ping) hlater
    have hsame := (h (List.replicate (P.length + 1) .ping)).1
    rw [execute_live _ hframe, hr'] at hsame
    simp only [responseToFrame, responsesToFrames_eq, Resp3Frame.array.injEq] at hsame
    have := congrArg List.length hsame
    simp [hlen, hlen'] at this
  · intro h Q
    have halike : Alike after (d.waited after) := by
      cases hl : d.idempotency.live x d.instants.head with
      | some frame => exact alike_of_hit hclock hl
      | none =>
        rw [hl] at h
        exact alike_of_aged hclock hl hstore (h.resolve_left (by simp))
    obtain ⟨hr, hafter⟩ := execute_alike B bob (.pipeline Q (some x)) halike
    exact ⟨congrArg responseToFrame hr, hafter.store⟩

end

namespace Memory

def alice : Principal := ⟨"tenant-a", "alice", false, [("a", .read)], none⟩

def bob : Principal := ⟨"tenant-b", "bob", false, [("b", .write)], none⟩

/-- A store with one value that only Alice may read. -/
def secret : State := [⟨"a", [107], [115], 1⟩]

def aliceReads : List Command := [.get "a" [107] none false]

theorem cache_isolation_fails_at_once :
    ¬ ∀ Q : List Command,
      let after := (execute backend (some alice) (.pipeline aliceReads (some "x")) (fresh secret)).2
      let r := execute backend (some bob) (.pipeline Q (some "x")) after
      let r' := execute backend (some bob) (.pipeline Q (some "x")) ((fresh secret).waited after)
      responseToFrame r.1 = responseToFrame r'.1 ∧ r.2.store = r'.2.store := by
  have hclock : Ticking (fresh secret).instants := fun _ _ _ => le_rfl
  intro h
  rcases (cache_isolation_iff backend (some alice) (some bob) "x" aliceReads (fresh secret)
    hclock rfl).mp h with hlive | hnone
  · cases hlive
  · cases hnone

/-- Bob's write is skipped, and he is sent the value that Alice read. -/
theorem bob_is_sent_alices_reply :
    let after := (execute backend (some alice) (.pipeline aliceReads (some "x")) (fresh secret)).2
    let write := Command.pipeline [.put "b" [107] [118] none none] (some "x")
    let r := execute backend (some bob) write after
    let r' := execute backend (some bob) write ((fresh secret).waited after)
    after.store = secret ∧
    r.1 = .cachedFrame (responseToFrame
      (execute backend (some alice) (.pipeline aliceReads none) (fresh secret)).1) ∧
    r.2.store = secret ∧ r'.2.store = ⟨"b", [107], [118], 1⟩ :: secret :=
  ⟨rfl, rfl, rfl, rfl⟩

end Memory

end Shroudb
