import Shroudb.Server.AuthGate
import Shroudb.Server.RateLimit

/-! How much a connection with a rate limit gets done, in either of its modes. -/
namespace Shroudb
open Wire Effect

variable {C : Crates} {σ : Type}

/-- What a client is throttled in: a token tried, a command executed, a subscription opened. -/
def Deed.costly : Deed C → Bool
  | .validated .. | .executed .. | .entered .. => true
  | .checkedExpiry .. => false

namespace Visit

def after (B : Backend C σ) (authRequired : Bool) (conn : Connection C) (v : Visit C σ) :
    Connection C :=
  (step B authRequired v.moment conn v.dispatcher v.input).connection

/-- How many costly things one input brings about. A pipeline is one command. -/
def costs (B : Backend C σ) (authRequired : Bool) (conn : Connection C) (v : Visit C σ) : ℕ :=
  (step B authRequired v.moment conn v.dispatcher v.input).deeds.countP Deed.costly

def instant (v : Visit C σ) : Instant := v.moment.instant

end Visit

/-- How many costly things the inputs bring about, one after the other. -/
def costsOf (B : Backend C σ) (authRequired : Bool) (conn : Connection C)
    (visits : List (Visit C σ)) : ℕ :=
  Schedule.total (Visit.after B authRequired) (Visit.costs B authRequired) conn visits

/-! ## One input -/

/-- At most `n` costly things were done, and the limiter was left alone. -/
structure Spends (l : Option RateLimiter) (n : ℕ) (o : Outcome C σ) : Prop where
  limiter : o.connection.rateLimiter = l
  deeds : o.deeds.countP Deed.costly ≤ n

section
variable {B : Backend C σ} {authRequired : Bool} {m : Moment C} {conn : Connection C}
  {d : Dispatcher C σ} {deeds : List (Deed C)} {n : ℕ}

theorem spends_respond {l : Option RateLimiter} {frame : Resp3Frame} (hl : conn.rateLimiter = l)
    (hn : deeds.countP Deed.costly ≤ n) : Spends l n (respond m conn d deeds frame) := by
  refine ⟨?_, hn⟩
  unfold respond
  split_ifs
  · exact hl
  · exact hl

theorem spends_openSubscription {ns : String} (hfree : deeds.countP Deed.costly = 0)
    (answer : Except (StoreError C.ValidationError) Unit) :
    Spends conn.rateLimiter 1 (openSubscription m conn d deeds ns answer) := by
  cases answer with
  | error e => exact spends_respond rfl (by omega)
  | ok u =>
    refine spends_respond rfl ?_
    rw [List.countP_append, hfree]
    exact Nat.le_refl 1

theorem spends_handleAdmitted (hfree : deeds.countP Deed.costly = 0) (command : Command) :
    Spends conn.rateLimiter 1 (handleAdmitted B authRequired m conn d deeds command) := by
  unfold handleAdmitted
  split
  · unfold handleSubscribe
    dsimp only
    split
    · split
      · exact spends_respond rfl (by omega)
      · exact spends_openSubscription hfree _
    · split_ifs
      · exact spends_respond rfl (by omega)
      · exact spends_openSubscription hfree _
  · refine spends_respond rfl ?_
    rw [List.countP_append, hfree]
    exact Nat.le_refl 1

theorem spends_handleUnexpired (command : Command) :
    Spends conn.rateLimiter 1 (handleUnexpired B authRequired m conn d command) := by
  unfold handleUnexpired
  split
  · exact spends_handleAdmitted rfl command
  · split
    · exact ⟨rfl, Nat.zero_le 1⟩
    · dsimp only
      split_ifs
      · exact spends_respond rfl (Nat.zero_le 1)
      · exact spends_handleAdmitted rfl command

theorem spends_handleLimited (conn : Connection C) (command : Command) :
    Spends conn.rateLimiter 1 (handleLimited B authRequired m conn d command) := by
  unfold handleLimited
  split
  · unfold handleAuth
    split
    · exact spends_respond rfl (Nat.le_refl 1)
    · exact spends_respond rfl (Nat.le_refl 1)
  · exact spends_handleUnexpired .ping
  · split_ifs
    · exact spends_respond rfl (Nat.zero_le 1)
    · exact spends_handleUnexpired _

/-- A command that the limiter refuses costs nothing. -/
theorem spends_handleCommand {l : RateLimiter} (hl : conn.rateLimiter = some l)
    (command : Command) : Spends (some (l.acquire m.instant)) (l.admits m.instant)
      (handleCommand B authRequired m conn d command) := by
  rw [handleCommand, hl]
  dsimp only
  rw [RateLimiter.acquire, RateLimiter.admits]
  split_ifs
  · exact spends_handleLimited { conn with rateLimiter := some (l.tryAcquire m.instant).2 } command
  · exact spends_respond rfl (Nat.le_refl 0)

/-- An input asks the limiter once, or it costs nothing. -/
theorem spends_step {l : RateLimiter} (hl : conn.rateLimiter = some l) (input : Input) :
    Spends (some l) 0 (step B authRequired m conn d input) ∨
      Spends (some (l.acquire m.instant)) (l.admits m.instant)
        (step B authRequired m conn d input) := by
  unfold step
  split
  case h_5 =>
    unfold handleFrame
    split
    · exact Or.inl (spends_respond hl (Nat.le_refl 0))
    · exact Or.inr (spends_handleCommand hl _)
  case h_8 =>
    unfold handleSubscribedFrame
    split <;> exact Or.inl ⟨hl, Nat.le_refl 0⟩
  case h_10 =>
    unfold handleEvent
    split
    · exact Or.inl (spends_respond hl (Nat.le_refl 0))
    · exact Or.inl ⟨hl, Nat.le_refl 0⟩
  all_goals exact Or.inl ⟨hl, Nat.le_refl 0⟩

end

/-! ## Whole runs -/

theorem secondsBetween_mono {s s' t t' : Instant} (hs : s ≤ s') (ht : t' ≤ t) :
    secondsBetween s' t' ≤ secondsBetween s t := by
  have hle : t' - s' ≤ t - s := (Nat.sub_le_sub_right ht s').trans (Nat.sub_le_sub_left hs t)
  have hcast : ((t' - s' : ℕ) : ℚ) ≤ (t - s : ℕ) := Nat.cast_le.mpr hle
  unfold secondsBetween
  exact div_le_div_of_nonneg_right hcast (by positivity)

/-- The times at which inputs ask the limiter, and what it admits of them. -/
theorem exists_times (B : Backend C σ) (authRequired : Bool) {conn : Connection C}
    {l : RateLimiter} (hl : conn.rateLimiter = some l) (visits : List (Visit C σ)) :
    ∃ times : List Instant, times.Sublist (visits.map Visit.instant) ∧
      (Schedule.run (Visit.after B authRequired) conn visits).rateLimiter = some (l.after times) ∧
      costsOf B authRequired conn visits ≤ l.admitted times := by
  induction visits generalizing conn l with
  | nil => exact ⟨[], .slnil, hl, Nat.le_refl 0⟩
  | cons v visits ih =>
    rcases spends_step hl v.input with hfree | hasked
    · have hlimiter : (v.after B authRequired conn).rateLimiter = some l := hfree.limiter
      obtain ⟨times, hsub, hafter, hcosts⟩ := ih hlimiter
      refine ⟨times, hsub.cons _, hafter, ?_⟩
      have hcost : v.costs B authRequired conn ≤ 0 := hfree.deeds
      change v.costs B authRequired conn + costsOf B authRequired _ visits ≤ _
      omega
    · have hlimiter : (v.after B authRequired conn).rateLimiter = some (l.acquire v.instant) :=
        hasked.limiter
      obtain ⟨times, hsub, hafter, hcosts⟩ := ih hlimiter
      refine ⟨v.instant :: times, hsub.cons_cons _, hafter, ?_⟩
      rw [RateLimiter.admitted_cons]
      exact Nat.add_le_add hasked.deeds hcosts

/-- No time of a run is later than its last. -/
theorem le_last {start : Instant} {visits : List (Visit C σ)} {last : Visit C σ}
    (h : (start :: visits.map Visit.instant).Pairwise (· ≤ ·))
    (hlast : visits.getLast? = some last) :
    ∀ t ∈ start :: visits.map Visit.instant, t ≤ last.instant := by
  obtain ⟨before, rfl⟩ := List.getLast?_eq_some_iff.mp hlast
  rw [List.map_append, ← List.cons_append] at h ⊢
  intro t ht
  rcases List.mem_append.mp ht with ht | ht
  · exact (List.pairwise_append.mp h).2.2 t ht last.instant (List.mem_singleton_self _)
  · exact (List.mem_singleton.mp ht).le

/-- The last of some times of a run is not later than the last of the run. -/
theorem getLastD_le_last {start : Instant} {visits : List (Visit C σ)} {last : Visit C σ}
    {times : List Instant} (hsub : times.Sublist (visits.map Visit.instant))
    (h : (start :: visits.map Visit.instant).Pairwise (· ≤ ·))
    (hlast : visits.getLast? = some last) :
    times.getLastD start ≤ last.instant :=
  le_last h hlast _ ((hsub.cons_cons start).subset List.getLastD_mem_cons)

/-- A connection with a limit of `limit` per second, whatever its client sends in either mode and
whatever others do to the store: from its start it tries tokens, executes commands and opens
subscriptions at most once more than the time since allows, and over any stretch of inputs at most
`limit` times more than the time between them allows. -/
theorem connection_throttled (B : Backend C σ) (authRequired : Bool) (limit : UInt32)
    (start : Instant) (past window : List (Visit C σ))
    (hclock : (start :: (past ++ window).map Visit.instant).Pairwise (· ≤ ·)) :
    let conn := Connection.new C authRequired (some limit) start
    (∀ t ∈ past.getLast?, costsOf B authRequired conn past ≤
      1 + limit.toNat * secondsBetween start t.instant) ∧
    ∀ s ∈ window.head?, ∀ t ∈ window.getLast?,
      costsOf B authRequired (Schedule.run (Visit.after B authRequired) conn past) window ≤
        limit.toNat + limit.toNat * secondsBetween s.instant t.instant := by
  intro conn
  let l := RateLimiter.new limit.toNat limit.toNat start
  have hnew : l.Nonneg := ⟨zero_le_one, Nat.cast_nonneg _, Nat.cast_nonneg _⟩
  have hlimiter : conn.rateLimiter = some l := rfl
  obtain ⟨times, hsub, hafter, hcosts⟩ := exists_times B authRequired hlimiter past
  rw [List.map_append, ← List.cons_append, List.pairwise_append] at hclock
  obtain ⟨hpast, hwindow, -⟩ := hclock
  refine ⟨fun t ht => ?_, fun s hs t ht => ?_⟩
  · have hadmitted : l.admitted times + (l.after times).tokens ≤
        1 + limit.toNat * secondsBetween start (times.getLastD start) :=
      RateLimiter.admitted_le (hpast.sublist (hsub.cons_cons start))
    have htime : secondsBetween start (times.getLastD start) ≤ secondsBetween start t.instant :=
      secondsBetween_mono le_rfl (getLastD_le_last hsub hpast ht)
    have hrate : (limit.toNat : ℚ) * secondsBetween start (times.getLastD start) ≤
        limit.toNat * secondsBetween start t.instant :=
      mul_le_mul_of_nonneg_left htime (Nat.cast_nonneg _)
    have hcast : (costsOf B authRequired conn past : ℚ) ≤ l.admitted times := Nat.cast_le.mpr hcosts
    linarith [(hnew.after times).tokens]
  · obtain ⟨times', hsub', -, hcosts'⟩ := exists_times B authRequired hafter window
    obtain ⟨rest, rfl⟩ : ∃ rest, window = s :: rest := List.head?_eq_some_iff.mp hs
    have hfirst : ∀ time ∈ (s :: rest).map Visit.instant, s.instant ≤ time := by
      intro time htime
      rcases List.mem_cons.mp htime with rfl | htime
      · exact le_rfl
      · exact List.rel_of_pairwise_cons hwindow htime
    have hstart := List.pairwise_cons.mpr ⟨hfirst, hwindow⟩
    have hcast : (costsOf B authRequired
        (Schedule.run (Visit.after B authRequired) conn past) (s :: rest) : ℚ) ≤
          (l.after times).admitted times' := Nat.cast_le.mpr hcosts'
    refine hcast.trans ?_
    cases times' with
    | nil =>
      have hnonneg := mul_nonneg (Nat.cast_nonneg (α := ℚ) limit.toNat)
        (RateLimiter.secondsBetween_nonneg s.instant t.instant)
      have hzero : ((l.after times).admitted [] : ℚ) = 0 := Nat.cast_zero
      linarith [Nat.cast_nonneg (α := ℚ) limit.toNat]
    | cons s' times' =>
      have hadmitted := RateLimiter.admitted_cons_le (hnew.after times) (hwindow.sublist hsub')
      have hs' : s.instant ≤ s' := hfirst s' (hsub'.subset List.mem_cons_self)
      have ht' : times'.getLastD s' ≤ t.instant :=
        le_last hstart ht _ (List.mem_cons_of_mem _ (hsub'.subset List.getLastD_mem_cons))
      have htime := mul_le_mul_of_nonneg_left (secondsBetween_mono hs' ht')
        (Nat.cast_nonneg (α := ℚ) limit.toNat)
      have hmax : (l.after times).maxTokens = limit.toNat := RateLimiter.after_maxTokens
      have hrate : (l.after times).refillRate = limit.toNat := RateLimiter.after_refillRate
      rw [hmax, hrate] at hadmitted
      linarith

namespace Memory

/-- A token is tried. -/
def guess (instant : Instant) : Visit crates State where
  moment := ⟨instant, some 0, fun _ => .error "unknown token", true⟩
  dispatcher := .new [] (Stream'.const 0) (Stream'.const none)
  input := .frame (commandFrame ["AUTH", "x"])

/-- With one request per second, only the first of two guesses at a time is tried. -/
theorem second_guess_refused :
    let conn := Connection.new crates true (some 1) 0
    let later := Schedule.run (Visit.after backend true) conn [guess 0]
    let window := [guess (10 ^ 9), guess (10 ^ 9)]
    costsOf backend true later window = 1 ∧
      (costsOf backend true later window : ℚ) ≤
        (1 : UInt32).toNat + (1 : UInt32).toNat * secondsBetween (10 ^ 9) (10 ^ 9) := by
  intro conn later window
  have hbound := connection_throttled backend true 1 0 [guess 0] window (by decide)
  exact ⟨by decide +kernel, hbound.2 (guess (10 ^ 9)) rfl (guess (10 ^ 9)) rfl⟩

end Memory

end Shroudb
