import Mathlib.Tactic.Linarith
import Mathlib.Tactic.Positivity
import Shroudb.Effect.Potential
import Shroudb.Server.Connection

/-! How many commands the rate limiter admits. -/
namespace Shroudb
open Effect

/-- The time from `s` to `t`. It is zero when `t` is not later. -/
def secondsBetween (s t : Instant) : ℚ := (t - s : ℕ) / 10 ^ 9

namespace RateLimiter

def acquire (l : RateLimiter) (now : Instant) : RateLimiter := (l.tryAcquire now).2

def admits (l : RateLimiter) (now : Instant) : ℕ := if (l.tryAcquire now).1 then 1 else 0

/-- The limiter after calls at the given times. -/
def after (l : RateLimiter) (times : List Instant) : RateLimiter := Schedule.run acquire l times

/-- How many of the calls at the given times are admitted. -/
def admitted (l : RateLimiter) (times : List Instant) : ℕ := Schedule.total acquire admits l times

variable {l : RateLimiter} {now : Instant} {times : List Instant}

/-! ## One call -/

/-- The tokens after the refill of a call at `now`. -/
def refilled (l : RateLimiter) (now : Instant) : ℚ :=
  min (l.tokens + secondsBetween l.lastRefill now * l.refillRate) l.maxTokens

/-- A call takes a token when there is one, and the other fields do not depend on that. -/
theorem acquire_cases (l : RateLimiter) (now : Instant) :
    (1 ≤ l.refilled now ∧ l.admits now = 1 ∧
      l.acquire now = { l with tokens := l.refilled now - 1, lastRefill := now }) ∨
    (l.refilled now < 1 ∧ l.admits now = 0 ∧
      l.acquire now = { l with tokens := l.refilled now, lastRefill := now }) := by
  by_cases h : 1 ≤ l.refilled now
  · have htry : l.tryAcquire now =
        (true, { l with tokens := l.refilled now - 1, lastRefill := now }) := if_pos h
    exact Or.inl ⟨h, by rw [admits, htry, if_pos rfl], by rw [acquire, htry]⟩
  · have htry : l.tryAcquire now =
        (false, { l with tokens := l.refilled now, lastRefill := now }) := if_neg h
    refine Or.inr ⟨lt_of_not_ge h, ?_, by rw [acquire, htry]⟩
    rw [admits, htry, if_neg Bool.false_ne_true]

@[simp] theorem acquire_lastRefill : (l.acquire now).lastRefill = now := by
  rcases acquire_cases l now with ⟨-, -, h⟩ | ⟨-, -, h⟩ <;> rw [h]

@[simp] theorem acquire_maxTokens : (l.acquire now).maxTokens = l.maxTokens := by
  rcases acquire_cases l now with ⟨-, -, h⟩ | ⟨-, -, h⟩ <;> rw [h]

@[simp] theorem acquire_refillRate : (l.acquire now).refillRate = l.refillRate := by
  rcases acquire_cases l now with ⟨-, -, h⟩ | ⟨-, -, h⟩ <;> rw [h]

/-- A call only moves a token from the bucket to the caller. -/
theorem admits_add_tokens : l.admits now + (l.acquire now).tokens = l.refilled now := by
  rcases acquire_cases l now with ⟨-, hadmits, h⟩ | ⟨-, hadmits, h⟩
  · rw [hadmits, h]
    simp
  · rw [hadmits, h]
    simp

/-- The signs that calls keep. -/
structure Nonneg (l : RateLimiter) : Prop where
  tokens : 0 ≤ l.tokens
  maxTokens : 0 ≤ l.maxTokens
  refillRate : 0 ≤ l.refillRate

theorem secondsBetween_nonneg (s t : Instant) : 0 ≤ secondsBetween s t := by
  unfold secondsBetween
  positivity

theorem Nonneg.acquire (h : l.Nonneg) (now : Instant) : (l.acquire now).Nonneg := by
  refine ⟨?_, by simpa using h.maxTokens, by simpa using h.refillRate⟩
  have hrefilled : 0 ≤ l.refilled now := by
    refine le_min ?_ h.maxTokens
    have := mul_nonneg (secondsBetween_nonneg l.lastRefill now) h.refillRate
    linarith [h.tokens]
  rcases acquire_cases l now with ⟨hone, -, h⟩ | ⟨-, -, h⟩
  · rw [h]
    exact sub_nonneg.mpr hone
  · rw [h]
    exact hrefilled

/-! ## Whole runs -/

/-- The tokens there would have been at time zero, with no cap. A call can only lower it. -/
def potential (l : RateLimiter) : ℚ := l.tokens - l.refillRate * (l.lastRefill / 10 ^ 9)

theorem admits_add_potential (h : l.lastRefill ≤ now) :
    l.admits now + (l.acquire now).potential ≤ l.potential := by
  have htokens : l.admits now + (l.acquire now).tokens = l.refilled now := admits_add_tokens
  have hcap : l.refilled now ≤ l.tokens + secondsBetween l.lastRefill now * l.refillRate :=
    min_le_left _ _
  have helapsed : secondsBetween l.lastRefill now = now / 10 ^ 9 - l.lastRefill / 10 ^ 9 := by
    rw [secondsBetween, Nat.cast_sub h, sub_div]
  rw [helapsed] at hcap
  simp only [potential, acquire_refillRate, acquire_lastRefill]
  linarith

/-- The clock does not go back between calls. -/
theorem guarded_of_sorted (h : (l.lastRefill :: times).Pairwise (· ≤ ·)) :
    Schedule.Guarded acquire (fun l t => l.lastRefill ≤ t) l times := by
  induction times generalizing l with
  | nil => trivial
  | cons t times ih =>
    rw [List.pairwise_cons] at h
    refine ⟨h.1 t List.mem_cons_self, ih ?_⟩
    rw [acquire_lastRefill]
    exact h.2

/-- What has been admitted is paid for by the tokens there were and the time since. -/
theorem admitted_add_potential (h : (l.lastRefill :: times).Pairwise (· ≤ ·)) :
    l.admitted times + (l.after times).potential ≤ l.potential := by
  have hcast : (l.admitted times : ℚ) =
      Schedule.total acquire (fun l t => (l.admits t : ℚ)) l times :=
    Schedule.map_total (Nat.castAddMonoidHom ℚ)
  rw [hcast]
  exact Schedule.total_le (fun _ _ => admits_add_potential) (guarded_of_sorted h)

theorem admitted_cons (t : Instant) :
    l.admitted (t :: times) = l.admits t + (l.acquire t).admitted times := rfl

theorem after_cons (t : Instant) : l.after (t :: times) = (l.acquire t).after times := rfl

theorem after_lastRefill : (l.after times).lastRefill = times.getLastD l.lastRefill := by
  induction times generalizing l with
  | nil => rfl
  | cons t times ih => rw [after_cons, ih, acquire_lastRefill, List.getLastD_cons]

theorem after_refillRate : (l.after times).refillRate = l.refillRate := by
  induction times generalizing l with
  | nil => rfl
  | cons t times ih => rw [after_cons, ih, acquire_refillRate]

theorem after_maxTokens : (l.after times).maxTokens = l.maxTokens := by
  induction times generalizing l with
  | nil => rfl
  | cons t times ih => rw [after_cons, ih, acquire_maxTokens]

theorem Nonneg.after (h : l.Nonneg) (times : List Instant) : (l.after times).Nonneg := by
  induction times generalizing l with
  | nil => exact h
  | cons t times ih => exact ih (h.acquire t)

/-- From what the bucket holds now, as many are admitted as there are tokens, and then as many as
are refilled until the last call. -/
theorem admitted_le (h : (l.lastRefill :: times).Pairwise (· ≤ ·)) :
    l.admitted times + (l.after times).tokens ≤
      l.tokens + l.refillRate * secondsBetween l.lastRefill (times.getLastD l.lastRefill) := by
  have hpaid := admitted_add_potential h
  have hlast : l.lastRefill ≤ times.getLastD l.lastRefill := by
    rcases List.eq_nil_or_concat times with rfl | ⟨before, t, rfl⟩
    · exact le_rfl
    · simp only [List.concat_eq_append, List.getLastD_concat]
      exact List.rel_of_pairwise_cons h (by simp)
  rw [potential, potential, after_lastRefill, after_refillRate] at hpaid
  rw [secondsBetween, Nat.cast_sub hlast, sub_div]
  linarith

/-- The first call caps the bucket, and what is admitted after it is paid for by the time. -/
theorem admitted_cons_le (hl : l.Nonneg) {s : Instant} {rest : List Instant}
    (h : (s :: rest).Pairwise (· ≤ ·)) :
    l.admitted (s :: rest) ≤ l.maxTokens + l.refillRate * secondsBetween s (rest.getLastD s) := by
  have hrest : ((l.acquire s).lastRefill :: rest).Pairwise (· ≤ ·) := by
    rw [acquire_lastRefill]
    exact h
  have hadmitted := admitted_le hrest
  have hcap : l.admits s + (l.acquire s).tokens ≤ l.maxTokens := by
    rw [admits_add_tokens]
    exact min_le_right _ _
  rw [acquire_lastRefill, acquire_refillRate] at hadmitted
  rw [admitted_cons, Nat.cast_add]
  linarith [((hl.acquire s).after rest).tokens]

end RateLimiter

/-- A limiter of `limit` per second never owes tokens. Of all calls up to time `t` it admits at most
one more than the time since its creation refills, and of any consecutive calls at most a full
bucket more than the time between them refills. -/
theorem admissions_bounded (limit : UInt32) (start : Instant) (past window : List Instant)
    (hclock : (start :: (past ++ window)).Pairwise (· ≤ ·)) :
    let l := RateLimiter.new limit.toNat limit.toNat start
    0 ≤ (l.after past).tokens ∧
    (∀ t ∈ past.getLast?, l.admitted past ≤ 1 + limit.toNat * secondsBetween start t) ∧
    ∀ s ∈ window.head?, ∀ t ∈ window.getLast?,
      (l.after past).admitted window ≤ limit.toNat + limit.toNat * secondsBetween s t := by
  intro l
  have hnew : l.Nonneg := ⟨zero_le_one, Nat.cast_nonneg _, Nat.cast_nonneg _⟩
  refine ⟨(hnew.after past).tokens, fun t ht => ?_, fun s hs t ht => ?_⟩
  · have hpast : (start :: past).Pairwise (· ≤ ·) :=
      hclock.sublist (List.sublist_append_left (start :: past) window)
    have hadmitted : l.admitted past + (l.after past).tokens ≤
        1 + limit.toNat * secondsBetween start (past.getLastD start) :=
      RateLimiter.admitted_le hpast
    have hlast : past.getLastD start = t := by rw [List.getLastD_eq_getLast?, ht, Option.getD_some]
    rw [hlast] at hadmitted
    linarith [(hnew.after past).tokens]
  · obtain ⟨rest, rfl⟩ : ∃ rest, window = s :: rest := List.head?_eq_some_iff.mp hs
    have hwindow : (s :: rest).Pairwise (· ≤ ·) :=
      hclock.sublist ((List.sublist_append_right past (s :: rest)).cons start)
    have hadmitted := RateLimiter.admitted_cons_le (hnew.after past) hwindow
    have hmax : (l.after past).maxTokens = limit.toNat := RateLimiter.after_maxTokens
    have hrate : (l.after past).refillRate = limit.toNat := RateLimiter.after_refillRate
    have hlast : (s :: rest).getLastD s = t := by
      rw [List.getLastD_eq_getLast?, ht, Option.getD_some]
    rw [List.getLastD_cons] at hlast
    rwa [hmax, hrate, hlast] at hadmitted

/-- After a second's rest, a limiter of two per second admits two of three calls at once, which is
all that the bound allows. -/
theorem two_of_three_admitted :
    let l := (RateLimiter.new (2 : UInt32).toNat (2 : UInt32).toNat 0).after [0]
    let window := [10 ^ 9, 10 ^ 9, 10 ^ 9]
    l.admitted window = 2 ∧ l.admitted window ≤ 2 + 2 * secondsBetween (10 ^ 9) (10 ^ 9) := by
  intro l window
  have hbound := admissions_bounded 2 0 [0] window (by decide)
  exact ⟨by decide +kernel, hbound.2.2 (10 ^ 9) rfl (10 ^ 9) rfl⟩

end Shroudb
