import Mathlib.Data.List.Induction
import Mathlib.Logic.Function.Basic
import Shroudb.Effect.Program
import Shroudb.Effect.Schedule

/-! Programs that share an environment and take turns, one operation at a time. -/
namespace Effect

structure Threads (ι : Type) {Op : Type} (Ans : Op → Type) (α σ : Type) where
  env : σ
  program : ι → Program Ans α

namespace Threads
variable {ι Op α σ : Type} [DecidableEq ι] {Ans : Op → Type}

/-- Thread `i` asks its next operation, if it has one. -/
def step (answer : (op : Op) → σ → Ans op × σ) (t : Threads ι Ans α σ) (i : ι) :
    Threads ι Ans α σ :=
  match t.program i with
  | .pure _ => t
  | .ask op next => ⟨(answer op t.env).2, Function.update t.program i (next (answer op t.env).1)⟩

def run (answer : (op : Op) → σ → Ans op × σ) (t : Threads ι Ans α σ) (schedule : List ι) :
    Threads ι Ans α σ :=
  Schedule.run (step answer) t schedule

/-- The thread that was last to take its `n`-th turn, in a schedule whose latest turn is first. -/
def latestTurn (n : Nat) : List ι → Option ι
  | [] => none
  | i :: earlier => if earlier.count i + 1 = n then some i else latestTurn n earlier

/-- The thread that was last to take its `n`-th turn. -/
def lastTurn (n : Nat) (schedule : List ι) : Option ι := latestTurn n schedule.reverse

variable {answer : (op : Op) → σ → Ans op × σ} {t : Threads ι Ans α σ} {i j : ι}

theorem lastTurn_concat (n : Nat) (schedule : List ι) (i : ι) :
    lastTurn n (schedule ++ [i]) =
      if schedule.count i + 1 = n then some i else lastTurn n schedule := by
  rw [lastTurn, List.reverse_append, List.reverse_singleton, List.singleton_append, latestTurn,
    List.count_reverse]
  rfl

theorem lastTurn_isSome {n : Nat} {schedule : List ι} (hn : 0 < n) (h : n ≤ schedule.count i) :
    (lastTurn n schedule).isSome := by
  induction schedule using List.reverseRecOn with
  | nil =>
    rw [List.count_nil] at h
    omega
  | append_singleton schedule j ih =>
    rw [lastTurn_concat]
    split_ifs with hj
    · rfl
    · refine ih ?_
      rw [List.count_append, List.count_singleton] at h
      split_ifs at h with hij
      · cases beq_iff_eq.mp hij
        omega
      · omega

theorem step_pure {a : α} (h : t.program i = .pure a) : t.step answer i = t := by
  rw [step, h]

theorem step_ask_env {op : Op} {next : Ans op → Program Ans α} (h : t.program i = .ask op next) :
    (t.step answer i).env = (answer op t.env).2 := by
  rw [step, h]

theorem step_ask_program {op : Op} {next : Ans op → Program Ans α}
    (h : t.program i = .ask op next) :
    (t.step answer i).program i = next (answer op t.env).1 := by
  rw [step, h]
  exact Function.update_self _ _ _

theorem step_other (h : j ≠ i) : (t.step answer i).program j = t.program j := by
  rw [step]
  cases t.program i with
  | pure a => rfl
  | ask op next => exact Function.update_of_ne h _ _

/-- A thread that has finished stays as it is. -/
theorem step_finished {a : α} (h : t.program j = .pure a) :
    (t.step answer i).program j = .pure a := by
  by_cases hj : j = i
  · subst hj
    rw [step_pure h, h]
  · rw [step_other hj, h]

/-- What holds at the start and is carried over every turn holds after every schedule. -/
theorem run_induction {I : List ι → Threads ι Ans α σ → Prop} (hstart : I [] t)
    (hturn : ∀ schedule u i, I schedule u → I (schedule ++ [i]) (u.step answer i))
    (schedule : List ι) : I schedule (t.run answer schedule) := by
  induction schedule using List.reverseRecOn with
  | nil => exact hstart
  | append_singleton schedule i ih =>
    have hrun : t.run answer (schedule ++ [i]) = (t.run answer schedule).step answer i := by
      rw [run, run, Schedule.run, Schedule.run, List.foldl_append]
      rfl
    rw [hrun]
    exact hturn schedule _ i ih

end Threads

end Effect
