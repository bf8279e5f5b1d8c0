/-! Programs that ask an environment and go on with its answers. -/
namespace Effect

/-- `Ans op` is the type of the answers to `op`. -/
inductive Program {Op : Type} (Ans : Op → Type) (α : Type) where
  | pure (a : α)
  | ask (op : Op) (next : Ans op → Program Ans α)

namespace Program
variable {Op σ τ α : Type} {Ans : Op → Type}

/-- `answer` is the environment: it answers an operation and moves to its next state. -/
def run (answer : (op : Op) → σ → Ans op × σ) : Program Ans α → σ → α × σ
  | .pure a, s => (a, s)
  | .ask op next, s => (next (answer op s).1).run answer (answer op s).2

/-- The questions and answers of a program that is stopped after at most `n` answers, and the state
its environment is left in. -/
def stopAfter (answer : (op : Op) → σ → Ans op × σ) :
    Nat → Program Ans α → σ → List ((op : Op) × Ans op) × σ
  | 0, _, s => ([], s)
  | _ + 1, .pure _, s => ([], s)
  | n + 1, .ask op next, s =>
    let (history, s') := stopAfter answer n (next (answer op s).1) (answer op s).2
    (⟨op, (answer op s).1⟩ :: history, s')

/-- The questions and answers of a whole run. -/
def trace (answer : (op : Op) → σ → Ans op × σ) : Program Ans α → σ → List ((op : Op) × Ans op)
  | .pure _, _ => []
  | .ask op next, s => ⟨op, (answer op s).1⟩ :: (next (answer op s).1).trace answer (answer op s).2

/-- Every operation the program can ask, whatever it is answered, is `allowed`. -/
def Uses (allowed : Op → Prop) : Program Ans α → Prop
  | .pure _ => True
  | .ask op next => allowed op ∧ ∀ a, (next a).Uses allowed

/-- Whatever the program is answered, its result has `Q`. -/
def Ends (Q : α → Prop) : Program Ans α → Prop
  | .pure a => Q a
  | .ask _ next => ∀ a, (next a).Ends Q

variable {answer : (op : Op) → σ → Ans op × σ} {p : Program Ans α} {s : σ}

theorem uses_any : p.Uses fun _ => True := by
  induction p with
  | pure a => trivial
  | ask op next ih => exact ⟨trivial, ih⟩

theorem Uses.mono {allowed allowed' : Op → Prop} (h : ∀ op, allowed op → allowed' op)
    (hp : p.Uses allowed) : p.Uses allowed' := by
  induction p with
  | pure a => trivial
  | ask op next ih => exact ⟨h op hp.1, fun a => ih a (hp.2 a)⟩

theorem Ends.mono {Q Q' : α → Prop} (h : ∀ a, Q a → Q' a) (hp : p.Ends Q) : p.Ends Q' := by
  induction p with
  | pure a => exact h a hp
  | ask op next ih => exact fun a => ih a (hp a)

/-- What every allowed operation keeps, a program that asks only those keeps. -/
theorem run_invariant {allowed : Op → Prop} {I : σ → Prop}
    (hstep : ∀ op s, allowed op → I s → I (answer op s).2) (hp : p.Uses allowed) (hs : I s) :
    I (p.run answer s).2 := by
  induction p generalizing s with
  | pure a => exact hs
  | ask op next ih => exact ih _ (hp.2 _) (hstep op s hp.1 hs)

@[simp] theorem stopAfter_zero : p.stopAfter answer 0 s = ([], s) := rfl

@[simp] theorem stopAfter_pure {n : Nat} {a : α} :
    (pure a : Program Ans α).stopAfter answer n s = ([], s) := by
  cases n <;> rfl

@[simp] theorem stopAfter_ask {n : Nat} {op : Op} {next : Ans op → Program Ans α} :
    (ask op next).stopAfter answer (n + 1) s =
      (⟨op, (answer op s).1⟩ :: ((next (answer op s).1).stopAfter answer n (answer op s).2).1,
        ((next (answer op s).1).stopAfter answer n (answer op s).2).2) := rfl

/-- Environments that answer alike from related states give a program the same result. -/
theorem run_related {allowed : Op → Prop} {answer' : (op : Op) → τ → Ans op × τ}
    {R : σ → τ → Prop} {t : τ}
    (hstep : ∀ op s t, allowed op → R s t →
      (answer op s).1 = (answer' op t).1 ∧ R (answer op s).2 (answer' op t).2)
    (hp : p.Uses allowed) (h : R s t) :
    (p.run answer s).1 = (p.run answer' t).1 ∧ R (p.run answer s).2 (p.run answer' t).2 := by
  induction p generalizing s t with
  | pure a => exact ⟨rfl, h⟩
  | ask op next ih =>
    obtain ⟨ha, hr⟩ := hstep op s t hp.1 h
    simp only [run, ha]
    exact ih _ (hp.2 _) hr

/-- The programs ask alike whatever they are answered, and end in related results. -/
inductive Matches {β : Type} (R : α → β → Prop) : Program Ans α → Program Ans β → Prop
  | pure {a : α} {b : β} (h : R a b) : Matches R (.pure a) (.pure b)
  | ask {op : Op} {next : Ans op → Program Ans α} {next' : Ans op → Program Ans β}
    (h : ∀ x, Matches R (next x) (next' x)) : Matches R (.ask op next) (.ask op next')

/-- In any environment matching programs leave the same state behind. -/
theorem Matches.run {β : Type} {R : α → β → Prop} {q : Program Ans β} (h : Matches R p q) (s : σ) :
    (p.run answer s).2 = (q.run answer s).2 ∧ R (p.run answer s).1 (q.run answer s).1 := by
  induction h generalizing s with
  | pure h => exact ⟨rfl, h⟩
  | ask _ ih => exact ih _ _

end Program

end Effect
