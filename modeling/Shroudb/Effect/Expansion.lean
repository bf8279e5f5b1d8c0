import Shroudb.Effect.Threads

/-! Programs whose operations are answered by programs, and threads of such programs. -/
namespace Effect

namespace Program
variable {Op Op' σ α β : Type} {Ans : Op → Type} {Ans' : Op' → Type}

def bind : Program Ans α → (α → Program Ans β) → Program Ans β
  | .pure a, f => f a
  | .ask op next, f => .ask op fun a => (next a).bind f

/-- Every operation replaced by a program that answers it. -/
def expand (body : (op : Op) → Program Ans' (Ans op)) : Program Ans α → Program Ans' α
  | .pure a => .pure a
  | .ask op next => (body op).bind fun a => (next a).expand body

/-- The programs answer as the environment of the operations does. -/
def Implements (answer : (op : Op) → σ → Ans op × σ) (answer' : (op : Op') → σ → Ans' op × σ)
    (body : (op : Op) → Program Ans' (Ans op)) : Prop :=
  ∀ op s, (body op).run answer' s = answer op s

/-- A program that asks one operation, or none. -/
def AtMostOnce : Program Ans α → Prop
  | .pure _ => True
  | .ask _ next => ∀ a, ∃ b, next a = .pure b

variable {answer : (op : Op) → σ → Ans op × σ} {answer' : (op : Op') → σ → Ans' op × σ}
  {body : (op : Op) → Program Ans' (Ans op)}

theorem run_bind (p : Program Ans α) (f : α → Program Ans β) (s : σ) :
    (p.bind f).run answer s = (f (p.run answer s).1).run answer (p.run answer s).2 := by
  induction p generalizing s with
  | pure a => rfl
  | ask op next ih => exact ih _ _

theorem Uses.bind {allowed : Op → Prop} {p : Program Ans α} {f : α → Program Ans β}
    (hp : p.Uses allowed) (hf : ∀ a, (f a).Uses allowed) : (p.bind f).Uses allowed := by
  induction p with
  | pure a => exact hf a
  | ask op next ih => exact ⟨hp.1, fun a => ih a (hp.2 a)⟩

theorem Ends.bind {Q : β → Prop} {p : Program Ans α} {f : α → Program Ans β}
    (hf : ∀ a, (f a).Ends Q) : (p.bind f).Ends Q := by
  induction p with
  | pure a => exact hf a
  | ask op next ih => exact fun a => ih a

theorem Uses.expand {allowed : Op → Prop} {allowed' : Op' → Prop} {p : Program Ans α}
    (hbody : ∀ op, allowed op → (body op).Uses allowed') (hp : p.Uses allowed) :
    (p.expand body).Uses allowed' := by
  induction p with
  | pure a => trivial
  | ask op next ih => exact (hbody op hp.1).bind fun a => ih a (hp.2 a)

/-- Expanding a program does not change what it does alone. -/
theorem run_expand (h : Implements answer answer' body) (p : Program Ans α) (s : σ) :
    (p.expand body).run answer' s = p.run answer s := by
  induction p generalizing s with
  | pure a => rfl
  | ask op next ih => rw [expand, run_bind, h, ih, run]

end Program

namespace Threads
variable {ι Op Op' α σ : Type} [DecidableEq ι] {Ans : Op → Type} {Ans' : Op' → Type}
  {answer : (op : Op) → σ → Ans op × σ} {answer' : (op : Op') → σ → Ans' op × σ}
  {body : (op : Op) → Program Ans' (Ans op)} {t : Threads ι Ans α σ} {i j : ι}

/-! ## What threads ask -/

/-- The operations asked over a schedule, with the threads that ask them. -/
def asked (answer : (op : Op) → σ → Ans op × σ) : Threads ι Ans α σ → List ι → List (ι × Op)
  | _, [] => []
  | t, i :: schedule =>
    match t.program i with
    | .pure _ => asked answer (t.step answer i) schedule
    | .ask op _ => (i, op) :: asked answer (t.step answer i) schedule

theorem uses_step {allowed : ι → Op → Prop} (h : ∀ j, (t.program j).Uses (allowed j)) :
    ((t.step answer i).program j).Uses (allowed j) := by
  by_cases hj : j = i
  · subst hj
    cases hp : t.program j with
    | pure a =>
      rw [step_pure hp]
      exact h j
    | ask op next =>
      have hj := h j
      rw [hp] at hj
      rw [step_ask_program hp]
      exact hj.2 _
  · rw [step_other hj]
    exact h j

theorem uses_run {allowed : ι → Op → Prop} (h : ∀ j, (t.program j).Uses (allowed j))
    (schedule : List ι) : ∀ j, ((t.run answer schedule).program j).Uses (allowed j) :=
  run_induction (I := fun _ u => ∀ j, (u.program j).Uses (allowed j)) h
    (fun _ _ _ hu _ => uses_step hu) schedule

def expand (body : (op : Op) → Program Ans' (Ans op)) (t : Threads ι Ans α σ) :
    Threads ι Ans' α σ :=
  ⟨t.env, fun i => (t.program i).expand body⟩

/-- The next operation of the program, if it has one, is one that asks. -/
def Settled (body : (op : Op) → Program Ans' (Ans op)) : Program Ans α → Prop
  | .pure _ => True
  | .ask op _ => ∃ op' cont, body op = .ask op' cont

theorem Settled.eq_pure {p : Program Ans α} {a : α} (h : Settled body p)
    (hp : p.expand body = .pure a) : p = .pure a := by
  cases p with
  | pure b =>
    cases hp
    rfl
  | ask op next =>
    obtain ⟨op', cont, hbody⟩ := h
    rw [Program.expand, hbody] at hp
    cases hp

theorem expand_step {op : Op} {next : Ans op → Program Ans α} (h : t.program i = .ask op next) :
    (t.step answer i).expand body = ⟨(answer op t.env).2, Function.update
      (fun j => (t.program j).expand body) i ((next (answer op t.env).1).expand body)⟩ := by
  rw [expand, step_ask_env h]
  congr 1
  funext j
  by_cases hj : j = i
  · subst hj
    rw [step_ask_program h, Function.update_self]
  · rw [step_other hj, Function.update_of_ne hj]

theorem run_concat (t : Threads ι Ans α σ) (schedule rest : List ι) :
    t.run answer (schedule ++ rest) = (t.run answer schedule).run answer rest :=
  Schedule.run_append

theorem run_replicate_other (k : Nat) (h : j ≠ i) :
    (t.run answer (List.replicate k i)).program j = t.program j := by
  induction k generalizing t with
  | zero => rfl
  | succ k ih =>
    have hrest := ih (t := t.step answer i)
    rw [step_other h] at hrest
    exact hrest

/-- A thread can pass over what is answered without being asked. -/
theorem exists_settled (himpl : Program.Implements answer answer' body) (t : Threads ι Ans α σ)
    (i : ι) : ∃ k, (t.run answer (List.replicate k i)).expand body = t.expand body ∧
      Settled body ((t.run answer (List.replicate k i)).program i) := by
  induction hp : t.program i generalizing t with
  | pure a =>
    have hstart : (t.run answer (List.replicate 0 i)).program i = .pure a := hp
    refine ⟨0, rfl, ?_⟩
    rw [hstart]
    trivial
  | ask op next ih =>
    cases hbody : body op with
    | ask op' cont =>
      have hstart : (t.run answer (List.replicate 0 i)).program i = .ask op next := hp
      refine ⟨0, rfl, ?_⟩
      rw [hstart]
      exact ⟨op', cont, hbody⟩
    | pure b =>
      have hanswer : answer op t.env = (b, t.env) := by
        rw [← himpl, hbody]
        rfl
      have hnext : (t.step answer i).program i = next b := by
        rw [step_ask_program hp, hanswer]
      obtain ⟨k, hexpand, hsettled⟩ := ih b (t.step answer i) hnext
      refine ⟨k + 1, hexpand.trans ?_, hsettled⟩
      rw [expand_step hp, hanswer, expand]
      congr 1
      funext j
      by_cases hj : j = i
      · subst hj
        rw [Function.update_self, hp, Program.expand, hbody]
        rfl
      · rw [Function.update_of_ne hj]

/-- One turn of a thread of expanded programs is some turns of the thread. -/
theorem exists_turns (himpl : Program.Implements answer answer' body) (t : Threads ι Ans α σ)
    (huses : ∀ j, (t.program j).Uses fun op => (body op).AtMostOnce) (i : ι) :
    ∃ k, (t.run answer (List.replicate k i)).expand body = (t.expand body).step answer' i ∧
      Settled body ((t.run answer (List.replicate k i)).program i) := by
  obtain ⟨k, hexpand, hsettled⟩ := exists_settled himpl t i
  have hown : ((t.run answer (List.replicate k i)).program i).Uses _ := uses_run huses _ i
  rw [← hexpand]
  generalize hu : t.run answer (List.replicate k i) = u at hsettled hown
  cases hp : u.program i with
  | pure a =>
    have hdone : (u.expand body).program i = .pure a := by
      change (u.program i).expand body = _
      rw [hp]
      rfl
    rw [step_pure hdone]
    exact ⟨k, by rw [hu], by rwa [hu]⟩
  | ask op next =>
    rw [hp] at hsettled hown
    obtain ⟨op', cont, hbody⟩ := hsettled
    have hasks : (u.expand body).program i =
        .ask op' fun a => (cont a).bind fun b => (next b).expand body := by
      change (u.program i).expand body = _
      rw [hp, Program.expand, hbody]
      rfl
    -- the one answer that the body waits for settles the operation
    have honce : (body op).AtMostOnce := hown.1
    rw [hbody] at honce
    obtain ⟨b, hb⟩ := honce (answer' op' u.env).1
    have hanswer : answer op u.env = (b, (answer' op' u.env).2) := by
      rw [← himpl, hbody, Program.run, hb]
      rfl
    have hturn : (u.step answer i).expand body = (u.expand body).step answer' i := by
      rw [expand_step hp, hanswer, step, hasks]
      dsimp only
      have henv : (u.expand body).env = u.env := rfl
      rw [henv, hb]
      rfl
    obtain ⟨k', hexpand', hsettled'⟩ := exists_settled himpl (u.step answer i) i
    have hrun : t.run answer (List.replicate (k + (k' + 1)) i) =
        (u.step answer i).run answer (List.replicate k' i) := by
      rw [← List.replicate_append_replicate, run_concat, hu]
      rfl
    refine ⟨k + (k' + 1), ?_, ?_⟩
    · rw [hrun, hexpand', hturn]
    · rw [hrun]
      exact hsettled'

/-- Where every operation is answered by a program that asks at most once, threads that take turns
at each single question do what threads can do that take turns at whole operations. -/
theorem exists_schedule (himpl : Program.Implements answer answer' body)
    (huses : ∀ j, (t.program j).Uses fun op => (body op).AtMostOnce) (schedule : List ι) :
    ∃ coarse, (t.run answer coarse).expand body = (t.expand body).run answer' schedule ∧
      ∀ i ∈ schedule, ∀ a, ((t.expand body).run answer' schedule).program i = .pure a →
        (t.run answer coarse).program i = .pure a := by
  have hrun : ∃ coarse, (t.run answer coarse).expand body = (t.expand body).run answer' schedule ∧
      ∀ i ∈ schedule, Settled body ((t.run answer coarse).program i) := by
    refine run_induction (I := fun schedule u => ∃ coarse, (t.run answer coarse).expand body = u ∧
      ∀ i ∈ schedule, Settled body ((t.run answer coarse).program i)) ⟨[], rfl, by simp⟩ ?_ schedule
    rintro schedule _ i ⟨coarse, rfl, hsettled⟩
    obtain ⟨k, hturn, hown⟩ := exists_turns himpl (t.run answer coarse)
      (uses_run huses coarse) i
    refine ⟨coarse ++ List.replicate k i, by rw [run_concat, hturn], fun j hj => ?_⟩
    rw [run_concat]
    by_cases hji : j = i
    · rw [hji]
      exact hown
    · rw [run_replicate_other k hji]
      refine hsettled j ?_
      simpa [hji] using hj
  obtain ⟨coarse, hexpand, hsettled⟩ := hrun
  refine ⟨coarse, hexpand, fun i hi a ha => (hsettled i hi).eq_pure ?_⟩
  rw [← hexpand] at ha
  exact ha

end Threads

end Effect
