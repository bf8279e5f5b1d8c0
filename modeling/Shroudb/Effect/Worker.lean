import Mathlib.Data.Nat.Init
import Mathlib.Logic.Function.Basic
import Shroudb.Effect.Channels
import Shroudb.Effect.Program
import Shroudb.Effect.Schedule

/-! Tasks that run one program again and again until they are told to stop, and share an
environment. -/
namespace Effect

namespace Program
variable {Op α : Type} {Ans : Op → Type}

/-- Every operation the program can ask is `allowed` after what it has asked before. -/
def UsesAfter (allowed : List ((op : Op) × Ans op) → Op → Prop) :
    List ((op : Op) × Ans op) → Program Ans α → Prop
  | _, .pure _ => True
  | history, .ask op next =>
    allowed history op ∧ ∀ a, (next a).UsesAfter allowed (history ++ [⟨op, a⟩])

end Program

/-- Each operation of a history is allowed after those before it. -/
def AllowedInTurn {Op : Type} {Ans : Op → Type} (allowed : List ((op : Op) × Ans op) → Op → Prop)
    (history : List ((op : Op) × Ans op)) : Prop :=
  ∀ before e after, history = before ++ e :: after → allowed before e.1

inductive WorkerPhase {Op : Type} (Ans : Op → Type) where
  | waiting
  | working (rest : Program Ans Unit)
  | stopped

/-- A task, with the value of the signal it has seen, what it has asked in its finished rounds and
what it has asked in the one under way. -/
structure Worker {Op : Type} (Ans : Op → Type) where
  phase : WorkerPhase Ans
  seen : Nat
  rounds : List (List ((op : Op) × Ans op))
  current : List ((op : Op) × Ans op)

structure Workers (ι : Type) {Op : Type} (Ans : Op → Type) (σ : Type) where
  env : σ
  signal : Watch Bool
  worker : ι → Worker Ans

/-- `change` is what others do to the environment. -/
inductive WorkersMove (ι σ : Type) where
  | turn (i : ι)
  | signal
  | abort (i : ι)
  | change (env : σ)

namespace Worker
variable {Op σ : Type} {Ans : Op → Type}

def new : Worker Ans := ⟨.waiting, 0, [], []⟩

/-- The signal comes before the next round. -/
def select (signal : Watch Bool) (body : Program Ans Unit) (w : Worker Ans) : Worker Ans :=
  if signal.changed w.seen then
    if signal.value then { w with phase := .stopped } else { w with seen := signal.version }
  else { w with phase := .working body }

/-- A task that works asks its next operation, or ends its round. -/
def turn (answer : (op : Op) → σ → Ans op × σ) (signal : Watch Bool) (body : Program Ans Unit)
    (w : Worker Ans) (s : σ) : Worker Ans × σ :=
  match w.phase with
  | .waiting => (w.select signal body, s)
  | .working (.pure _) =>
    ({ w with phase := .waiting, rounds := w.rounds ++ [w.current], current := [] }, s)
  | .working (.ask op next) =>
    ({ w with
        phase := .working (next (answer op s).1)
        current := w.current ++ [⟨op, (answer op s).1⟩] }, (answer op s).2)
  | .stopped => (w, s)

/-- The task is dropped where it is, and the round under way is broken off. -/
def abort (w : Worker Ans) : Worker Ans :=
  match w.phase with
  | .working _ => { w with phase := .stopped, rounds := w.rounds ++ [w.current], current := [] }
  | _ => { w with phase := .stopped }

/-- The rounds that were begun. -/
def begun (w : Worker Ans) : Nat :=
  match w.phase with
  | .working _ => w.rounds.length + 1
  | _ => w.rounds.length

variable {answer : (op : Op) → σ → Ans op × σ} {signal : Watch Bool} {body : Program Ans Unit}
  {allowed : List ((op : Op) × Ans op) → Op → Prop} {w : Worker Ans} {s : σ}

/-- What a task has asked is allowed, and so is all that its round can still ask. -/
structure Sound (allowed : List ((op : Op) × Ans op) → Op → Prop) (w : Worker Ans) : Prop where
  rounds : ∀ round ∈ w.rounds, AllowedInTurn allowed round
  current : AllowedInTurn allowed w.current
  rest : ∀ rest, w.phase = .working rest → rest.UsesAfter allowed w.current
  waiting : w.phase = .waiting → w.current = []

/-- The signal waits for the task, or has stopped it. -/
def Signalled (signal : Watch Bool) (w : Worker Ans) : Prop :=
  signal.value = true ∧ (signal.changed w.seen ∨ w.phase = .stopped)

theorem allowedInTurn_nil : AllowedInTurn allowed [] := by
  intro before e after h
  cases before <;> cases h

theorem allowedInTurn_concat {history : List ((op : Op) × Ans op)} {op : Op} {a : Ans op}
    (h : AllowedInTurn allowed history) (hop : allowed history op) :
    AllowedInTurn allowed (history ++ [⟨op, a⟩]) := by
  intro before e after heq
  rcases List.eq_nil_or_concat after with rfl | ⟨after, last, rfl⟩
  · obtain ⟨rfl, hlast⟩ := List.append_inj' heq rfl
    cases hlast
    exact hop
  · rw [List.concat_eq_append, ← List.cons_append, ← List.append_assoc] at heq
    obtain ⟨hhistory, -⟩ := List.append_inj' heq rfl
    exact h before e after hhistory

theorem sound_new : Sound allowed (new : Worker Ans) := by
  refine ⟨?_, allowedInTurn_nil, ?_, fun _ => rfl⟩
  · intro round h
    cases h
  · intro rest h
    cases h

theorem sound_select (hbody : body.UsesAfter allowed []) (h : Sound allowed w)
    (hphase : w.phase = .waiting) : Sound allowed (w.select signal body) := by
  have hcurrent := h.waiting hphase
  unfold select
  split_ifs
  · exact ⟨h.rounds, h.current, fun rest hrest => (by cases hrest), fun hw => (by cases hw)⟩
  · exact ⟨h.rounds, h.current, fun rest hrest => (by simp [hphase] at hrest), h.waiting⟩
  · refine ⟨h.rounds, h.current, fun rest hrest => ?_, fun hw => (by cases hw)⟩
    cases hrest
    rw [hcurrent]
    exact hbody

theorem sound_turn (hbody : body.UsesAfter allowed []) (h : Sound allowed w) :
    Sound allowed (w.turn answer signal body s).1 := by
  unfold turn
  split
  · rename_i hphase
    exact sound_select hbody h hphase
  · refine ⟨fun round hround => ?_, allowedInTurn_nil, fun rest hrest => (by cases hrest),
      fun _ => rfl⟩
    rcases List.mem_append.mp hround with hround | hround
    · exact h.rounds round hround
    · rw [List.mem_singleton.mp hround]
      exact h.current
  · rename_i op next hphase
    have hrest := h.rest _ hphase
    refine ⟨h.rounds, allowedInTurn_concat h.current hrest.1, fun rest hrest' => ?_,
      fun hw => (by cases hw)⟩
    cases hrest'
    exact hrest.2 _
  · exact h

theorem sound_abort (h : Sound allowed w) : Sound allowed w.abort := by
  unfold abort
  split
  · refine ⟨fun round hround => ?_, allowedInTurn_nil, fun rest hrest => (by cases hrest),
      fun _ => rfl⟩
    rcases List.mem_append.mp hround with hround | hround
    · exact h.rounds round hround
    · rw [List.mem_singleton.mp hround]
      exact h.current
  · exact ⟨h.rounds, h.current, fun rest hrest => (by cases hrest), fun hw => (by cases hw)⟩

/-- A task that was told to stop begins no round. -/
theorem begun_turn (h : Signalled signal w) :
    (w.turn answer signal body s).1.begun = w.begun ∧
      Signalled signal (w.turn answer signal body s).1 := by
  unfold turn
  split
  · rename_i hphase
    have hchanged : signal.changed w.seen = true := by simpa [hphase] using h.2
    rw [select, if_pos hchanged, if_pos h.1]
    refine ⟨?_, h.1, Or.inr rfl⟩
    rw [begun, begun, hphase]
  · rename_i a hphase
    refine ⟨?_, h.1, Or.inl ?_⟩
    · rw [begun, begun, hphase]
      exact List.length_append
    · simpa [hphase] using h.2
  · rename_i op next hphase
    refine ⟨?_, h.1, Or.inl ?_⟩
    · rw [begun, begun, hphase]
    · simpa [hphase] using h.2
  · exact ⟨rfl, h⟩

theorem begun_abort (h : Signalled signal w) :
    w.abort.begun = w.begun ∧ Signalled signal w.abort := by
  unfold abort
  split
  · rename_i rest hphase
    refine ⟨?_, h.1, Or.inr rfl⟩
    rw [begun, begun, hphase]
    exact List.length_append
  · rename_i hphase
    refine ⟨?_, h.1, Or.inr rfl⟩
    rw [begun, begun]
    cases hw : w.phase with
    | working rest => exact absurd hw (hphase rest)
    | waiting => rfl
    | stopped => rfl

theorem seen_turn (h : w.seen ≤ signal.version) :
    (w.turn answer signal body s).1.seen ≤ signal.version := by
  unfold turn
  split
  · unfold select
    split_ifs
    · exact h
    · exact Nat.le_refl _
    · exact h
  · exact h
  · exact h
  · exact h

theorem phase_turn_waiting (hsignal : w.Signalled signal) (h : w.phase = .waiting) :
    (w.turn answer signal body s).1.phase = .stopped := by
  have hchanged : signal.changed w.seen = true := by simpa [h] using hsignal.2
  rw [turn, h]
  dsimp only
  rw [select, if_pos hchanged, if_pos hsignal.1]

theorem phase_turn_pure {a : Unit} (h : w.phase = .working (.pure a)) :
    (w.turn answer signal body s).1.phase = .waiting := by
  rw [turn, h]

theorem phase_turn_ask {op : Op} {next : Ans op → Program Ans Unit}
    (h : w.phase = .working (.ask op next)) :
    (w.turn answer signal body s).1.phase = .working (next (answer op s).1) := by
  rw [turn, h]

theorem turn_stopped (h : w.phase = .stopped) : w.turn answer signal body s = (w, s) := by
  rw [turn, h]

theorem abort_stopped (h : w.phase = .stopped) : w.abort = w := by
  cases w
  cases h
  rfl

theorem seen_abort : w.abort.seen = w.seen := by
  unfold abort
  split <;> rfl

/-- A signal is news to a task that has not seen a later one. -/
theorem signalled_send (h : w.seen ≤ signal.version) : w.Signalled (signal.send true) := by
  refine ⟨rfl, Or.inl ?_⟩
  have hne : signal.version + 1 ≠ w.seen := by omega
  simpa [Watch.changed, Watch.send] using hne

end Worker

namespace Workers
variable {ι Op σ : Type} [DecidableEq ι] {Ans : Op → Type}

def new (env : σ) : Workers ι Ans σ := ⟨env, .new false, fun _ => .new⟩

def move (answer : (op : Op) → σ → Ans op × σ) (body : ι → Program Ans Unit)
    (p : Workers ι Ans σ) : WorkersMove ι σ → Workers ι Ans σ
  | .turn i =>
    { p with
      env := ((p.worker i).turn answer p.signal (body i) p.env).2
      worker := Function.update p.worker i
        ((p.worker i).turn answer p.signal (body i) p.env).1 }
  | .signal => { p with signal := p.signal.send true }
  | .abort i => { p with worker := Function.update p.worker i (p.worker i).abort }
  | .change env => { p with env }

variable {answer : (op : Op) → σ → Ans op × σ} {body : ι → Program Ans Unit}
  {allowed : ι → List ((op : Op) × Ans op) → Op → Prop} {p : Workers ι Ans σ}

/-- What turns, drops and the signal keep of a task, every move keeps of all tasks. -/
theorem worker_move {I : ι → Watch Bool → Worker Ans → Prop}
    (hturn : ∀ i signal w s, I i signal w → I i signal (w.turn answer signal (body i) s).1)
    (habort : ∀ i signal w, I i signal w → I i signal w.abort)
    (hsignal : ∀ i signal w, I i signal w → I i (signal.send true) w)
    (h : ∀ i, I i p.signal (p.worker i)) (mv : WorkersMove ι σ) :
    ∀ i, I i (p.move answer body mv).signal ((p.move answer body mv).worker i) := by
  intro i
  cases mv with
  | turn j =>
    by_cases hij : i = j
    · subst hij
      simp only [move, Function.update_self]
      exact hturn i _ _ _ (h i)
    · simp only [move, Function.update_of_ne hij]
      exact h i
  | signal => exact hsignal i _ _ (h i)
  | abort j =>
    by_cases hij : i = j
    · subst hij
      simp only [move, Function.update_self]
      exact habort i _ _ (h i)
    · simp only [move, Function.update_of_ne hij]
      exact h i
  | change env => exact h i

/-- Whatever the order of turns and whatever else happens, a task asks in each round only what its
program allows after what it was answered in that round. -/
theorem sound_run (hbody : ∀ i, (body i).UsesAfter (allowed i) []) (env : σ)
    (moves : List (WorkersMove ι σ)) (i : ι) :
    ((Schedule.run (move answer body) (new env) moves).worker i).Sound (allowed i) := by
  refine Schedule.run_keeps (I := fun q : Workers ι Ans σ => ∀ i, (q.worker i).Sound (allowed i))
    (fun q mv h => ?_) (fun _ => Worker.sound_new) i
  exact worker_move (I := fun i _ w => w.Sound (allowed i))
    (fun i _ _ _ h => Worker.sound_turn (hbody i) h) (fun _ _ _ h => Worker.sound_abort h)
    (fun _ _ _ h => h) h mv

/-! ## After the signal -/

section
variable {moves : Nat → WorkersMove ι σ} {n : Nat} {i : ι}

theorem seen_execution (env : σ) (moves : Nat → WorkersMove ι σ) (n : Nat) :
    let q := Schedule.execution (move answer body) (new env) moves n
    ∀ i, (q.worker i).seen ≤ q.signal.version := by
  induction n with
  | zero => exact fun _ => Nat.le_refl 0
  | succ n ih =>
    exact worker_move (I := fun _ signal w => w.seen ≤ signal.version)
      (fun _ _ _ _ h => Worker.seen_turn h) (fun _ _ _ h => by rwa [Worker.seen_abort])
      (fun _ _ _ h => Nat.le_succ_of_le h) ih (moves n)

/-- Once the signal was sent, no task begins a round. -/
theorem begun_execution (env : σ) (h : moves n = .signal) {m : Nat} (hm : n < m) :
    let states := Schedule.execution (move answer body) (new env) moves
    ∀ i, ((states m).worker i).begun = ((states n).worker i).begun ∧
      ((states m).worker i).seen ≤ (states m).signal.version ∧
      ((states m).worker i).Signalled (states m).signal := by
  intro states
  induction m, hm using Nat.le_induction with
  | base =>
    intro i
    have hseen : ((states n).worker i).seen ≤ (states n).signal.version :=
      seen_execution env moves n i
    have hnext : states (n + 1) = { states n with signal := (states n).signal.send true } := by
      change (states n).move answer body (moves n) = _
      rw [h]
      rfl
    rw [hnext]
    exact ⟨rfl, Nat.le_succ_of_le hseen, Worker.signalled_send hseen⟩
  | succ m hm ih =>
    refine worker_move (I := fun i signal w => w.begun = ((states n).worker i).begun ∧
      w.seen ≤ signal.version ∧ w.Signalled signal) ?_ ?_ ?_ ih (moves m)
    · rintro i signal w s ⟨hbegun, hseen, hsignalled⟩
      obtain ⟨hkeeps, hstill⟩ :
          (w.turn answer signal (body i) s).1.begun = w.begun ∧ _ := Worker.begun_turn hsignalled
      exact ⟨hkeeps.trans hbegun, Worker.seen_turn hseen, hstill⟩
    · rintro i signal w ⟨hbegun, hseen, hsignalled⟩
      obtain ⟨hkeeps, hstill⟩ := Worker.begun_abort hsignalled
      exact ⟨hkeeps.trans hbegun, by rwa [Worker.seen_abort], hstill⟩
    · rintro i signal w ⟨hbegun, hseen, hsignalled⟩
      exact ⟨hbegun, Nat.le_succ_of_le hseen, Worker.signalled_send hseen⟩

theorem worker_other {mv : WorkersMove ι σ} (hturn : mv ≠ .turn i) (habort : mv ≠ .abort i) :
    (p.move answer body mv).worker i = p.worker i := by
  cases mv with
  | turn j => exact Function.update_of_ne (fun h => hturn (by rw [h])) _ _
  | signal => rfl
  | abort j => exact Function.update_of_ne (fun h => habort (by rw [h])) _ _
  | change env => rfl

theorem phase_abort : ((p.move answer body (.abort i)).worker i).phase = .stopped := by
  simp only [move, Function.update_self]
  unfold Worker.abort
  split <;> rfl

theorem worker_turn : (p.move answer body (.turn i)).worker i =
    ((p.worker i).turn answer p.signal (body i) p.env).1 :=
  Function.update_self _ _ _

/-- A task that has turns again and again has one, unless it is dropped before. -/
theorem exists_turn (start : Workers ι Ans σ) (hfair : ∀ k, ∃ m, k ≤ m ∧ moves m = .turn i)
    (k : Nat) :
    let states := Schedule.execution (move answer body) start moves
    ∃ m, k ≤ m ∧ (((states m).worker i).phase = .stopped ∨
      (states m).worker i = (states k).worker i ∧ moves m = .turn i) := by
  intro states
  obtain ⟨m, hkm, hturn⟩ := hfair k
  induction hd : m - k generalizing k with
  | zero =>
    obtain rfl : k = m := by omega
    exact ⟨k, Nat.le_refl k, Or.inr ⟨rfl, hturn⟩⟩
  | succ d ih =>
    by_cases hmove : moves k = .turn i
    · exact ⟨k, Nat.le_refl k, Or.inr ⟨rfl, hmove⟩⟩
    by_cases habort : moves k = .abort i
    · refine ⟨k + 1, Nat.le_succ k, Or.inl ?_⟩
      change (((states k).move answer body (moves k)).worker i).phase = _
      rw [habort]
      exact phase_abort
    have hsame : (states (k + 1)).worker i = (states k).worker i := worker_other hmove habort
    obtain ⟨m', hkm', h⟩ := ih (k + 1) (by omega) (by omega)
    rw [hsame] at h
    exact ⟨m', by omega, h⟩

/-- A task that has turns again and again ends its round and stops. -/
theorem exists_stopped (env : σ) (h : moves n = .signal)
    (hfair : ∀ k, ∃ m, k ≤ m ∧ moves m = .turn i) :
    let states := Schedule.execution (move answer body) (new env) moves
    ∃ m, n < m ∧ ((states m).worker i).phase = .stopped := by
  intro states
  -- the next turn of the task, from any time on
  have hnext : ∀ m, n < m → (∃ k, n < k ∧ ((states k).worker i).phase = .stopped) ∨
      ∃ k, n < k ∧ (states k).worker i = (states m).worker i ∧
        (states (k + 1)).worker i =
          (((states k).worker i).turn answer (states k).signal (body i) (states k).env).1 := by
    intro m hm
    obtain ⟨k, hk, hstopped | ⟨hsame, hturn⟩⟩ := exists_turn (new env) hfair m
    · exact Or.inl ⟨k, by omega, hstopped⟩
    · refine Or.inr ⟨k, by omega, hsame, ?_⟩
      change ((states k).move answer body (moves k)).worker i = _
      rw [hturn, worker_turn]
  have hwaiting : ∀ m, n < m → ((states m).worker i).phase = .waiting →
      ∃ k, n < k ∧ ((states k).worker i).phase = .stopped := by
    intro m hm hphase
    obtain hdone | ⟨k, hk, hsame, hturn⟩ := hnext m hm
    · exact hdone
    · have hsignalled : ((states k).worker i).Signalled (states k).signal :=
        (begun_execution env h hk i).2.2
      rw [← hsame] at hphase
      exact ⟨k + 1, by omega, by rw [hturn, Worker.phase_turn_waiting hsignalled hphase]⟩
  have hworking : ∀ rest m, n < m → ((states m).worker i).phase = .working rest →
      ∃ k, n < k ∧ ((states k).worker i).phase = .stopped := by
    intro rest
    induction rest with
    | pure a =>
      intro m hm hphase
      obtain hdone | ⟨k, hk, hsame, hturn⟩ := hnext m hm
      · exact hdone
      · rw [← hsame] at hphase
        refine hwaiting (k + 1) (by omega) ?_
        rw [hturn, Worker.phase_turn_pure hphase]
    | ask op next ih =>
      intro m hm hphase
      obtain hdone | ⟨k, hk, hsame, hturn⟩ := hnext m hm
      · exact hdone
      · rw [← hsame] at hphase
        refine ih (answer op (states k).env).1 (k + 1) (by omega) ?_
        rw [hturn, Worker.phase_turn_ask hphase]
  cases hphase : ((states (n + 1)).worker i).phase with
  | waiting => exact hwaiting (n + 1) (Nat.lt_succ_self n) hphase
  | working rest => exact hworking rest (n + 1) (Nat.lt_succ_self n) hphase
  | stopped => exact ⟨n + 1, Nat.lt_succ_self n, hphase⟩

/-- A task that has stopped asks nothing any more. -/
theorem stopped_forever (start : Workers ι Ans σ) {m k : Nat} (hk : m ≤ k) :
    let states := Schedule.execution (move answer body) start moves
    ((states m).worker i).phase = .stopped → (states k).worker i = (states m).worker i := by
  intro states hstopped
  induction k, hk using Nat.le_induction with
  | base => rfl
  | succ k hk ih =>
    rw [← ih] at hstopped
    rw [← ih]
    change ((states k).move answer body (moves k)).worker i = _
    by_cases hturn : moves k = .turn i
    · rw [hturn, worker_turn, Worker.turn_stopped hstopped]
    by_cases habort : moves k = .abort i
    · rw [habort]
      exact (Function.update_self _ _ _).trans (Worker.abort_stopped hstopped)
    exact worker_other hturn habort

end

end Workers

end Effect
