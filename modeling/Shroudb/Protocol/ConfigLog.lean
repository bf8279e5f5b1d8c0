import Shroudb.Effect.Threads
import Shroudb.MemoryStore
import Shroudb.Protocol.Dispatch

/-! `CONFIG SET` in memory and in the log: which concurrent commands leave the two in agreement. -/
namespace Shroudb
open Wire Effect

/-- The value of the last `ConfigChanged` entry of a key. -/
def lastSet (log : List (String × String)) (key : String) : Option String := log.reverse.lookup key

/-- What the configuration holds after a restart: the log is replayed over the seeded values. -/
def recovered (base : String → Option String) (log : List (String × String)) (key : String) :
    Option String :=
  (lastSet log key).or (base key)

theorem lookup_cons_ite (entries : List (String × String)) (key key' value : String) :
    List.lookup key ((key', value) :: entries) =
      if key = key' then some value else entries.lookup key := by
  rw [List.lookup_cons]
  by_cases hk : key = key'
  · simp [hk]
  · have hbeq : (key == key') = false := by simp [hk]
    rw [hbeq, if_neg hk]

theorem lastSet_concat (log : List (String × String)) (key key' value : String) :
    lastSet (log ++ [(key', value)]) key = if key = key' then some value else lastSet log key := by
  rw [lastSet, List.reverse_append, List.reverse_singleton, List.singleton_append,
    lookup_cons_ite]
  rfl

section
variable {C : Crates} {σ : Type}

/-- What the engine documents of its configuration: `apply` appends to the log atomically, and
`set` overwrites the value in memory. -/
structure Backend.KeepsConfig (B : Backend C σ) (log : σ → List (String × String))
    (memory : σ → String → Option String) : Prop where
  hasEngine : B.hasEngine = true
  got : ∀ key s, (B.perform (.configGet key) s).1.map (·.value) = memory s key
  validated : ∀ key value s, log (B.perform (.configValidate key value) s).2 = log s ∧
    memory (B.perform (.configValidate key value) s).2 = memory s
  appended : ∀ key value s, (B.perform (.configApply key value) s).1 = Except.ok () →
    log (B.perform (.configApply key value) s).2 = log s ++ [(key, value)] ∧
      memory (B.perform (.configApply key value) s).2 = memory s
  stored : ∀ key value timestamp s,
    (B.perform (.configStore key value timestamp) s).1 = Except.ok () →
      log (B.perform (.configStore key value timestamp) s).2 = log s ∧
      memory (B.perform (.configStore key value timestamp) s).2 =
        Function.update (memory s) key (some value)

/-- The value field of a reply. -/
def valueReturned : Except (CommandError C) (ResponseMap C) → Option String
  | .error _ => none
  | .ok m =>
    match m.lookup "value" with
    | some (.string value) => some value
    | _ => none

/-- The value `CONFIG GET` returns. -/
def configValue (B : Backend C σ) (d : Dispatcher C σ) (key : String) : Option String :=
  valueReturned ((dispatch B.hasEngine (.configGet key)).run (Dispatcher.answer B) d).1

variable {B : Backend C σ} {log : σ → List (String × String)} {memory : σ → String → Option String}

theorem configValue_eq (hB : B.KeepsConfig log memory) (d : Dispatcher C σ) (key : String) :
    configValue B d key = memory d.store key := by
  have hgot := hB.got key d.store
  rw [configValue, hB.hasEngine, dispatch, if_pos rfl, Handlers.configGet, run_query]
  cases hentry : (B.perform (.configGet key) d.store).1 with
  | none =>
    rw [hentry] at hgot
    exact hgot
  | some entry =>
    rw [hentry] at hgot
    exact hgot

/-! ## One command -/

/-- Where a `CONFIG SET` is after `n` of its operations, as long as none has failed. -/
def ConfigSetAt (key value : String) : Nat → Plan C → Prop
  | 0, p => p = Handlers.configSet key value
  | 1, p => ∃ timestamp, p = Handlers.configTimed key value (some timestamp)
  | 2, p => ∃ timestamp, p = Handlers.configValidated key value timestamp (.ok ())
  | 3, p => ∃ timestamp, p = Handlers.configApplied key value timestamp (.ok ())
  | _, p => p = .pure (.ok ResponseMap.ok)

variable {ι : Type} [DecidableEq ι]

/-- The `CONFIG SET`s that share a dispatcher. -/
abbrev Setters (ι : Type) (C : Crates) (σ : Type) :=
  Threads ι (Op.Answer (C := C)) (Except (CommandError C) (ResponseMap C)) (Dispatcher C σ)

/-- One turn of a command: it fails, or goes on. The third turn is the append and the fourth the
update in memory. -/
theorem ConfigSetAt.turn (hB : B.KeepsConfig log memory) {t : Setters ι C σ} {i : ι}
    {key value : String} {n : Nat} (h : ConfigSetAt key value n (t.program i)) :
    (∃ e, (t.step (Dispatcher.answer B) i).program i = .pure (.error e)) ∨
    ConfigSetAt key value (n + 1) ((t.step (Dispatcher.answer B) i).program i) ∧
      log (t.step (Dispatcher.answer B) i).env.store =
        (if n + 1 = 3 then log t.env.store ++ [(key, value)] else log t.env.store) ∧
      memory (t.step (Dispatcher.answer B) i).env.store =
        if n + 1 = 4 then Function.update (memory t.env.store) key (some value)
        else memory t.env.store := by
  match n with
  | 0 =>
    rw [Threads.step_ask_program h, Threads.step_ask_env h]
    change (∃ e, Handlers.configTimed key value t.env.wall.head = _) ∨ _
    cases hwall : t.env.wall.head with
    | none => exact Or.inl ⟨_, rfl⟩
    | some timestamp => exact Or.inr ⟨⟨timestamp, by rw [Dispatcher.answer, hwall]⟩, rfl, rfl⟩
  | 1 =>
    obtain ⟨timestamp, h⟩ := h
    obtain ⟨hlog, hmemory⟩ := hB.validated key value t.env.store
    rw [Threads.step_ask_program h, Threads.step_ask_env h]
    change (∃ e, Handlers.configValidated key value timestamp
      (B.perform (.configValidate key value) t.env.store).1 = _) ∨ _
    cases hvalid : (B.perform (.configValidate key value) t.env.store).1 with
    | error e => exact Or.inl ⟨_, rfl⟩
    | ok u => exact Or.inr ⟨⟨timestamp, by rw [Dispatcher.answer, hvalid]⟩, hlog, hmemory⟩
  | 2 =>
    obtain ⟨timestamp, h⟩ := h
    rw [Threads.step_ask_program h, Threads.step_ask_env h]
    change (∃ e, Handlers.configApplied key value timestamp
      (B.perform (.configApply key value) t.env.store).1 = _) ∨ _
    cases happend : (B.perform (.configApply key value) t.env.store).1 with
    | error e => exact Or.inl ⟨_, rfl⟩
    | ok u =>
      obtain ⟨hlog, hmemory⟩ := hB.appended key value t.env.store happend
      exact Or.inr ⟨⟨timestamp, by rw [Dispatcher.answer, happend]⟩, hlog, hmemory⟩
  | 3 =>
    obtain ⟨timestamp, h⟩ := h
    rw [Threads.step_ask_program h, Threads.step_ask_env h]
    change (∃ e, Program.pure (Handlers.configStored
      (B.perform (.configStore key value timestamp) t.env.store).1) = _) ∨ _
    cases hstore : (B.perform (.configStore key value timestamp) t.env.store).1 with
    | error e => exact Or.inl ⟨_, rfl⟩
    | ok u =>
      obtain ⟨hlog, hmemory⟩ := hB.stored key value timestamp t.env.store hstore
      exact Or.inr ⟨by rw [Dispatcher.answer, hstore]; rfl, hlog, hmemory⟩
  | n + 4 =>
    rw [Threads.step_pure h]
    exact Or.inr ⟨h, by rw [if_neg (by omega)], by rw [if_neg (by omega)]⟩

/-! ## Any number of commands -/

/-- After `schedule`, with no failure so far: the log follows the last append and the memory the
last update. -/
structure SetProgress (log : σ → List (String × String)) (memory : σ → String → Option String)
    (base : String → Option String) (key : String) (value : ι → String) (start : σ)
    (schedule : List ι) (t : Setters ι C σ) : Prop where
  place : ∀ i, ConfigSetAt key (value i) (schedule.count i) (t.program i)
  logged : recovered base (log t.env.store) key =
    ((Threads.lastTurn 3 schedule).map value).or (recovered base (log start) key)
  held : memory t.env.store key =
    ((Threads.lastTurn 4 schedule).map value).or (memory start key)

section
variable {base : String → Option String} {key : String} {value : ι → String}
  {start : σ} {schedule : List ι} {t : Setters ι C σ}

theorem recovered_concat (entries : List (String × String)) (value : String) :
    recovered base (entries ++ [(key, value)]) key = some value := by
  rw [recovered, lastSet_concat, if_pos rfl, Option.some_or]

theorem SetProgress.turn (hB : B.KeepsConfig log memory)
    (h : SetProgress log memory base key value start schedule t) (i : ι) :
    (∃ e, (t.step (Dispatcher.answer B) i).program i = .pure (.error e)) ∨
      SetProgress log memory base key value start (schedule ++ [i])
        (t.step (Dispatcher.answer B) i) := by
  rcases (h.place i).turn hB with hfailed | ⟨hplace, hlog, hmemory⟩
  · exact Or.inl hfailed
  · refine Or.inr ⟨fun j => ?_, ?_, ?_⟩
    · by_cases hj : j = i
      · subst hj
        rwa [List.count_append, List.count_singleton_self]
      · rw [Threads.step_other hj, List.count_append, List.count_singleton,
          if_neg (by simp [Ne.symm hj])]
        exact h.place j
    · rw [hlog, Threads.lastTurn_concat]
      split_ifs with hturn
      · rw [recovered_concat, Option.map_some, Option.some_or]
      · exact h.logged
    · rw [hmemory, Threads.lastTurn_concat]
      split_ifs with hturn
      · rw [Function.update_self, Option.map_some, Option.some_or]
      · exact h.held

/-- After any schedule a command has failed, or all are where their turns have taken them. -/
theorem setProgress_run (hB : B.KeepsConfig log memory)
    (h : SetProgress log memory base key value start [] t) (schedule : List ι) :
    (∃ i e, (t.run (Dispatcher.answer B) schedule).program i = .pure (.error e)) ∨
      SetProgress log memory base key value start schedule
        (t.run (Dispatcher.answer B) schedule) := by
  refine Threads.run_induction (I := fun schedule u =>
    (∃ i e, u.program i = .pure (.error e)) ∨
      SetProgress log memory base key value start schedule u) (Or.inr h) ?_ schedule
  rintro schedule u i (⟨j, e, hfailed⟩ | hprogress)
  · exact Or.inl ⟨j, e, Threads.step_finished hfailed⟩
  · rcases hprogress.turn hB i with ⟨e, hfailed⟩ | hprogress
    · exact Or.inl ⟨i, e, hfailed⟩
    · exact Or.inr hprogress

theorem ConfigSetAt.finished {value : String} {n : Nat} {m : ResponseMap C}
    (h : ConfigSetAt key value n (.pure (.ok m))) : 4 ≤ n := by
  match n with
  | 0 => cases h
  | 1 =>
    obtain ⟨timestamp, h⟩ := h
    cases h
  | 2 =>
    obtain ⟨timestamp, h⟩ := h
    cases h
  | 3 =>
    obtain ⟨timestamp, h⟩ := h
    cases h
  | n + 4 => omega

/-- When all commands have gone through, memory and log agree exactly if the last append and the
last update are of the same value. -/
theorem config_agrees_iff [Nonempty ι] (hB : B.KeepsConfig log memory) (d : Dispatcher C σ)
    (key : String) (value : ι → String) (schedule : List ι)
    (hdone : ∀ i, ∃ m, ((⟨d, fun i => dispatch B.hasEngine (.configSet key (value i))⟩ :
      Setters ι C σ).run (Dispatcher.answer B) schedule).program i = .pure (.ok m)) :
    let after := ((⟨d, fun i => dispatch B.hasEngine (.configSet key (value i))⟩ :
      Setters ι C σ).run (Dispatcher.answer B) schedule).env
    configValue B after key = recovered base (log after.store) key ↔
      (Threads.lastTurn 4 schedule).map value = (Threads.lastTurn 3 schedule).map value := by
  intro after
  let t : Setters ι C σ := ⟨d, fun i => dispatch B.hasEngine (.configSet key (value i))⟩
  have hbegin : SetProgress log memory base key value d.store [] t := by
    refine ⟨fun i => ?_, rfl, rfl⟩
    change dispatch B.hasEngine (.configSet key (value i)) = _
    rw [hB.hasEngine]
    rfl
  rcases setProgress_run hB hbegin schedule with ⟨i, e, hfailed⟩ | hprogress
  · obtain ⟨m, hm⟩ := hdone i
    cases hfailed.symm.trans hm
  · -- every command has had its four turns, so both last turns exist
    obtain ⟨i⟩ := ‹Nonempty ι›
    obtain ⟨m, hm⟩ := hdone i
    have hplace := hprogress.place i
    rw [hm] at hplace
    have hcount := hplace.finished
    obtain ⟨j, hj⟩ := Option.isSome_iff_exists.mp
      (Threads.lastTurn_isSome (n := 3) (by omega) (by omega : 3 ≤ schedule.count i))
    obtain ⟨k, hk⟩ := Option.isSome_iff_exists.mp
      (Threads.lastTurn_isSome (n := 4) (by omega) hcount)
    rw [configValue_eq hB, hprogress.held, hprogress.logged, hj, hk, Option.map_some,
      Option.map_some, Option.some_or, Option.some_or]

end

end

namespace Memory

/-- A store with a configuration: its log and what it holds in memory, the newest first. -/
structure Configured where
  state : State
  log : List (String × String)
  held : List (String × String)

def performConfig : (c : Call crates) → Configured → c.Answer × Configured
  | .configGet key, s => ((s.held.lookup key).map fun value => ⟨value, "runtime"⟩, s)
  | .configApply key value, s => (.ok (), { s with log := s.log ++ [(key, value)] })
  | .configStore key value _, s => (.ok (), { s with held := (key, value) :: s.held })
  | c, s => ((perform c s.state).1, { s with state := (perform c s.state).2 })

def configured : Backend crates Configured where
  hasEngine := true
  perform := performConfig

theorem configured_keeps :
    configured.KeepsConfig Configured.log fun s key => s.held.lookup key where
  hasEngine := rfl
  got key s := by
    change ((s.held.lookup key).map _).map _ = _
    rw [Option.map_map]
    exact Option.map_id'
  validated _ _ _ := ⟨rfl, rfl⟩
  appended _ _ _ _ := ⟨rfl, rfl⟩
  stored key value timestamp s _ := by
    refine ⟨rfl, funext fun key' => ?_⟩
    rw [Function.update_apply]
    exact lookup_cons_ite s.held key' key value

/-- A server that was started on an empty directory. -/
def unconfigured : Dispatcher crates Configured :=
  .new ⟨[], [], []⟩ (Stream'.const 0) (Stream'.const (some 0))

/-- Two commands for the key `k`: `false` sets it to 1 and `true` to 2. -/
def twoSetters : Setters Bool crates Configured :=
  ⟨unconfigured, fun i => dispatch configured.hasEngine (.configSet "k" (if i then "2" else "1"))⟩

/-- One command after the other. -/
theorem config_agrees_in_turn :
    configValue configured (twoSetters.run (Dispatcher.answer configured)
        [false, false, false, false, true, true, true, true]).env "k" =
      recovered (fun _ => none) (twoSetters.run (Dispatcher.answer configured)
        [false, false, false, false, true, true, true, true]).env.store.log "k" := by
  have hdone : ∀ i, ∃ m, (twoSetters.run (Dispatcher.answer configured)
      [false, false, false, false, true, true, true, true]).program i = .pure (.ok m) := by
    intro i
    cases i <;> exact ⟨_, rfl⟩
  have hsame : (Threads.lastTurn 4 [false, false, false, false, true, true, true, true]).map
      (fun i : Bool => if i then "2" else "1") =
      (Threads.lastTurn 3 [false, false, false, false, true, true, true, true]).map
        fun i : Bool => if i then "2" else "1" := by
    decide
  exact (config_agrees_iff configured_keeps unconfigured "k" _ _ hdone).mpr hsame

/-- The first command is overtaken between its append and its update: the server runs with 1 and
restarts with 2. -/
theorem config_overtaken :
    let after := twoSetters.run (Dispatcher.answer configured)
      [false, false, false, true, true, true, true, false]
    (∀ i, ∃ m, after.program i = .pure (.ok m)) ∧
      configValue configured after.env "k" = some "1" ∧
      recovered (fun _ => none) after.env.store.log "k" = some "2" :=
  ⟨fun i => by cases i <;> exact ⟨_, rfl⟩, rfl, rfl⟩

end Memory

end Shroudb
