import Shroudb.Effect.Worker
import Shroudb.Wire.Utf8

/-! The background tasks of the server: what they ask of the engine, and how they stop. -/
namespace Shroudb
open Effect Wire

structure CacheUse where
  totalBytes : UInt64
  len : UInt64
  budgetBytes : UInt64

/-- What the tasks ask of the engine, its index, the dispatcher, the clocks and the metrics. -/
inductive MaintenanceOp where
  | totalEntriesSinceSnapshot
  | timeSinceLastSnapshot
  | snapshotEntryThreshold
  | snapshotTimeThresholdSecs
  | snapshot
  | flushWal
  | uptime
  | namespaceCount
  | activeKeyCounts
  | cacheTracker
  | gauge (name : String) (value : Nat)
  | prune
  | systemTime
  | namespaces
  | findExpiredTombstones (ns : String) (cutoff : UInt64)
  | applyCompacted (ns : String) (keys : List Bytes)
  | sweepTick (nowMs : UInt64)
  | sweptTotal (swept : UInt64)

/-- Durations are in nanoseconds. A namespace comes with its `tombstone_retention_secs`. -/
def MaintenanceOp.Answer : MaintenanceOp → Type
  | .totalEntriesSinceSnapshot | .snapshotEntryThreshold | .snapshotTimeThresholdSecs => UInt64
  | .timeSinceLastSnapshot | .uptime | .namespaceCount => Nat
  | .snapshot | .flushWal | .applyCompacted .. => Except String Unit
  | .activeKeyCounts => List UInt64
  | .cacheTracker => Option CacheUse
  | .gauge .. | .prune | .sweptTotal .. => Unit
  | .systemTime => Option Nat
  | .namespaces => List (String × Option UInt64)
  | .findExpiredTombstones .. => List Bytes
  | .sweepTick .. => Except String UInt64

abbrev MaintenanceProgram := Program MaintenanceOp.Answer Unit

abbrev MaintenanceEvent := (op : MaintenanceOp) × op.Answer

def asSecs (nanos : Nat) : UInt64 := UInt64.ofNat (nanos / 1000000000)

/-- `as_millis() as u64`. -/
def asMillis (nanos : Nat) : UInt64 := UInt64.ofNat (nanos / 1000000)

def saturatingSub (a b : UInt64) : UInt64 := if a < b then 0 else a - b

/-! ## The tasks -/

/-- What `spawn_all` spawns. The batcher is not there when the engine syncs every write. -/
inductive BackgroundTask where
  | snapshotCompactor
  | fsyncBatcher
  | metricsReporter
  | idempotencyReaper
  | tombstoneReaper
  | ttlSweeper
deriving DecidableEq, Repr

namespace BackgroundTask

def compactSnapshots : MaintenanceProgram :=
  .ask .totalEntriesSinceSnapshot fun (entries : UInt64) =>
  .ask .timeSinceLastSnapshot fun (time : Nat) =>
  .ask .snapshotEntryThreshold fun (thresholdEntries : UInt64) =>
  .ask .snapshotTimeThresholdSecs fun (thresholdSecs : UInt64) =>
    if thresholdEntries ≤ entries ∨ thresholdSecs ≤ asSecs time then
      .ask .snapshot fun _ => .pure ()
    else .pure ()

def flush : MaintenanceProgram := .ask .flushWal fun _ => .pure ()

def reportCache : Option CacheUse → MaintenanceProgram
  | none => .pure ()
  | some tracker =>
    .ask (.gauge "shroudb_cache_memory_bytes" tracker.totalBytes.toNat) fun _ =>
    .ask (.gauge "shroudb_cache_resident_keys" tracker.len.toNat) fun _ =>
    .ask (.gauge "shroudb_cache_budget_bytes" tracker.budgetBytes.toNat) fun _ => .pure ()

/-- The gauges take `f64`; here they get the number that is converted, the uptime in
nanoseconds. -/
def report : MaintenanceProgram :=
  .ask .uptime fun (elapsed : Nat) =>
  .ask (.gauge "shroudb_uptime_seconds" elapsed) fun _ =>
  .ask .totalEntriesSinceSnapshot fun (entries : UInt64) =>
  .ask (.gauge "shroudb_wal_entries_since_snapshot" entries.toNat) fun _ =>
  .ask .namespaceCount fun (count : Nat) =>
  .ask (.gauge "shroudb_namespace_count" count) fun _ =>
  .ask .activeKeyCounts fun (counts : List UInt64) =>
  .ask (.gauge "shroudb_active_keys_total" (counts.foldl (· + ·) 0).toNat) fun _ =>
  .ask .cacheTracker reportCache

def pruneCache : MaintenanceProgram := .ask .prune fun _ => .pure ()

/-- The loop of `compact_tombstones`. A namespace that fails does not keep the others from it. -/
def compactNamespaces (now : UInt64) : List (String × Option UInt64) → MaintenanceProgram
  | [] => .pure ()
  | (ns, some retention) :: rest =>
    if 0 < retention then
      .ask (.findExpiredTombstones ns (saturatingSub now retention)) fun (expired : List Bytes) =>
        if expired.isEmpty then compactNamespaces now rest
        else .ask (.applyCompacted ns expired) fun _ => compactNamespaces now rest
    else compactNamespaces now rest
  | (_, none) :: rest => compactNamespaces now rest

def compactTombstones : MaintenanceProgram :=
  .ask .systemTime fun
    | none => .pure ()
    | some (now : Nat) =>
      .ask .namespaces fun (namespaces : List (String × Option UInt64)) =>
        compactNamespaces (asSecs now) namespaces

def sweep : MaintenanceProgram :=
  .ask .systemTime fun
    | none => .pure ()
    | some (now : Nat) =>
      .ask (.sweepTick (asMillis now)) fun
        | .ok (swept : UInt64) =>
          if 0 < swept then .ask (.sweptTotal swept) fun _ => .pure () else .pure ()
        | .error _ => .pure ()

/-- What a task does when its interval ticks. -/
def body : BackgroundTask → MaintenanceProgram
  | .snapshotCompactor => compactSnapshots
  | .fsyncBatcher => flush
  | .metricsReporter => report
  | .idempotencyReaper => pruneCache
  | .tombstoneReaper => compactTombstones
  | .ttlSweeper => sweep

end BackgroundTask

/-! ## What they are allowed -/

/-- The task that changes something by an operation. -/
def MaintenanceOp.owner : MaintenanceOp → Option BackgroundTask
  | .snapshot => some .snapshotCompactor
  | .flushWal => some .fsyncBatcher
  | .gauge .. => some .metricsReporter
  | .prune => some .idempotencyReaper
  | .applyCompacted .. => some .tombstoneReaper
  | .sweepTick .. | .sweptTotal .. => some .ttlSweeper
  | _ => none

/-- Tombstones of a namespace that are older, by the clock, than the namespace keeps them. -/
def Retired (history : List MaintenanceEvent) (ns : String) (cutoff : UInt64) : Prop :=
  ∃ (now : Nat) (namespaces : List (String × Option UInt64)) (retention : UInt64),
    ⟨.systemTime, some now⟩ ∈ history ∧ ⟨.namespaces, namespaces⟩ ∈ history ∧
    (ns, some retention) ∈ namespaces ∧ 0 < retention ∧
    cutoff = saturatingSub (asSecs now) retention

/-- What a task has been answered in its round before it asks. -/
def Reason (history : List MaintenanceEvent) : MaintenanceOp → Prop
  | .snapshot =>
    (∃ entries threshold : UInt64, ⟨.totalEntriesSinceSnapshot, entries⟩ ∈ history ∧
      ⟨.snapshotEntryThreshold, threshold⟩ ∈ history ∧ threshold ≤ entries) ∨
    ∃ (time : Nat) (threshold : UInt64), ⟨.timeSinceLastSnapshot, time⟩ ∈ history ∧
      ⟨.snapshotTimeThresholdSecs, threshold⟩ ∈ history ∧ threshold ≤ asSecs time
  | .findExpiredTombstones ns cutoff => Retired history ns cutoff
  | .applyCompacted ns keys => keys ≠ [] ∧ ∃ cutoff, Retired history ns cutoff ∧
      ⟨.findExpiredTombstones ns cutoff, keys⟩ ∈ history
  | .sweepTick nowMs => ∃ now : Nat, ⟨.systemTime, some now⟩ ∈ history ∧ nowMs = asMillis now
  | .sweptTotal swept => 0 < swept ∧ ∃ nowMs, ⟨.sweepTick nowMs, .ok swept⟩ ∈ history
  | _ => True

def Justified (task : BackgroundTask) (history : List MaintenanceEvent) (op : MaintenanceOp) :
    Prop :=
  (∀ owner, op.owner = some owner → task = owner) ∧ Reason history op

theorem Retired.append {history : List MaintenanceEvent} {ns : String} {cutoff : UInt64}
    (h : Retired history ns cutoff) (later : List MaintenanceEvent) :
    Retired (history ++ later) ns cutoff := by
  obtain ⟨now, namespaces, retention, hnow, hall, h⟩ := h
  exact ⟨now, namespaces, retention, List.mem_append_left _ hnow, List.mem_append_left _ hall, h⟩

section
variable {task : BackgroundTask} {history : List MaintenanceEvent} {op : MaintenanceOp}

theorem justified_read (howner : op.owner = none) (h : Reason history op) :
    Justified task history op := by
  refine ⟨fun owner hown => ?_, h⟩
  rw [howner] at hown
  cases hown

theorem justified_own (howner : op.owner = some task) (h : Reason history op) :
    Justified task history op :=
  ⟨fun _ hown => Option.some.inj (howner.symm.trans hown), h⟩

end

namespace BackgroundTask

theorem compactSnapshots_uses :
    compactSnapshots.UsesAfter (Justified .snapshotCompactor) [] := by
  refine ⟨justified_read rfl trivial, fun (entries : UInt64) => ?_⟩
  refine ⟨justified_read rfl trivial, fun (time : Nat) => ?_⟩
  refine ⟨justified_read rfl trivial, fun (entryThreshold : UInt64) => ?_⟩
  refine ⟨justified_read rfl trivial, fun (timeThreshold : UInt64) => ?_⟩
  dsimp only
  split_ifs with hdue
  · refine ⟨justified_own rfl ?_, fun _ => trivial⟩
    rcases hdue with hentries | htime
    · exact Or.inl ⟨entries, entryThreshold, by simp, by simp, hentries⟩
    · exact Or.inr ⟨time, timeThreshold, by simp, by simp, htime⟩
  · trivial

theorem justified_gauge (history : List MaintenanceEvent) (name : String) (value : Nat) :
    Justified .metricsReporter history (.gauge name value) :=
  justified_own rfl trivial

theorem reportCache_uses {history : List MaintenanceEvent} (tracker : Option CacheUse) :
    (reportCache tracker).UsesAfter (Justified .metricsReporter) history := by
  cases tracker with
  | none => trivial
  | some tracker =>
    exact ⟨justified_gauge _ _ _, fun _ => ⟨justified_gauge _ _ _, fun _ =>
      ⟨justified_gauge _ _ _, fun _ => trivial⟩⟩⟩

theorem report_uses : report.UsesAfter (Justified .metricsReporter) [] := by
  refine ⟨justified_read rfl trivial, fun elapsed => ⟨justified_gauge _ _ _, fun _ => ?_⟩⟩
  refine ⟨justified_read rfl trivial, fun entries => ⟨justified_gauge _ _ _, fun _ => ?_⟩⟩
  refine ⟨justified_read rfl trivial, fun count => ⟨justified_gauge _ _ _, fun _ => ?_⟩⟩
  refine ⟨justified_read rfl trivial, fun counts => ⟨justified_gauge _ _ _, fun _ => ?_⟩⟩
  exact ⟨justified_read rfl trivial, fun tracker => reportCache_uses tracker⟩

theorem compactNamespaces_uses {now : Nat} {all namespaces : List (String × Option UInt64)}
    {history : List MaintenanceEvent} (hnow : ⟨.systemTime, some now⟩ ∈ history)
    (hall : ⟨.namespaces, all⟩ ∈ history) (hsub : ∀ e ∈ namespaces, e ∈ all) :
    (compactNamespaces (asSecs now) namespaces).UsesAfter (Justified .tombstoneReaper)
      history := by
  induction namespaces generalizing history with
  | nil => trivial
  | cons entry rest ih =>
    have hrest : ∀ e ∈ rest, e ∈ all := fun e he => hsub e (List.mem_cons_of_mem _ he)
    obtain ⟨ns, _ | retention⟩ := entry
    · exact ih hnow hall hrest
    rw [compactNamespaces]
    split_ifs with hretention
    · have hretired : Retired history ns (saturatingSub (asSecs now) retention) :=
        ⟨now, all, retention, hnow, hall, hsub _ List.mem_cons_self, hretention, rfl⟩
      refine ⟨justified_read rfl hretired, fun (expired : List Bytes) => ?_⟩
      have hnow := List.mem_append_left
        [(⟨.findExpiredTombstones ns (saturatingSub (asSecs now) retention), expired⟩ :
          MaintenanceEvent)] hnow
      have hall := List.mem_append_left
        [(⟨.findExpiredTombstones ns (saturatingSub (asSecs now) retention), expired⟩ :
          MaintenanceEvent)] hall
      dsimp only
      split_ifs with hexpired
      · exact ih hnow hall hrest
      · refine ⟨justified_own rfl ⟨?_, _, hretired.append _, List.mem_append_right _ ?_⟩,
          fun _ => ?_⟩
        · simpa using hexpired
        · exact List.mem_singleton_self _
        · exact ih (List.mem_append_left _ hnow) (List.mem_append_left _ hall) hrest
    · exact ih hnow hall hrest

theorem compactTombstones_uses :
    compactTombstones.UsesAfter (Justified .tombstoneReaper) [] := by
  refine ⟨justified_read rfl trivial, ?_⟩
  rintro (_ | now)
  · trivial
  refine ⟨justified_read rfl trivial, fun namespaces => ?_⟩
  exact compactNamespaces_uses (by simp) (by simp) fun _ h => h

theorem sweep_uses : sweep.UsesAfter (Justified .ttlSweeper) [] := by
  refine ⟨justified_read rfl trivial, ?_⟩
  rintro (_ | now)
  · trivial
  refine ⟨justified_own rfl ⟨now, by simp, rfl⟩, ?_⟩
  rintro (_ | (swept : UInt64))
  · trivial
  dsimp only
  split_ifs with hswept
  · exact ⟨justified_own rfl ⟨hswept, asMillis now, by simp⟩, fun _ => trivial⟩
  · trivial

theorem body_uses (task : BackgroundTask) : task.body.UsesAfter (Justified task) [] := by
  cases task with
  | snapshotCompactor => exact compactSnapshots_uses
  | fsyncBatcher => exact ⟨justified_own rfl trivial, fun _ => trivial⟩
  | metricsReporter => exact report_uses
  | idempotencyReaper => exact ⟨justified_own rfl trivial, fun _ => trivial⟩
  | tombstoneReaper => exact compactTombstones_uses
  | ttlSweeper => exact sweep_uses

end BackgroundTask

variable {σ : Type}

/-- Whatever the engine answers and whatever else happens to it between two awaits, a task that
changes something has the reason for it from the same round: a snapshot is due by one of the
thresholds, and what is compacted are the tombstones that were found past the retention of their
namespace. -/
theorem maintenance_justified (answer : (op : MaintenanceOp) → σ → op.Answer × σ) (engine : σ)
    (moves : List (WorkersMove BackgroundTask σ)) (task : BackgroundTask) :
    let w := (Schedule.run (Workers.move answer BackgroundTask.body) (.new engine) moves).worker task
    ∀ round ∈ w.rounds ++ [w.current], ∀ before e after, round = before ++ e :: after →
      Justified task before e.1 := by
  intro w round hround
  have hsound : w.Sound (Justified task) :=
    Workers.sound_run BackgroundTask.body_uses engine moves task
  rcases List.mem_append.mp hround with hround | hround
  · exact hsound.rounds round hround
  · rw [List.mem_singleton.mp hround]
    exact hsound.current

/-- After the shutdown signal no task begins a round, and each that is given turns again and again
comes to its end and asks nothing after it. -/
theorem background_winds_down (answer : (op : MaintenanceOp) → σ → op.Answer × σ) (engine : σ)
    (moves : Nat → WorkersMove BackgroundTask σ) (n : Nat) (hsignal : moves n = .signal)
    (task : BackgroundTask) :
    let states := Schedule.execution (Workers.move answer BackgroundTask.body) (.new engine) moves
    (∀ m, n < m → ((states m).worker task).begun = ((states n).worker task).begun) ∧
    ((∀ k, ∃ m, k ≤ m ∧ moves m = .turn task) → ∃ m, n < m ∧
      ((states m).worker task).phase = .stopped ∧
      ∀ k, m ≤ k → (states k).worker task = (states m).worker task) := by
  intro states
  refine ⟨fun m hm => (Workers.begun_execution engine hsignal hm task).1, fun hfair => ?_⟩
  obtain ⟨m, hm, hstopped⟩ := Workers.exists_stopped engine hsignal hfair
  exact ⟨m, hm, hstopped, fun k hk => Workers.stopped_forever (.new engine) hk hstopped⟩

namespace Memory

/-- An engine with one tombstone to compact, and the compactions it was asked for. -/
def answerMaintenance : (op : MaintenanceOp) → List (String × List Bytes) →
    op.Answer × List (String × List Bytes)
  | .totalEntriesSinceSnapshot, log => ((0 : UInt64), log)
  | .snapshotEntryThreshold, log => ((1 : UInt64), log)
  | .snapshotTimeThresholdSecs, log => ((1 : UInt64), log)
  | .timeSinceLastSnapshot, log => ((0 : Nat), log)
  | .uptime, log => ((0 : Nat), log)
  | .namespaceCount, log => ((2 : Nat), log)
  | .snapshot, log => (.ok (), log)
  | .flushWal, log => (.ok (), log)
  | .applyCompacted ns keys, log => (.ok (), log ++ [(ns, keys)])
  | .activeKeyCounts, log => ([], log)
  | .cacheTracker, log => (none, log)
  | .gauge .., log => ((), log)
  | .prune, log => ((), log)
  | .sweptTotal .., log => ((), log)
  | .systemTime, log => (some (100000000000 : Nat), log)
  | .namespaces, log => ([("a", some 10), ("b", none)], log)
  | .findExpiredTombstones ns cutoff, log =>
    (if ns = "a" ∧ cutoff = 90 then [[107]] else [], log)
  | .sweepTick .., log => (.ok 0, log)

/-- The signal comes when the reaper has looked at the clock. -/
theorem round_ends_after_signal :
    let moves := fun n : Nat =>
      if n = 2 then WorkersMove.signal else WorkersMove.turn BackgroundTask.tombstoneReaper
    let states := Schedule.execution (Workers.move answerMaintenance BackgroundTask.body)
      (.new []) moves
    (∀ m, 2 < m → ((states m).worker .tombstoneReaper).begun = 1) ∧
    (∃ m, 2 < m ∧ ((states m).worker .tombstoneReaper).phase = .stopped) ∧
    (states 6).env = [("a", [[107]])] := by
  intro moves states
  have hfair : ∀ k, ∃ m, k ≤ m ∧ moves m = .turn .tombstoneReaper :=
    fun k => ⟨k + 3, by omega, if_neg (by omega)⟩
  obtain ⟨hbegun, hstops⟩ :=
    background_winds_down answerMaintenance [] moves 2 rfl .tombstoneReaper
  obtain ⟨m, hm, hstopped, -⟩ := hstops hfair
  exact ⟨hbegun, ⟨m, hm, hstopped⟩, rfl⟩

end Memory

end Shroudb
