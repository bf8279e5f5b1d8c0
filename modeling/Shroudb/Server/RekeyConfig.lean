import Shroudb.Protocol.ConfigLog
import Shroudb.Server.RekeyRuns

/-! The runtime configuration across `run_rekey`. -/
namespace Shroudb
open Wire Effect

section
variable {C : Crates} {E : Storage C} {σ : Type}

def RekeyOp.wipes : RekeyOp C → Bool
  | .removeDirAll => true
  | _ => false

/-- Where the `ConfigChanged` entries of a data directory are: nothing in a rekey adds to them, and
they are gone with the directory. -/
structure Storage.LogsConfig (E : Storage C) (answer : (op : RekeyOp C) → σ → op.Answer E × σ)
    (configLog : σ → List (String × String)) : Prop where
  kept : ∀ op s, op.wipes = false → configLog (answer op s).2 = configLog s
  missing : ∀ s, (answer .dataDirExists s).1 = false → configLog s = []
  removed : ∀ s, (answer .removeDirAll s).1 = Except.ok () →
    configLog (answer .removeDirAll s).2 = []

/-! ## What a rekey leaves of the log -/

section
variable {answer : (op : RekeyOp C) → σ → op.Answer E × σ}
  {configLog : σ → List (String × String)} {s : σ} {oldKey newKey : Bytes}

theorem uses_applyOr {engine : Bytes} {ns : String} {payload : WalPayload C} {failure : String}
    {next : RekeyPlan E} (h : next.Uses (·.wipes = false)) :
    (applyOr E engine ns payload failure next).Uses (·.wipes = false) := by
  refine ⟨rfl, fun a => ?_⟩
  cases a with
  | error e => trivial
  | ok u => exact h

theorem uses_finishRekey (engine : Bytes) : (finishRekey E engine).Uses (·.wipes = false) := by
  refine ⟨rfl, fun a => ?_⟩
  cases a with
  | error e => trivial
  | ok u =>
    refine ⟨rfl, fun b => ?_⟩
    cases b <;> trivial

/-- The replay writes data only. -/
theorem uses_replay (engine : Bytes) (items : List (ReplayItem C)) :
    (replay E engine items).Uses (·.wipes = false) := by
  induction items with
  | nil => exact uses_finishRekey engine
  | cons item rest ih =>
    cases item with
    | createNamespace name config createdAt => exact uses_applyOr ih
    | writeVersion ns key record =>
      obtain ⟨state, value, metadata, updatedAt, actor, expiresAtMs⟩ := record
      refine ⟨rfl, fun current => ?_⟩
      cases state with
      | deleted => exact uses_applyOr ih
      | active =>
        cases value with
        | none => trivial
        | some value => exact uses_applyOr ih

theorem uses_importInto (items : List (ReplayItem C)) :
    (importInto E newKey items).Uses (·.wipes = false) := by
  refine ⟨rfl, fun a => ?_⟩
  cases a with
  | error e => trivial
  | ok index => exact uses_replay newKey items

theorem configLog_importInto (hL : E.LogsConfig answer configLog) (items : List (ReplayItem C))
    (hs : configLog s = []) : configLog ((importInto E newKey items).run answer s).2 = [] := by
  refine Program.run_invariant (I := fun s => configLog s = []) (fun op s hop hs => ?_)
    (uses_importInto items) hs
  rw [hL.kept op s hop, hs]

theorem Storage.LogsConfig.cleared {t : σ} (hL : E.LogsConfig answer configLog)
    (h : Cleared answer s t) : configLog t = [] := by
  rcases h with ⟨hmissing, rfl⟩ | ⟨s', hremoved, rfl⟩
  · rw [hL.kept _ _ rfl, hL.missing s hmissing]
  · exact hL.removed s' hremoved

/-- No `ConfigChanged` entry is left after a rekey. -/
theorem configLog_runRekey (hL : E.LogsConfig answer configLog)
    {bind dataDir oldKeyHex newKeyHex : String}
    (hrun : ((runRekey E bind dataDir oldKeyHex newKeyHex).run answer s).1 = .complete) :
    configLog ((runRekey E bind dataDir oldKeyHex newKeyHex).run answer s).2 = [] := by
  obtain ⟨oldKey, newKey, -, -, heq⟩ := run_runRekey hrun
  rw [heq] at hrun ⊢
  obtain ⟨index, t, -, hcleared, heq⟩ := run_rekeyWith hrun
  rw [heq]
  exact configLog_importInto hL _ (hL.cleared hcleared)

end

/-! ## What a restarted server answers -/

section
variable {τ : Type} {B : Backend C τ} {log : τ → List (String × String)}
  {memory : τ → String → Option String} {base : String → Option String}

/-- A `CONFIG SET` with the context it is executed in. -/
structure ConfigCommand (C : Crates) where
  auth : Option C.AuthContext
  key : String
  value : String

def ConfigCommand.entry (c : ConfigCommand C) : String × String := (c.key, c.value)

def ConfigCommand.after (B : Backend C τ) (d : Dispatcher C τ) (c : ConfigCommand C) :
    Dispatcher C τ :=
  (execute B c.auth (.configSet c.key c.value) d).2

def ConfigCommand.Succeeds (B : Backend C τ) (d : Dispatcher C τ) (c : ConfigCommand C) : Prop :=
  ∃ m, (execute B c.auth (.configSet c.key c.value) d).1 = .success m

/-- A configuration that was recovered from `entries` when the server was started. -/
def Restarted (base : String → Option String) (memory : τ → String → Option String)
    (entries : List (String × String)) (d : Dispatcher C τ) : Prop :=
  ∀ key, memory d.store key = recovered base entries key

/-- A `CONFIG SET` that succeeds has appended its entry. -/
theorem ConfigCommand.log_after (hB : B.KeepsConfig log memory) {d : Dispatcher C τ}
    {c : ConfigCommand C} (h : c.Succeeds B d) :
    log (c.after B d).store = log d.store ++ [c.entry] := by
  obtain ⟨auth, key, value⟩ := c
  obtain ⟨m, hm⟩ := h
  simp only [after, execute, executeLeaf, dispatch, hB.hasEngine, if_true] at hm ⊢
  cases hacl : aclCheck auth (Command.configSet key value).aclRequirement with
  | some e =>
    rw [hacl] at hm
    cases hm
  | none =>
    simp only [hacl, Handlers.configSet, Program.run, Dispatcher.answer] at hm ⊢
    cases hwall : d.wall.head with
    | none =>
      rw [hwall] at hm
      cases hm
    | some timestamp =>
      simp only [hwall, Handlers.configTimed, Program.run, Dispatcher.answer] at hm ⊢
      obtain ⟨hkept, -⟩ := hB.validated key value d.store
      generalize (B.perform (.configValidate key value) d.store).2 = s₁ at hkept hm ⊢
      cases hvalid : (B.perform (.configValidate key value) d.store).1 with
      | error e =>
        rw [hvalid] at hm
        cases hm
      | ok u =>
        simp only [hvalid, Handlers.configValidated, Program.run, Dispatcher.answer] at hm ⊢
        cases happend : (B.perform (.configApply key value) s₁).1 with
        | error e =>
          rw [happend] at hm
          cases hm
        | ok u =>
          obtain ⟨hlog, -⟩ := hB.appended key value s₁ happend
          generalize (B.perform (.configApply key value) s₁).2 = s₂ at hlog hm ⊢
          simp only [happend, Handlers.configApplied, Handlers.query, Program.run,
            Dispatcher.answer] at hm ⊢
          cases hstore : (B.perform (.configStore key value timestamp) s₂).1 with
          | error e =>
            rw [hstore] at hm
            cases hm
          | ok u => rw [(hB.stored key value timestamp s₂ hstore).1, hlog, hkept, entry]

theorem log_run (hB : B.KeepsConfig log memory) {d : Dispatcher C τ}
    {commands : List (ConfigCommand C)}
    (h : Schedule.Guarded (ConfigCommand.after B) (ConfigCommand.Succeeds B) d commands) :
    log (Schedule.run (ConfigCommand.after B) d commands).store =
      log d.store ++ commands.map (·.entry) := by
  induction commands generalizing d with
  | nil => exact (List.append_nil _).symm
  | cons c commands ih =>
    have hrest : log (Schedule.run (ConfigCommand.after B) (c.after B d) commands).store =
        log (c.after B d).store ++ commands.map (·.entry) := ih h.2
    rw [c.log_after hB h.1, List.append_assoc] at hrest
    exact hrest

theorem or_eq_right_iff {α : Type} {a b : Option α} :
    b = a.or b ↔ ∀ x, a = some x → b = some x := by
  cases a with
  | none => simp
  | some x =>
    rw [Option.some_or]
    constructor
    · rintro rfl y hy
      exact hy
    · exact fun h => h x rfl

/-- `CONFIG GET` after a rekey answers as it would have without one exactly for the keys that were
never set, or were last set to the value they are seeded with. -/
theorem rekey_config_iff (hB : B.KeepsConfig log memory)
    {answer : (op : RekeyOp C) → σ → op.Answer E × σ} {configLog : σ → List (String × String)}
    (hL : E.LogsConfig answer configLog) {s : σ} {d : Dispatcher C τ}
    {commands : List (ConfigCommand C)} {bind dataDir oldKeyHex newKeyHex : String}
    (hset : Schedule.Guarded (ConfigCommand.after B) (ConfigCommand.Succeeds B) d commands)
    (hstopped : configLog s = log (Schedule.run (ConfigCommand.after B) d commands).store)
    (hrun : ((runRekey E bind dataDir oldKeyHex newKeyHex).run answer s).1 = .complete)
    {before after : Dispatcher C τ} (hbefore : Restarted base memory (configLog s) before)
    (hafter : Restarted base memory
      (configLog ((runRekey E bind dataDir oldKeyHex newKeyHex).run answer s).2) after)
    (key : String) :
    configValue B after key = configValue B before key ↔
      ∀ value, lastSet (log d.store ++ commands.map (·.entry)) key = some value →
        base key = some value := by
  rw [configValue_eq hB, configValue_eq hB, hafter key, hbefore key, configLog_runRekey hL hrun,
    hstopped, log_run hB hset]
  exact or_eq_right_iff

end

end

namespace Memory

/-- A data directory with the `ConfigChanged` entries of its log. -/
abbrev LoggedDir := EngineDir storage × List (String × String)

def configEntries : LoggedDir → List (String × String)
  | (none, _) => []
  | (some _, entries) => entries

def answerLogged (op : RekeyOp crates) (place : LoggedDir) : op.Answer storage × LoggedDir :=
  ((answerEngine storage op place.1).1, (answerEngine storage op place.1).2,
    if op.wipes then [] else configEntries place)

theorem logged_config : storage.LogsConfig answerLogged configEntries where
  kept op place hop := by
    obtain ⟨dir, entries⟩ := place
    have hentries : (answerLogged op (dir, entries)).2 =
        ((answerEngine storage op dir).2, configEntries (dir, entries)) := by
      simp [answerLogged, hop]
    rw [hentries]
    cases dir with
    | none => cases (answerEngine storage op none).2 <;> rfl
    | some opened =>
      -- an open directory stays
      have hdir : (answerEngine storage op (some opened)).2.isSome := by
        cases op with
        | removeDirAll => cases hop
        | openEngine key =>
          simp only [answerEngine]
          split_ifs <;> rfl
        | applyPayload engine ns payload =>
          simp only [answerEngine]
          split_ifs <;> rfl
        | _ => rfl
      obtain ⟨dir', hdir'⟩ := Option.isSome_iff_exists.mp hdir
      rw [hdir']
      rfl
  missing place h := by
    obtain ⟨dir, entries⟩ := place
    cases dir with
    | none => rfl
    | some opened => cases h
  removed _ _ := rfl

/-- A server on a directory with `entries`, whose configuration is seeded with `k = 1`. -/
def restartOn (entries : List (String × String)) : Dispatcher crates Configured :=
  .new ⟨[], entries, entries.reverse ++ [("k", "1")]⟩ (Stream'.const 0) (Stream'.const (some 0))

theorem restartOn_restarted (entries : List (String × String)) :
    Restarted ([("k", "1")].lookup ·) (fun s key => s.held.lookup key) entries
      (restartOn entries) := by
  intro key
  change List.lookup key (entries.reverse ++ [("k", "1")]) = _
  rw [List.lookup_append]
  rfl

/-- The directory a server leaves that was asked to set `k`. -/
def setDir (value : String) : LoggedDir :=
  (.closed storage oldKey (oneKey (some [118])), [("k", value)])

def setCommand (value : String) : ConfigCommand crates := ⟨some admin, "k", value⟩

/-- A key that was set to the value it is seeded with. -/
theorem rekey_config_seeded :
    configValue configured (restartOn []) "k" =
      configValue configured (restartOn [("k", "1")]) "k" := by
  have hset : Schedule.Guarded (ConfigCommand.after configured) (ConfigCommand.Succeeds configured)
      (restartOn []) [setCommand "1"] := ⟨⟨_, rfl⟩, trivial⟩
  have hrun : ((runRekey storage "127.0.0.1:6399" "data" oldKeyHex newKeyHex).run answerLogged
      (setDir "1")).1 = .complete := rfl
  refine (rekey_config_iff configured_keeps logged_config hset rfl hrun
    (restartOn_restarted [("k", "1")]) (restartOn_restarted []) "k").mpr ?_
  rintro value hvalue
  exact hvalue

/-- A key that was set to another value: without the rekey the server restarts with 2, after it
with 1. -/
theorem rekey_config_forgotten :
    (setCommand "2").Succeeds configured (restartOn []) ∧
      configEntries (setDir "2") = ((setCommand "2").after configured (restartOn [])).store.log ∧
      configValue configured (restartOn (configEntries (setDir "2"))) "k" = some "2" ∧
      ((runRekey storage "127.0.0.1:6399" "data" oldKeyHex newKeyHex).run answerLogged
        (setDir "2")).1 = .complete ∧
      configValue configured (restartOn (configEntries
        ((runRekey storage "127.0.0.1:6399" "data" oldKeyHex newKeyHex).run answerLogged
          (setDir "2")).2)) "k" = some "1" :=
  ⟨⟨_, rfl⟩, rfl, rfl, rfl, rfl⟩

end Memory

end Shroudb
