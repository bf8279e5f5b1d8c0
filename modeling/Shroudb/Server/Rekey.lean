import Shroudb.Effect.Program
import Shroudb.MemoryStore
import Shroudb.Protocol.Handlers

/-! `run_rekey`: the offline change of the master key, and what a stop leaves in the data
directory. -/
namespace Shroudb
open Wire Effect

/-- `value` is `none` when the value is not resident in memory. -/
structure VersionRecord (C : Crates) where
  state : EntryState
  value : Option Bytes
  metadata : C.Metadata
  updatedAt : UInt64
  actor : String
  expiresAtMs : Option UInt64

structure NamespaceSnapshot (C : Crates) where
  name : String
  config : NamespaceConfig C
  createdAt : UInt64
  keys : List (Bytes × List (VersionRecord C))

inductive WalPayload (C : Crates) where
  | namespaceCreated (name : String) (config : NamespaceConfig C) (createdAt : UInt64)
  | entryPut (key value : Bytes) (metadata : C.Metadata) (version : UInt64) (actor : String)
  | entryDeleted (key : Bytes) (version : UInt64) (actor : String)

/-- What `run_rekey` takes from `shroudb_storage` and `hex`. `capture` lists what the index of an
engine holds, and `apply` is the index after a payload. -/
structure Storage (C : Crates) where
  Index : Type
  empty : Index
  capture : Index → List (NamespaceSnapshot C)
  currentVersion : Index → String → Bytes → Option UInt64
  apply : Index → String → WalPayload C → Index
  decodeHex : String → Except String Bytes

/-- An engine is named by the master key it was opened with. -/
inductive RekeyOp (C : Crates) where
  | bindPort
  | openEngine (key : Bytes)
  | shutdownEngine (key : Bytes)
  | dataDirExists
  | removeDirAll
  | currentVersion (engine : Bytes) (ns : String) (key : Bytes)
  | applyPayload (engine : Bytes) (ns : String) (payload : WalPayload C)
  | snapshotEngine (engine : Bytes)

def RekeyOp.Answer {C : Crates} (E : Storage C) : RekeyOp C → Type
  | .bindPort => Bool
  | .openEngine _ => Except String E.Index
  | .shutdownEngine _ => Except String Unit
  | .dataDirExists => Bool
  | .removeDirAll => Except String Unit
  | .currentVersion .. => Option UInt64
  | .applyPayload .. => Except String Unit
  | .snapshotEngine _ => Except String Unit

inductive RekeyExit where
  | complete
  | failed (message : String)
  | panicked (message : String)
deriving DecidableEq, Repr

/-- One round of the loops that replay the captured data. -/
inductive ReplayItem (C : Crates) where
  | createNamespace (name : String) (config : NamespaceConfig C) (createdAt : UInt64)
  | writeVersion (ns : String) (key : Bytes) (record : VersionRecord C)

section
variable {C : Crates}

def NamespaceSnapshot.items (ns : NamespaceSnapshot C) : List (ReplayItem C) :=
  .createNamespace ns.name ns.config ns.createdAt ::
    ns.keys.flatMap fun (key, versions) => versions.map (.writeVersion ns.name key)

variable (E : Storage C)

abbrev RekeyPlan := Program (RekeyOp.Answer E) RekeyExit

def nextVersion (current : Option UInt64) : UInt64 :=
  match current with
  | some version => version + 1
  | none => 1

/-- Applies a payload and goes on when that succeeds. -/
def applyOr (engine : Bytes) (ns : String) (payload : WalPayload C) (failure : String)
    (next : RekeyPlan E) : RekeyPlan E :=
  .ask (.applyPayload engine ns payload) fun
    | .error e => .pure (.failed (failure ++ ": " ++ e))
    | .ok _ => next

def finishRekey (engine : Bytes) : RekeyPlan E :=
  .ask (.snapshotEngine engine) fun
    | .error e => .pure (.failed ("failed to snapshot new state: " ++ e))
    | .ok _ => .ask (.shutdownEngine engine) fun
      | .error e => .pure (.failed e)
      | .ok _ => .pure .complete

def replay (engine : Bytes) : List (ReplayItem C) → RekeyPlan E
  | [] => finishRekey E engine
  | .createNamespace name config createdAt :: rest =>
    applyOr E engine "__system__" (.namespaceCreated name config createdAt)
      ("failed to create namespace " ++ name) (replay engine rest)
  | .writeVersion ns key record :: rest =>
    .ask (.currentVersion engine ns key) fun current =>
      match record.state, record.value with
      | .active, some value =>
        applyOr E engine ns
          (.entryPut key value record.metadata (nextVersion current) record.actor)
          "failed to write key" (replay engine rest)
      | .active, none => .pure (.panicked "value must be resident during import")
      | .deleted, _ =>
        applyOr E engine ns (.entryDeleted key (nextVersion current) record.actor)
          "failed to write tombstone" (replay engine rest)

/-- Opening the fresh engine and replaying what was captured. -/
def importInto (newKey : Bytes) (items : List (ReplayItem C)) : RekeyPlan E :=
  .ask (.openEngine newKey) fun
    | .error _ => .pure (.failed "failed to open fresh storage with new key")
    | .ok _ => replay E newKey items

def rekeyItems (index : E.Index) : List (ReplayItem C) :=
  (E.capture index).flatMap NamespaceSnapshot.items

def rekeyWith (dataDir : String) (oldKey newKey : Bytes) : RekeyPlan E :=
  .ask (.openEngine oldKey) fun
    | .error _ => .pure (.failed "failed to open storage with old key — is the old key correct?")
    | .ok index => .ask (.shutdownEngine oldKey) fun
      | .error e => .pure (.failed e)
      | .ok _ => .ask .dataDirExists fun
        | false => importInto E newKey (rekeyItems E index)
        | true => .ask .removeDirAll fun
          | .error _ => .pure (.failed ("failed to remove data dir: " ++ dataDir))
          | .ok _ => importInto E newKey (rekeyItems E index)

def runRekey (bind dataDir oldKeyHex newKeyHex : String) : RekeyPlan E :=
  .ask .bindPort fun
    | false => .pure (.failed ("port " ++ bind ++ " is in use — stop the running server before rekey"))
    | true =>
      match E.decodeHex oldKeyHex, E.decodeHex newKeyHex with
      | .error _, _ => .pure (.failed "invalid old key hex")
      | .ok _, .error _ => .pure (.failed "invalid new key hex")
      | .ok oldKey, .ok newKey =>
        if oldKey.length ≠ 32 then
          .pure (.failed s!"old key must be 32 bytes (64 hex chars), got {oldKey.length}")
        else if newKey.length ≠ 32 then
          .pure (.failed s!"new key must be 32 bytes (64 hex chars), got {newKey.length}")
        else rekeyWith E dataDir oldKey newKey

/-- Nothing of what the open engine holds is still to be written. -/
def Storage.Settled {σ : Type} (holds loads : σ → Bytes → Option E.Index) (s : σ) (key : Bytes)
    (index : E.Index) : Prop :=
  holds s key = some index ∧ loads s key = some index

/-- `holds s key` is the index of the engine that is open under `key`, and `loads s key` is the one
an engine opened with `key` loads from what is on disk. A payload that is acknowledged is in the
first; it gets to the disk with the next snapshot at the latest. What an operation that fails
leaves behind is open, but for the opening of an engine and for an engine with nothing to write. -/
structure Storage.Durable {σ : Type} (answer : (op : RekeyOp C) → σ → op.Answer E × σ)
    (holds loads : σ → Bytes → Option E.Index) : Prop where
  captureEmpty : E.capture E.empty = []
  bindPort : ∀ s, loads (answer .bindPort s).2 = loads s
  opened : ∀ key s index, (answer (.openEngine key) s).1 = Except.ok index →
    loads s key = some index ∧ E.Settled holds loads (answer (.openEngine key) s).2 key index
  openFailed : ∀ key s e, (answer (.openEngine key) s).1 = Except.error e →
    loads (answer (.openEngine key) s).2 = loads s
  shutdown : ∀ key s index, E.Settled holds loads s key index →
    loads (answer (.shutdownEngine key) s).2 key = some index
  looked : ∀ s, loads (answer .dataDirExists s).2 = loads s
  missing : ∀ s key, (answer .dataDirExists s).1 = false → loads s key = some E.empty
  removed : ∀ s key, (answer .removeDirAll s).1 = Except.ok () →
    loads (answer .removeDirAll s).2 key = some E.empty
  currentVersion : ∀ engine ns key s index, holds s engine = some index →
    (answer (.currentVersion engine ns key) s).1 = E.currentVersion index ns key ∧
      holds (answer (.currentVersion engine ns key) s).2 engine = some index ∧
      loads (answer (.currentVersion engine ns key) s).2 engine = loads s engine
  applied : ∀ engine ns payload s index, holds s engine = some index →
    (answer (.applyPayload engine ns payload) s).1 = Except.ok () →
      holds (answer (.applyPayload engine ns payload) s).2 engine = some (E.apply index ns payload)
  snapshot : ∀ engine s index, holds s engine = some index →
    (answer (.snapshotEngine engine) s).1 = Except.ok () ∨ loads s engine = some index →
      E.Settled holds loads (answer (.snapshotEngine engine) s).2 engine index

/-- The fsync mode `per_write`: a payload is on disk before it is acknowledged. -/
def Storage.SyncsWrites {σ : Type} (answer : (op : RekeyOp C) → σ → op.Answer E × σ)
    (holds loads : σ → Bytes → Option E.Index) : Prop :=
  ∀ engine ns payload s index, E.Settled holds loads s engine index →
    (answer (.applyPayload engine ns payload) s).1 = Except.ok () →
      loads (answer (.applyPayload engine ns payload) s).2 engine = some (E.apply index ns payload)

/-- The index after one round of the replay, if the round can be done. -/
def replayItem (index : E.Index) : ReplayItem C → Option E.Index
  | .createNamespace name config createdAt =>
    some (E.apply index "__system__" (.namespaceCreated name config createdAt))
  | .writeVersion ns key record =>
    let version := nextVersion (E.currentVersion index ns key)
    match record.state, record.value with
    | .active, some value =>
      some (E.apply index ns (.entryPut key value record.metadata version record.actor))
    | .active, none => none
    | .deleted, _ => some (E.apply index ns (.entryDeleted key version record.actor))

def replayed (items : List (ReplayItem C)) : Option E.Index :=
  items.foldlM (replayItem E) E.empty

variable {E}

def isAcknowledged : (op : RekeyOp C) × op.Answer E → Bool
  | ⟨.applyPayload .., .ok _⟩ => true
  | _ => false

/-- How many payloads the new engine has acknowledged. -/
def acknowledged (history : List ((op : RekeyOp C) × op.Answer E)) : Nat :=
  history.countP isAcknowledged

/-- The directory holds the original data under the old key or all of the replayed data under the
new one. -/
def Survives (loads : Bytes → Option E.Index) (oldKey newKey : Bytes) (index : E.Index) : Prop :=
  loads oldKey = some index ∨
    ∃ fresh, replayed E (rekeyItems E index) = some fresh ∧ loads newKey = some fresh

def isFailedWipe : (op : RekeyOp C) × op.Answer E → Bool
  | ⟨.removeDirAll, .error _⟩ => true
  | _ => false

def isSnapshot : (op : RekeyOp C) × op.Answer E → Bool
  | ⟨.snapshotEngine _, .ok _⟩ => true
  | _ => false

/-- The snapshot that ends the replay has been acknowledged or, where every payload is written
before it is acknowledged, `count` payloads have. -/
def ReplayWritten (syncs : Prop) (count : Nat)
    (history : List ((op : RekeyOp C) × op.Answer E)) : Prop :=
  (∃ e ∈ history, isSnapshot e) ∨ syncs ∧ acknowledged history = count

/-- The wipe has not been reached, or it did not fail and everything captured has been written
again. -/
def SafeStop (syncs : Prop) (index : E.Index)
    (history : List ((op : RekeyOp C) × op.Answer E)) : Prop :=
  (∀ e ∈ history, e.1 ≠ .removeDirAll) ∨
    (∀ e ∈ history, isFailedWipe e = false) ∧
      ReplayWritten syncs (rekeyItems E index).length history

section
variable {σ : Type} {answer : (op : RekeyOp C) → σ → op.Answer E × σ}
  {holds loads : σ → Bytes → Option E.Index} {s : σ} {engine oldKey newKey : Bytes}
  {index : E.Index} {syncs : Prop}

theorem ReplayWritten.of_cons {count : Nat} {e : (op : RekeyOp C) × op.Answer E}
    {history : List ((op : RekeyOp C) × op.Answer E)} (h : ReplayWritten syncs count (e :: history))
    (hs : isSnapshot e = false) :
    ReplayWritten syncs (count - if isAcknowledged e then 1 else 0) history := by
  rcases h with ⟨e', he', hsnap⟩ | ⟨hsyncs, hall⟩
  · refine Or.inl ⟨e', (List.mem_cons.mp he').resolve_left ?_, hsnap⟩
    rintro rfl
    simp [hs] at hsnap
  · rw [acknowledged, List.countP_cons] at hall
    exact Or.inr ⟨hsyncs, Nat.eq_sub_of_add_eq hall⟩

/-- Where nothing has been acknowledged, nothing was to be written. -/
theorem ReplayWritten.eq_zero {count : Nat} {history : List ((op : RekeyOp C) × op.Answer E)}
    (h : ReplayWritten syncs count history)
    (hnone : ∀ e ∈ history, isSnapshot e = false ∧ isAcknowledged e = false) : count = 0 := by
  rcases h with ⟨e, he, hsnap⟩ | ⟨-, hall⟩
  · simp [(hnone e he).1] at hsnap
  · rw [← hall, acknowledged, List.countP_eq_zero]
    exact fun e he => by simp [(hnone e he).2]

/-- The payload was acknowledged if more has been written than the rest of the replay has. -/
theorem stopAfter_applyOr {ns : String} {payload : WalPayload C} {failure : String}
    {next : RekeyPlan E} {n count : Nat}
    (h : ReplayWritten syncs (count + 1)
      ((applyOr E engine ns payload failure next).stopAfter answer n s).1) :
    ∃ m, (answer (.applyPayload engine ns payload) s).1 = Except.ok () ∧
      ReplayWritten syncs count
        (next.stopAfter answer m (answer (.applyPayload engine ns payload) s).2).1 ∧
      ((applyOr E engine ns payload failure next).stopAfter answer n s).2 =
        (next.stopAfter answer m (answer (.applyPayload engine ns payload) s).2).2 := by
  cases n with
  | zero => cases h.eq_zero (by simp)
  | succ m =>
    rw [applyOr, Program.stopAfter_ask] at h ⊢
    generalize (answer (.applyPayload engine ns payload) s).2 = s' at h ⊢
    cases ha : (answer (.applyPayload engine ns payload) s).1 with
    | error e => cases h.eq_zero (by simp [ha, isSnapshot, isAcknowledged])
    | ok u =>
      rw [ha] at h
      exact ⟨m, rfl, h.of_cons rfl, rfl⟩

/-- The end of the replay: what the engine holds is on disk already, or the snapshot puts it
there. -/
theorem stopAfter_finishRekey (hd : E.Durable answer holds loads)
    (hs : holds s engine = some index) (n : Nat)
    (h : loads s engine = some index ∨
      ∃ e ∈ ((finishRekey E engine).stopAfter answer n s).1, isSnapshot e) :
    loads ((finishRekey E engine).stopAfter answer n s).2 engine = some index := by
  cases n with
  | zero => exact h.resolve_right (by simp)
  | succ n =>
    rw [finishRekey, Program.stopAfter_ask] at h ⊢
    cases hsnap : (answer (.snapshotEngine engine) s).1 with
    | error e =>
      simp only [hsnap, Program.stopAfter_pure] at h ⊢
      exact (hd.snapshot _ _ _ hs (Or.inr (h.resolve_right (by simp [isSnapshot])))).2
    | ok u =>
      have hsettled := hd.snapshot _ _ _ hs (Or.inl hsnap)
      generalize (answer (.snapshotEngine engine) s).2 = s₁ at hsettled ⊢
      cases n with
      | zero => exact hsettled.2
      | succ n =>
        have hshutdown := hd.shutdown _ _ _ hsettled
        simp only [Program.stopAfter_ask]
        cases (answer (.shutdownEngine engine) s₁).1 <;> simpa using hshutdown

/-- When everything has been written, what is on disk is the whole replay. -/
theorem stopAfter_replay (hd : E.Durable answer holds loads)
    (hsyncs : syncs → E.SyncsWrites answer holds loads) (items : List (ReplayItem C)) (n : Nat)
    (hs : holds s engine = some index) (hdisk : syncs → loads s engine = some index)
    (hall : ReplayWritten syncs items.length ((replay E engine items).stopAfter answer n s).1) :
    ∃ fresh, items.foldlM (replayItem E) index = some fresh ∧
      loads ((replay E engine items).stopAfter answer n s).2 engine = some fresh := by
  induction items generalizing n s index with
  | nil =>
    refine ⟨index, rfl, stopAfter_finishRekey hd hs n ?_⟩
    exact hall.symm.imp_left fun h => hdisk h.1
  | cons item rest ih =>
    -- one payload of the item is acknowledged, and then those of the rest
    have hpayload : ∀ {ns payload failure s index n}, holds s engine = some index →
        (syncs → loads s engine = some index) →
        ReplayWritten syncs (rest.length + 1) ((applyOr E engine ns payload failure
          (replay E engine rest)).stopAfter answer n s).1 →
        ∃ fresh, rest.foldlM (replayItem E) (E.apply index ns payload) = some fresh ∧
          loads ((applyOr E engine ns payload failure (replay E engine rest)).stopAfter
            answer n s).2 engine = some fresh := by
      intro ns payload failure s index n hs hdisk hall
      obtain ⟨m, hok, hrest, hstop⟩ := stopAfter_applyOr hall
      rw [hstop]
      exact ih m (hd.applied _ _ _ _ _ hs hok)
        (fun h => hsyncs h _ _ _ _ _ ⟨hs, hdisk h⟩ hok) hrest
    cases item with
    | createNamespace name config createdAt => exact hpayload hs hdisk hall
    | writeVersion ns key record =>
      obtain ⟨state, value, metadata, updatedAt, actor, expiresAtMs⟩ := record
      rw [replay] at hall ⊢
      cases n with
      | zero => cases hall.eq_zero (by simp)
      | succ n =>
        obtain ⟨hversion, hs', hsame⟩ := hd.currentVersion engine ns key s index hs
        have hdisk' := fun h => hsame.trans (hdisk h)
        rw [Program.stopAfter_ask] at hall ⊢
        replace hall := hall.of_cons rfl
        simp only [hversion] at hall ⊢
        cases state with
        | deleted => exact hpayload hs' hdisk' hall
        | active =>
          cases value with
          | none => cases hall.eq_zero (by simp)
          | some value => exact hpayload hs' hdisk' hall

theorem stopAfter_importInto (hd : E.Durable answer holds loads)
    (hsyncs : syncs → E.SyncsWrites answer holds loads) (items : List (ReplayItem C)) (n : Nat)
    (hs : loads s newKey = some E.empty)
    (hall : items = [] ∨
      ReplayWritten syncs items.length ((importInto E newKey items).stopAfter answer n s).1) :
    ∃ fresh, replayed E items = some fresh ∧
      loads ((importInto E newKey items).stopAfter answer n s).2 newKey = some fresh := by
  have hnil : (∀ e ∈ ((importInto E newKey items).stopAfter answer n s).1,
      isSnapshot e = false ∧ isAcknowledged e = false) → items = [] := fun hnone =>
    hall.elim id fun hall => List.length_eq_zero_iff.mp (hall.eq_zero hnone)
  cases n with
  | zero =>
    obtain rfl := hnil (by simp)
    exact ⟨E.empty, rfl, hs⟩
  | succ n =>
    rw [importInto, Program.stopAfter_ask] at hall hnil ⊢
    cases ha : (answer (.openEngine newKey) s).1 with
    | error e =>
      simp only [ha, Program.stopAfter_pure] at hnil ⊢
      obtain rfl := hnil (by simp [isSnapshot, isAcknowledged])
      exact ⟨E.empty, rfl, by rw [hd.openFailed _ _ _ ha, hs]⟩
    | ok index =>
      obtain ⟨hbefore, hheld, hafter⟩ := hd.opened _ _ _ ha
      obtain rfl : index = E.empty := Option.some.inj (hbefore.symm.trans hs)
      simp only [ha] at hall ⊢
      rcases hall with rfl | hall
      · exact ⟨E.empty, rfl, stopAfter_finishRekey hd hheld n (Or.inl hafter)⟩
      · exact stopAfter_replay hd hsyncs items n hheld (fun _ => hafter) (hall.of_cons rfl)

theorem SafeStop.of_cons {e : (op : RekeyOp C) × op.Answer E}
    {history : List ((op : RekeyOp C) × op.Answer E)} (h : SafeStop syncs index (e :: history))
    (hs : isSnapshot e = false) (ha : isAcknowledged e = false) :
    SafeStop syncs index history := by
  rcases h with hnone | ⟨hwipe, hall⟩
  · exact Or.inl fun e he => hnone e (List.mem_cons_of_mem _ he)
  · have hall := hall.of_cons hs
    rw [ha] at hall
    exact Or.inr ⟨fun e he => hwipe e (List.mem_cons_of_mem _ he), hall⟩

/-- From the wipe on, a safe stop is one after the whole replay. -/
theorem stopAfter_wipe (hd : E.Durable answer holds loads)
    (hsyncs : syncs → E.SyncsWrites answer holds loads) {dataDir : String} {n : Nat}
    (hs : loads s oldKey = some index)
    (hsafe : SafeStop syncs index ((Program.ask .removeDirAll fun
      | .error _ => .pure (.failed ("failed to remove data dir: " ++ dataDir))
      | .ok _ => importInto E newKey (rekeyItems E index) : RekeyPlan E).stopAfter answer n s).1) :
    Survives (loads ((Program.ask .removeDirAll fun
      | .error _ => .pure (.failed ("failed to remove data dir: " ++ dataDir))
      | .ok _ => importInto E newKey (rekeyItems E index) : RekeyPlan E).stopAfter answer n s).2)
        oldKey newKey index := by
  cases n with
  | zero => exact Or.inl hs
  | succ n =>
    rw [Program.stopAfter_ask] at hsafe ⊢
    rcases hsafe with hnone | ⟨hwipe, hall⟩
    · exact absurd rfl (hnone _ List.mem_cons_self)
    have hrest := hall.of_cons rfl
    cases hrem : (answer .removeDirAll s).1 with
    | error e =>
      have hfailed := hwipe _ List.mem_cons_self
      simp [hrem, isFailedWipe] at hfailed
    | ok u =>
      simp only [hrem] at hrest ⊢
      exact Or.inr (stopAfter_importInto hd hsyncs _ n (hd.removed _ _ hrem) (Or.inr hrest))

/-- An operation before the wipe: a stop in front of it leaves the old engine's data, and after it
the rest of the plan decides. -/
theorem survives_ask {op : RekeyOp C} {next : op.Answer E → RekeyPlan E} {n : Nat}
    (hs : loads s oldKey = some index) (hsnap : isSnapshot ⟨op, (answer op s).1⟩ = false)
    (ha : isAcknowledged ⟨op, (answer op s).1⟩ = false)
    (hrest : ∀ m, SafeStop syncs index
        ((next (answer op s).1).stopAfter answer m (answer op s).2).1 →
      Survives (loads ((next (answer op s).1).stopAfter answer m (answer op s).2).2)
        oldKey newKey index)
    (hsafe : SafeStop syncs index ((Program.ask op next).stopAfter answer n s).1) :
    Survives (loads ((Program.ask op next).stopAfter answer n s).2) oldKey newKey index := by
  cases n with
  | zero => exact Or.inl hs
  | succ m =>
    rw [Program.stopAfter_ask] at hsafe ⊢
    exact hrest m (hsafe.of_cons hsnap ha)

theorem survives_pure {exit : RekeyExit} {m : Nat} (hs : loads s oldKey = some index) :
    Survives (loads ((Program.pure exit : RekeyPlan E).stopAfter answer m s).2)
      oldKey newKey index := by
  rw [Program.stopAfter_pure]
  exact Or.inl hs

theorem rekeyWith_survives (hd : E.Durable answer holds loads)
    (hsyncs : syncs → E.SyncsWrites answer holds loads) {dataDir : String} (n : Nat)
    (hs : loads s oldKey = some index)
    (hsafe : SafeStop syncs index ((rekeyWith E dataDir oldKey newKey).stopAfter answer n s).1) :
    Survives (loads ((rekeyWith E dataDir oldKey newKey).stopAfter answer n s).2)
      oldKey newKey index := by
  refine survives_ask hs rfl rfl (fun n hsafe => ?_) hsafe
  cases hopen : (answer (.openEngine oldKey) s).1 with
  | error e => exact survives_pure (by rw [hd.openFailed _ _ _ hopen, hs])
  | ok loaded =>
    obtain ⟨hbefore, hsettled⟩ := hd.opened _ _ _ hopen
    obtain rfl : loaded = index := Option.some.inj (hbefore.symm.trans hs)
    simp only [hopen] at hsafe ⊢
    generalize (answer (.openEngine oldKey) s).2 = s₁ at hsettled hsafe ⊢
    refine survives_ask hsettled.2 rfl rfl (fun n hsafe => ?_) hsafe
    have hafter := hd.shutdown oldKey s₁ _ hsettled
    generalize (answer (.shutdownEngine oldKey) s₁).2 = s₂ at hafter hsafe ⊢
    cases hshut : (answer (.shutdownEngine oldKey) s₁).1 with
    | error e => exact survives_pure hafter
    | ok u =>
      simp only [hshut] at hsafe ⊢
      refine survives_ask hafter rfl rfl (fun n hsafe => ?_) hsafe
      cases hexists : (answer .dataDirExists s₂).1 with
      | false =>
        -- without a directory there was nothing to capture
        have hempty : loaded = E.empty :=
          Option.some.inj (hafter.symm.trans (hd.missing s₂ oldKey hexists))
        have hitems : rekeyItems E loaded = [] := by rw [rekeyItems, hempty, hd.captureEmpty]; rfl
        have hnew : loads (answer .dataDirExists s₂).2 newKey = some E.empty := by
          rw [hd.looked, hd.missing s₂ newKey hexists]
        simp only [Survives, hitems]
        exact Or.inr (stopAfter_importInto hd hsyncs [] n hnew (Or.inl rfl))
      | true =>
        simp only [hexists] at hsafe ⊢
        rw [← hd.looked s₂] at hafter
        exact stopAfter_wipe hd hsyncs hafter hsafe

/-- Wherever `run_rekey` is stopped, no data is lost as long as the stop is a safe one. -/
theorem rekey_survives (hd : E.Durable answer holds loads)
    {bind dataDir oldKeyHex newKeyHex : String}
    (hold : E.decodeHex oldKeyHex = .ok oldKey) (hnew : E.decodeHex newKeyHex = .ok newKey)
    (hs : loads s oldKey = some index) (n : Nat)
    (hsafe : SafeStop (E.SyncsWrites answer holds loads) index
      ((runRekey E bind dataDir oldKeyHex newKeyHex).stopAfter answer n s).1) :
    Survives (loads ((runRekey E bind dataDir oldKeyHex newKeyHex).stopAfter answer n s).2)
      oldKey newKey index := by
  refine survives_ask hs rfl rfl (fun n hsafe => ?_) hsafe
  rw [← hd.bindPort s] at hs
  generalize (answer .bindPort s).2 = s₁ at hs hsafe ⊢
  cases hport : (answer .bindPort s).1 with
  | false => exact survives_pure hs
  | true =>
    simp only [hport, hold, hnew] at hsafe ⊢
    by_cases hlen : oldKey.length ≠ 32
    · rw [if_pos hlen]
      exact survives_pure hs
    · rw [if_neg hlen] at hsafe ⊢
      by_cases hlen' : newKey.length ≠ 32
      · rw [if_pos hlen']
        exact survives_pure hs
      · rw [if_neg hlen'] at hsafe ⊢
        exact rekeyWith_survives hd id n hs hsafe

end

end

namespace Memory

/-- An index that lists its namespaces; a key's current version is the number of its versions. -/
abbrev Index := List (NamespaceSnapshot crates)

def addVersion (keys : List (Bytes × List (VersionRecord crates))) (key : Bytes)
    (record : VersionRecord crates) : List (Bytes × List (VersionRecord crates)) :=
  match keys with
  | [] => [(key, [record])]
  | (k, versions) :: rest =>
    if k = key then (k, versions ++ [record]) :: rest
    else (k, versions) :: addVersion rest key record

def addRecord (index : Index) (ns : String) (key : Bytes) (record : VersionRecord crates) : Index :=
  index.map fun n => if n.name = ns then { n with keys := addVersion n.keys key record } else n

abbrev storage : Storage crates where
  Index := Index
  empty := []
  capture index := index
  currentVersion index ns key := do
    let n ← index.find? (·.name == ns)
    let (_, versions) ← n.keys.find? (·.1 == key)
    return UInt64.ofNat versions.length
  apply index ns
    | .namespaceCreated name config createdAt => index ++ [⟨name, config, createdAt, []⟩]
    | .entryPut key value metadata _ actor =>
      addRecord index ns key ⟨.active, some value, metadata, 0, actor, none⟩
    | .entryDeleted key _ actor => addRecord index ns key ⟨.deleted, none, (), 0, actor, none⟩
  decodeHex := Handlers.decodeHex

section
variable (E : Storage crates)

/-- A data directory, once it exists: the master key it is encrypted with, the index on disk and
the one the open engine holds. Payloads are written with the next snapshot or shutdown. -/
abbrev EngineDir := Option (Bytes × E.Index × E.Index)

def EngineDir.loads (dir : EngineDir E) (key : Bytes) : Option E.Index :=
  match dir with
  | none => some E.empty
  | some (k, disk, _) => if k = key then some disk else none

def EngineDir.holds (dir : EngineDir E) (key : Bytes) : Option E.Index :=
  match dir with
  | none => none
  | some (k, _, held) => if k = key then some held else none

/-- A directory to which nothing is to be written. -/
def EngineDir.closed (key : Bytes) (index : E.Index) : EngineDir E := some (key, index, index)

/-- Everything the open engine holds is on disk. -/
def EngineDir.flushed (dir : EngineDir E) (key : Bytes) : EngineDir E :=
  dir.map fun (k, disk, held) => (k, if k = key then held else disk, held)

def answerEngine : (op : RekeyOp crates) → EngineDir E → op.Answer E × EngineDir E
  | .bindPort, dir => (true, dir)
  | .openEngine key, none => (.ok E.empty, some (key, E.empty, E.empty))
  | .openEngine key, some (k, disk, held) =>
    if k = key then (.ok disk, some (k, disk, disk))
    else (.error "decryption failed", some (k, disk, held))
  | .shutdownEngine key, dir => (.ok (), dir.flushed E key)
  | .dataDirExists, dir => (dir.isSome, dir)
  | .removeDirAll, _ => (.ok (), none)
  | .currentVersion engine ns key, dir =>
    ((dir.holds E engine).bind fun index => E.currentVersion index ns key, dir)
  | .applyPayload _ _ _, none => (.error "not open", none)
  | .applyPayload engine ns payload, some (k, disk, held) =>
    if k = engine then (.ok (), some (k, disk, E.apply held ns payload))
    else (.error "not open", some (k, disk, held))
  | .snapshotEngine key, dir => (.ok (), dir.flushed E key)

variable {E} in
theorem EngineDir.settled_flushed {dir : EngineDir E} {key : Bytes} {index : E.Index}
    (h : dir.holds E key = some index) :
    E.Settled (EngineDir.holds E) (EngineDir.loads E) (dir.flushed E key) key index := by
  cases dir with
  | none => cases h
  | some entry =>
    obtain ⟨k, disk, held⟩ := entry
    by_cases hk : k = key
    · subst hk
      rw [EngineDir.holds, if_pos rfl] at h
      cases h
      simp [Storage.Settled, EngineDir.flushed, EngineDir.holds, EngineDir.loads]
    · simp [EngineDir.holds, hk] at h

theorem engineDir_durable (hempty : E.capture E.empty = []) :
    E.Durable (answerEngine E) (EngineDir.holds E) (EngineDir.loads E) where
  captureEmpty := hempty
  bindPort _ := rfl
  opened key dir index h := by
    cases dir with
    | none =>
      cases h
      exact ⟨rfl, if_pos rfl, if_pos rfl⟩
    | some entry =>
      obtain ⟨k, disk, held⟩ := entry
      by_cases hk : k = key
      · subst hk
        simp only [answerEngine, if_true] at h ⊢
        cases h
        exact ⟨if_pos rfl, if_pos rfl, if_pos rfl⟩
      · simp [answerEngine, hk] at h
  openFailed key dir e h := by
    cases dir with
    | none => cases h
    | some entry =>
      obtain ⟨k, disk, held⟩ := entry
      by_cases hk : k = key
      · simp [answerEngine, hk] at h
      · simp [answerEngine, hk]
  shutdown key dir index h := (EngineDir.settled_flushed h.1).2
  looked _ := rfl
  missing dir key h := by
    cases dir with
    | none => rfl
    | some entry => cases h
  removed _ _ _ := rfl
  currentVersion engine ns key dir index h := by
    refine ⟨?_, h, rfl⟩
    change ((dir.holds E engine).bind fun index => E.currentVersion index ns key) = _
    rw [h]
    rfl
  applied engine ns payload dir index h hok := by
    cases dir with
    | none => cases hok
    | some entry =>
      obtain ⟨k, disk, held⟩ := entry
      by_cases hk : k = engine
      · subst hk
        rw [EngineDir.holds, if_pos rfl] at h
        cases h
        simp [answerEngine, EngineDir.holds]
      · simp [answerEngine, hk] at hok
  snapshot key dir index h _ := EngineDir.settled_flushed h

end

def oldKeyHex : String := "0000000000000000000000000000000000000000000000000000000000000000"

def newKeyHex : String := "1111111111111111111111111111111111111111111111111111111111111111"

def oldKey : Bytes := List.replicate 32 0

def newKey : Bytes := List.replicate 32 17

/-- One namespace with one key, whose value is resident or not. -/
def oneKey (value : Option Bytes) : Index :=
  [⟨"a", ⟨none, none, none⟩, 0, [([107], [⟨.active, value, (), 0, "memory", none⟩])]⟩]

/-- `run_rekey` on a directory with one key, stopped after `n` operations. -/
def rekeyStopped (value : Option Bytes) (n : Nat) :
    List ((op : RekeyOp crates) × op.Answer storage) × EngineDir storage :=
  (runRekey storage "127.0.0.1:6399" "data" oldKeyHex newKeyHex).stopAfter (answerEngine storage) n
    (.closed storage oldKey (oneKey value))

/-- A stop right after the final snapshot. -/
theorem rekey_stopped_after_snapshot :
    Survives (E := storage) ((rekeyStopped (some [118]) 10).2.loads storage) oldKey newKey
      (oneKey (some [118])) :=
  rekey_survives (engineDir_durable storage rfl) rfl rfl rfl 10
    (Or.inr ⟨by decide, Or.inl ⟨_, List.mem_of_getElem? (i := 9) rfl, rfl⟩⟩)

/-- A crash right after the wipe leaves nothing, and so does one in front of the final snapshot,
with every payload acknowledged. A value that is not resident is lost too, since the replay panics
on it. -/
theorem rekey_stopped_after_wipe :
    ¬ Survives (E := storage) ((rekeyStopped (some [118]) 5).2.loads storage) oldKey newKey
        (oneKey (some [118])) ∧
      acknowledged (rekeyStopped (some [118]) 9).1 =
        (rekeyItems storage (oneKey (some [118]))).length ∧
      ¬ Survives (E := storage) ((rekeyStopped (some [118]) 9).2.loads storage) oldKey newKey
        (oneKey (some [118])) ∧
      ((runRekey storage "127.0.0.1:6399" "data" oldKeyHex newKeyHex).run (answerEngine storage)
        (.closed storage oldKey (oneKey none))).1 =
          .panicked "value must be resident during import" ∧
      ¬ Survives (E := storage)
        (((runRekey storage "127.0.0.1:6399" "data" oldKeyHex newKeyHex).run (answerEngine storage)
          (.closed storage oldKey (oneKey none))).2.loads storage) oldKey newKey (oneKey none) := by
  refine ⟨?_, rfl, ?_, rfl, ?_⟩
  · rintro (hold | ⟨fresh, hfresh, hnew⟩)
    · have hindex : some [] = some (oneKey (some [118])) := hold
      cases hindex
    · have hindex : some [] = some fresh := hnew
      cases hindex
      cases hfresh
  · rintro (hold | ⟨fresh, hfresh, hnew⟩)
    · have hindex : none = some (oneKey (some [118])) := hold
      cases hindex
    · have hindex : some [] = some fresh := hnew
      cases hindex
      cases hfresh
  · rintro (hold | ⟨fresh, hfresh, hnew⟩)
    · have hindex : none = some (oneKey none) := hold
      cases hindex
    · cases hfresh

end Memory

end Shroudb
