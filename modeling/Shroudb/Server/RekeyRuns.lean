import Shroudb.Server.Rekey

/-! What a completed `run_rekey` has done. -/
namespace Shroudb
open Wire Effect

section
variable {C : Crates} {E : Storage C} {σ : Type} {answer : (op : RekeyOp C) → σ → op.Answer E × σ}
  {s : σ} {engine oldKey newKey : Bytes}

/-! ## The operations of a run -/

theorem run_applyOr {ns : String} {payload : WalPayload C} {failure : String} {next : RekeyPlan E}
    (h : ((applyOr E engine ns payload failure next).run answer s).1 = .complete) :
    (answer (.applyPayload engine ns payload) s).1 = Except.ok () ∧
      (applyOr E engine ns payload failure next).run answer s =
        next.run answer (answer (.applyPayload engine ns payload) s).2 := by
  simp only [applyOr, Program.run] at h ⊢
  cases ha : (answer (.applyPayload engine ns payload) s).1 with
  | error e =>
    rw [ha] at h
    cases h
  | ok u => exact ⟨rfl, rfl⟩

theorem run_importInto {items : List (ReplayItem C)}
    (h : ((importInto E newKey items).run answer s).1 = .complete) :
    ∃ index, (answer (.openEngine newKey) s).1 = Except.ok index ∧
      (importInto E newKey items).run answer s =
        (replay E newKey items).run answer (answer (.openEngine newKey) s).2 := by
  simp only [importInto, Program.run] at h ⊢
  cases hopen : (answer (.openEngine newKey) s).1 with
  | error e =>
    rw [hopen] at h
    cases h
  | ok index => exact ⟨index, rfl, rfl⟩

/-- The data directory was found missing, or it was removed. -/
def Cleared (answer : (op : RekeyOp C) → σ → op.Answer E × σ) (s t : σ) : Prop :=
  (answer .dataDirExists s).1 = false ∧ t = (answer .dataDirExists s).2 ∨
    ∃ s', (answer .removeDirAll s').1 = Except.ok () ∧ t = (answer .removeDirAll s').2

theorem run_rekeyWith {dataDir : String}
    (h : ((rekeyWith E dataDir oldKey newKey).run answer s).1 = .complete) :
    ∃ index t, (answer (.openEngine oldKey) s).1 = Except.ok index ∧
      Cleared answer (answer (.shutdownEngine oldKey) (answer (.openEngine oldKey) s).2).2 t ∧
      (rekeyWith E dataDir oldKey newKey).run answer s =
        (importInto E newKey (rekeyItems E index)).run answer t := by
  simp only [rekeyWith, Program.run] at h ⊢
  cases hopen : (answer (.openEngine oldKey) s).1 with
  | error e =>
    rw [hopen] at h
    cases h
  | ok index =>
    simp only [hopen, Program.run] at h ⊢
    generalize (answer (.openEngine oldKey) s).2 = s₁ at h ⊢
    cases hshut : (answer (.shutdownEngine oldKey) s₁).1 with
    | error e =>
      rw [hshut] at h
      cases h
    | ok u =>
      simp only [hshut, Program.run] at h ⊢
      generalize (answer (.shutdownEngine oldKey) s₁).2 = s₂ at h ⊢
      cases hexists : (answer .dataDirExists s₂).1 with
      | false => exact ⟨index, _, rfl, Or.inl ⟨hexists, rfl⟩, rfl⟩
      | true =>
        simp only [hexists, Program.run] at h ⊢
        cases hrem : (answer .removeDirAll (answer .dataDirExists s₂).2).1 with
        | error e =>
          rw [hrem] at h
          cases h
        | ok u => exact ⟨index, _, rfl, Or.inr ⟨_, hrem, rfl⟩, rfl⟩

theorem run_runRekey {bind dataDir oldKeyHex newKeyHex : String}
    (h : ((runRekey E bind dataDir oldKeyHex newKeyHex).run answer s).1 = .complete) :
    ∃ oldKey newKey, E.decodeHex oldKeyHex = .ok oldKey ∧ E.decodeHex newKeyHex = .ok newKey ∧
      (runRekey E bind dataDir oldKeyHex newKeyHex).run answer s =
        (rekeyWith E dataDir oldKey newKey).run answer (answer .bindPort s).2 := by
  simp only [runRekey, Program.run] at h ⊢
  cases hport : (answer .bindPort s).1 with
  | false =>
    rw [hport] at h
    cases h
  | true =>
    simp only [hport] at h ⊢
    cases hold : E.decodeHex oldKeyHex with
    | error e =>
      rw [hold] at h
      cases h
    | ok oldKey =>
      cases hnew : E.decodeHex newKeyHex with
      | error e =>
        rw [hold, hnew] at h
        cases h
      | ok newKey =>
        refine ⟨oldKey, newKey, rfl, rfl, ?_⟩
        simp only [hold, hnew] at h ⊢
        split_ifs at h ⊢
        · cases h
        · cases h
        · rfl

/-! ## What the directory holds -/

section
variable {holds loads : σ → Bytes → Option E.Index} {index : E.Index}

theorem Storage.Durable.cleared {t : σ} (hd : E.Durable answer holds loads) (h : Cleared answer s t)
    (key : Bytes) : loads t key = some E.empty := by
  rcases h with ⟨hmissing, rfl⟩ | ⟨s', hremoved, rfl⟩
  · rw [hd.looked, hd.missing s key hmissing]
  · exact hd.removed s' key hremoved

/-- The end of a run that completes puts what the engine holds on disk. -/
theorem loads_finishRekey (hd : E.Durable answer holds loads) (hs : holds s engine = some index)
    (hrun : ((finishRekey E engine).run answer s).1 = .complete) :
    loads ((finishRekey E engine).run answer s).2 engine = some index := by
  simp only [finishRekey, Program.run] at hrun ⊢
  cases hsnap : (answer (.snapshotEngine engine) s).1 with
  | error e =>
    rw [hsnap] at hrun
    cases hrun
  | ok u =>
    have hsettled := hd.snapshot _ _ _ hs (Or.inl hsnap)
    simp only [Program.run]
    cases (answer (.shutdownEngine engine) (answer (.snapshotEngine engine) s).2).1 <;>
      exact hd.shutdown _ _ _ hsettled

/-- A replay that completes has done every round. -/
theorem loads_replay (hd : E.Durable answer holds loads) (items : List (ReplayItem C))
    (hs : holds s engine = some index)
    (hrun : ((replay E engine items).run answer s).1 = .complete) :
    ∃ fresh, items.foldlM (replayItem E) index = some fresh ∧
      loads ((replay E engine items).run answer s).2 engine = some fresh := by
  induction items generalizing s index with
  | nil => exact ⟨index, rfl, loads_finishRekey hd hs hrun⟩
  | cons item rest ih =>
    have hpayload : ∀ {ns payload failure s index}, holds s engine = some index →
        ((applyOr E engine ns payload failure (replay E engine rest)).run answer s).1 = .complete →
        ∃ fresh, rest.foldlM (replayItem E) (E.apply index ns payload) = some fresh ∧
          loads ((applyOr E engine ns payload failure (replay E engine rest)).run answer s).2
            engine = some fresh := by
      intro ns payload failure s index hs hrun
      obtain ⟨hok, heq⟩ := run_applyOr hrun
      rw [heq] at hrun ⊢
      exact ih (hd.applied _ _ _ _ _ hs hok) hrun
    cases item with
    | createNamespace name config createdAt => exact hpayload hs hrun
    | writeVersion ns key record =>
      obtain ⟨state, value, metadata, updatedAt, actor, expiresAtMs⟩ := record
      obtain ⟨hversion, hs', -⟩ := hd.currentVersion engine ns key s index hs
      rw [replay, Program.run, hversion] at hrun ⊢
      cases state with
      | deleted => exact hpayload hs' hrun
      | active =>
        cases value with
        | none => cases hrun
        | some value => exact hpayload hs' hrun

/-- A rekey that completes leaves the replay of what it captured. -/
theorem loads_runRekey (hd : E.Durable answer holds loads)
    {bind dataDir oldKeyHex newKeyHex : String}
    (hold : E.decodeHex oldKeyHex = .ok oldKey) (hnew : E.decodeHex newKeyHex = .ok newKey)
    (hs : loads s oldKey = some index)
    (hrun : ((runRekey E bind dataDir oldKeyHex newKeyHex).run answer s).1 = .complete) :
    ∃ fresh, replayed E (rekeyItems E index) = some fresh ∧
      loads ((runRekey E bind dataDir oldKeyHex newKeyHex).run answer s).2 newKey =
        some fresh := by
  obtain ⟨oldKey', newKey', hold', hnew', heq⟩ := run_runRekey hrun
  obtain rfl : oldKey' = oldKey := Except.ok.inj (hold'.symm.trans hold)
  obtain rfl : newKey' = newKey := Except.ok.inj (hnew'.symm.trans hnew)
  rw [heq] at hrun ⊢
  obtain ⟨captured, t, hopened, hcleared, heq⟩ := run_rekeyWith hrun
  rw [← hd.bindPort s] at hs
  obtain rfl : captured = index :=
    Option.some.inj ((hd.opened _ _ _ hopened).1.symm.trans hs)
  rw [heq] at hrun ⊢
  obtain ⟨blank, hopen, heq⟩ := run_importInto hrun
  obtain ⟨hbefore, hheld, -⟩ := hd.opened _ _ _ hopen
  obtain rfl : blank = E.empty := Option.some.inj (hbefore.symm.trans (hd.cleared hcleared newKey'))
  rw [heq] at hrun ⊢
  exact loads_replay hd _ hheld hrun

end

end

end Shroudb
