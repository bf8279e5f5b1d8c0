import Shroudb.Server.BundleIntegrity
import Shroudb.Server.RekeyRuns
import Shroudb.Server.VersionHistory

/-! What a completed `run_rekey`, and a completed `run_import` of a bundle from `run_export`, have
replayed. -/
namespace Shroudb
open Wire Effect

section
variable {C : Crates} {E : Storage C} {P : BundleCodec C}

/-! ## Export and import -/

/-- An imported version as a record. The bundle has no expiry. -/
def restored (version : ExportVersion C) : VersionRecord C where
  state := if version.state = 0 then .active else .deleted
  value := some version.value
  metadata := version.metadata
  updatedAt := version.updatedAt
  actor := version.actor
  expiresAtMs := none

def VersionRecord.withoutExpiry (record : VersionRecord C) : VersionRecord C :=
  { record with expiresAtMs := none }

theorem exportVersion_eq_some {record : VersionRecord C} {version : ExportVersion C}
    (h : exportVersion record = some version) :
    restored version = record.withoutExpiry ∧ (version.state = 0 ∨ version.state = 1) := by
  obtain ⟨state, value, metadata, updatedAt, actor, expiresAtMs⟩ := record
  cases value with
  | none => cases h
  | some value =>
    cases h
    cases state with
    | active => exact ⟨rfl, Or.inl rfl⟩
    | deleted => exact ⟨rfl, Or.inr rfl⟩

theorem mapM_exportVersion {versions : List (VersionRecord C)} {exported : List (ExportVersion C)}
    (h : versions.mapM exportVersion = some exported) :
    exported.map restored = versions.map (·.withoutExpiry) ∧
      ∀ v ∈ exported, v.state = 0 ∨ v.state = 1 := by
  induction versions generalizing exported with
  | nil =>
    cases h
    exact ⟨rfl, by simp⟩
  | cons record versions ih =>
    rw [List.mapM_cons] at h
    obtain ⟨v, hv, h⟩ := Option.bind_eq_some_iff.mp h
    obtain ⟨rest, hrest, h⟩ := Option.bind_eq_some_iff.mp h
    cases h
    obtain ⟨hrecord, hstate⟩ := exportVersion_eq_some hv
    obtain ⟨hrecords, hstates⟩ := ih hrest
    exact ⟨by rw [List.map_cons, List.map_cons, hrecord, hrecords],
      List.forall_mem_cons.mpr ⟨hstate, hstates⟩⟩

/-- The entries of a bundle are the records of the namespace, but for their expiry. -/
theorem exportEntries_eq_some {keys : List (Bytes × List (VersionRecord C))}
    {entries : List (ExportEntry C)} (h : exportEntries keys = some entries) :
    (versionsOf entries).map (fun v => (v.1, restored v.2)) =
        keyedRecords (keys.map fun k => (k.1, k.2.map (·.withoutExpiry))) ∧
      ∀ v ∈ versionsOf entries, v.2.state = 0 ∨ v.2.state = 1 := by
  induction keys generalizing entries with
  | nil =>
    cases h
    exact ⟨rfl, by simp [versionsOf]⟩
  | cons k keys ih =>
    obtain ⟨key, versions⟩ := k
    rw [exportEntries, List.mapM_cons] at h
    obtain ⟨entry, hentry, h⟩ := Option.bind_eq_some_iff.mp h
    obtain ⟨rest, hrest, h⟩ := Option.bind_eq_some_iff.mp h
    obtain ⟨exported, hexported, rfl⟩ := Option.map_eq_some_iff.mp hentry
    cases h
    obtain ⟨hrecords, hstates⟩ := mapM_exportVersion hexported
    obtain ⟨hrest, hrestStates⟩ := ih hrest
    constructor
    · simp only [versionsOf, keyedRecords, List.flatMap_cons, List.map_append,
        List.map_cons] at hrest ⊢
      rw [hrest, ← hrecords]
      simp only [List.map_map]
      rfl
    · intro v hv
      rw [versionsOf, List.flatMap_cons, List.mem_append] at hv
      rcases hv with hv | hv
      · obtain ⟨version, hversion, rfl⟩ := List.mem_map.mp hv
        exact hstates version hversion
      · exact hrestStates v hv

section
variable {σ : Type} {answer : (op : BundleOp C) → σ → op.Answer E × σ}
  {holds loads : σ → Bytes → Option E.Index} {s : σ} {engine masterKey key bundle : Bytes}
  {index : E.Index}

/-- The engine's documented behaviour, and that only the engine touches its data. -/
structure BundleDurable (answer : (op : BundleOp C) → σ → op.Answer E × σ)
    (holds loads : σ → Bytes → Option E.Index) : Prop where
  engine : E.Durable (fun op => answer (.engine op)) holds loads
  exportKey : ∀ s, holds (answer .exportKey s).2 = holds s ∧ loads (answer .exportKey s).2 = loads s
  readFile : ∀ s, holds (answer .readFile s).2 = holds s ∧ loads (answer .readFile s).2 = loads s

theorem run_applyImported {ns : String} {payload : WalPayload C} {failure : String}
    {next : BundlePlan E}
    (h : ((applyImported E engine ns payload failure next).run answer s).1 = .complete) :
    (answer (.engine (.applyPayload engine ns payload)) s).1 = Except.ok () ∧
      (applyImported E engine ns payload failure next).run answer s =
        next.run answer (answer (.engine (.applyPayload engine ns payload)) s).2 := by
  simp only [applyImported, Program.run] at h ⊢
  cases ha : (answer (.engine (.applyPayload engine ns payload)) s).1 with
  | error e =>
    rw [ha] at h
    cases h
  | ok u => exact ⟨rfl, rfl⟩

theorem loads_finishImport (hd : BundleDurable answer holds loads)
    (hs : holds s engine = some index)
    (hrun : ((finishImport E engine).run answer s).1 = .complete) :
    loads ((finishImport E engine).run answer s).2 engine = some index := by
  simp only [finishImport, Program.run] at hrun ⊢
  cases hsnap : (answer (.engine (.snapshotEngine engine)) s).1 with
  | error e =>
    rw [hsnap] at hrun
    cases hrun
  | ok u =>
    have hsettled := hd.engine.snapshot _ _ _ hs (Or.inl hsnap)
    simp only [Program.run]
    cases (answer (.engine (.shutdownEngine engine))
      (answer (.engine (.snapshotEngine engine)) s).2).1 <;>
      exact hd.engine.shutdown _ _ _ hsettled

/-- An import replays the versions of the bundle as a rekey replays its records. -/
theorem loads_importVersions (hd : BundleDurable answer holds loads) {ns : String}
    (versions : List (Bytes × ExportVersion C)) (hs : holds s engine = some index)
    (hstates : ∀ v ∈ versions, v.2.state = 0 ∨ v.2.state = 1)
    (hrun : ((importVersions E engine ns versions).run answer s).1 = .complete) :
    ∃ fresh, (versions.map fun v => ReplayItem.writeVersion ns v.1 (restored v.2)).foldlM
        (replayItem E) index = some fresh ∧
      loads ((importVersions E engine ns versions).run answer s).2 engine = some fresh := by
  induction versions generalizing s index with
  | nil => exact ⟨index, rfl, loads_finishImport hd hs hrun⟩
  | cons version rest ih =>
    obtain ⟨key, state, value, metadata, updatedAt, actor⟩ := version
    obtain ⟨hstate, hrest⟩ := List.forall_mem_cons.mp hstates
    have hpayload : ∀ {payload failure s index}, holds s engine = some index →
        ((applyImported E engine ns payload failure (importVersions E engine ns rest)).run
          answer s).1 = .complete →
        ∃ fresh, (rest.map fun v => ReplayItem.writeVersion ns v.1 (restored v.2)).foldlM
            (replayItem E) (E.apply index ns payload) = some fresh ∧
          loads ((applyImported E engine ns payload failure (importVersions E engine ns rest)).run
            answer s).2 engine = some fresh := by
      intro payload failure s index hs hrun
      obtain ⟨hok, heq⟩ := run_applyImported hrun
      rw [heq] at hrun ⊢
      exact ih (hd.engine.applied _ _ _ _ _ hs hok) hrest hrun
    obtain ⟨hversion, hs', -⟩ := hd.engine.currentVersion engine ns key s index hs
    rw [importVersions, Program.run, hversion] at hrun ⊢
    rcases hstate with hstate | hstate
    · cases hstate
      exact hpayload hs' hrun
    · cases hstate
      exact hpayload hs' hrun

/-- An import that completes has replayed its bundle into a namespace that did not exist. -/
theorem loads_importBundle (hd : BundleDurable answer holds loads) {rename : Option String}
    (hkey : ∀ s k, (answer .exportKey s).1 = Except.ok k → k = key)
    (hrun : ((importBundle E P masterKey rename bundle).run answer s).1 = .complete) :
    ∃ header config entries index, Opens P key bundle header config entries ∧
      loads s masterKey = some index ∧
      (∀ ns ∈ E.capture index, ns.name ≠ rename.getD header.ns) ∧
      ((∀ v ∈ versionsOf entries, v.2.state = 0 ∨ v.2.state = 1) →
        ∃ fresh, (ReplayItem.createNamespace (rename.getD header.ns) config header.createdAt ::
            (versionsOf entries).map fun v =>
              ReplayItem.writeVersion (rename.getD header.ns) v.1 (restored v.2)).foldlM
            (replayItem E) index = some fresh ∧
          loads ((importBundle E P masterKey rename bundle).run answer s).2 masterKey =
            some fresh) := by
  obtain ⟨header, config, entries, index, hopens, hindex, hnames, heq⟩ :=
    run_importBundle hkey hrun
  obtain ⟨hbefore, hheld, -⟩ := hd.engine.opened _ _ _ hindex
  refine ⟨header, config, entries, index, hopens, hbefore, hnames, fun hstates => ?_⟩
  rw [heq, importNamespace] at hrun ⊢
  obtain ⟨hok, heq⟩ := run_applyImported hrun
  rw [heq] at hrun ⊢
  rw [← (hd.exportKey _).1] at hheld
  exact loads_importVersions hd _ (hd.engine.applied _ _ _ _ _ hheld hok) hstates hrun

end

/-! ## Migrations -/

/-- A completed `run_rekey` of a data directory that holds `index`. -/
structure RekeyRun (E : Storage C) (index : E.Index) where
  {σ : Type}
  answer : (op : RekeyOp C) → σ → op.Answer E × σ
  holds : σ → Bytes → Option E.Index
  loads : σ → Bytes → Option E.Index
  durable : E.Durable answer holds loads
  start : σ
  bind : String
  dataDir : String
  oldKeyHex : String
  newKeyHex : String
  oldKey : Bytes
  newKey : Bytes
  oldDecodes : E.decodeHex oldKeyHex = .ok oldKey
  newDecodes : E.decodeHex newKeyHex = .ok newKey
  loaded : loads start oldKey = some index
  completes : ((runRekey E bind dataDir oldKeyHex newKeyHex).run answer start).1 = .complete

/-- What the directory holds under the new key after the rekey. -/
def RekeyRun.result {index : E.Index} (r : RekeyRun E index) : Option E.Index :=
  r.loads ((runRekey E r.bind r.dataDir r.oldKeyHex r.newKeyHex).run r.answer r.start).2 r.newKey

/-- A `run_export` of a namespace of `index`, and a completed `run_import` of the file it wrote,
under the same export key. The cipher decrypts what the export has sealed. -/
structure ExportImport (E : Storage C) (P : BundleCodec C) (index : E.Index) (ns : String) where
  {σ : Type}
  {τ : Type}
  exporter : (op : BundleOp C) → σ → op.Answer E × σ
  importer : (op : BundleOp C) → τ → op.Answer E × τ
  holds : τ → Bytes → Option E.Index
  loads : τ → Bytes → Option E.Index
  durable : BundleDurable importer holds loads
  start : σ
  target : τ
  output : String
  input : String
  rename : Option String
  exportMaster : Bytes
  importMaster : Bytes
  key : Bytes
  bundle : Bytes
  opened : (exporter (.engine (.openEngine exportMaster)) start).1 = .ok index
  derived : ⟨.exportKey, .ok key⟩ ∈ (runExport E P exportMaster ns output).trace exporter start
  decrypts : ∀ ciphertext aad payload, P.aesGcmDecrypt key ciphertext aad = .ok payload ↔
    ⟨.aesGcmEncrypt key payload aad, .ok ciphertext⟩ ∈
      (runExport E P exportMaster ns output).trace exporter start
  written : ⟨.writeFile bundle, .ok ()⟩ ∈
    (runExport E P exportMaster ns output).trace exporter start
  read : (importer .readFile target).1 = .ok bundle
  sameKey : ∀ s k, (importer .exportKey s).1 = .ok k → k = key
  completes : ((runImport E P importMaster input rename).run importer target).1 = .complete

namespace ExportImport
variable {index : E.Index} {ns : String} (r : ExportImport E P index ns)

/-- The namespace that was imported. -/
def name : String := r.rename.getD ns

/-- What the target directory holds after the import. -/
def result : Option E.Index :=
  r.loads ((runImport E P r.importMaster r.input r.rename).run r.importer r.target).2 r.importMaster

end ExportImport

end

end Shroudb
