import Shroudb.Server.Bundle

/-! `run_export` and `run_import`: moving one namespace through a bundle. -/
namespace Shroudb
open Wire Effect

/-- The operations on an engine are those of the rekey. -/
inductive BundleOp (C : Crates) where
  | engine (op : RekeyOp C)
  | exportKey
  | aesGcmEncrypt (key payload aad : Bytes)
  | readFile
  | writeFile (bundle : Bytes)

def BundleOp.Answer {C : Crates} (E : Storage C) : BundleOp C → Type
  | .engine op => op.Answer E
  | .exportKey => Except String Bytes
  | .aesGcmEncrypt .. => Except String Bytes
  | .readFile => Except String Bytes
  | .writeFile _ => Except String Unit

section
variable {C : Crates}

/-- The value has to be resident, also that of a tombstone. -/
def exportVersion (record : VersionRecord C) : Option (ExportVersion C) :=
  record.value.map fun value =>
    { state := match record.state with
        | .active => 0
        | .deleted => 1
      value, metadata := record.metadata, updatedAt := record.updatedAt, actor := record.actor }

def exportEntries (keys : List (Bytes × List (VersionRecord C))) : Option (List (ExportEntry C)) :=
  keys.mapM fun (key, versions) => (versions.mapM exportVersion).map fun versions => ⟨key, versions⟩

variable (E : Storage C) (P : BundleCodec C)

abbrev BundlePlan := Program (BundleOp.Answer E) RekeyExit

/-- The namespace, its entries and their serialization. -/
def collectExport (index : E.Index) (ns : String) :
    Except RekeyExit (NamespaceSnapshot C × List (ExportEntry C) × Bytes) :=
  match (E.capture index).find? (·.name == ns) with
  | none => .error (.failed ("namespace not found: " ++ ns))
  | some nsRef =>
    match exportEntries nsRef.keys with
    | none => .error (.panicked "value must be resident during export")
    | some entries =>
      match P.entriesToBytes entries with
      | .error _ => .error (.failed "failed to serialize export payload")
      | .ok payload => .ok (nsRef, entries, payload)

def finishExport (masterKey : Bytes) (output : String) (config : NamespaceConfig C)
    (headerJson encrypted : Bytes) : BundlePlan E :=
  match P.configToJson config with
  | .error e => .pure (.failed e)
  | .ok configJson =>
    .ask (.writeFile (writeBundle headerJson encrypted configJson)) fun
      | .error _ => .pure (.failed ("failed to write export file: " ++ output))
      | .ok _ => .ask (.engine (.shutdownEngine masterKey)) fun
        | .error e => .pure (.failed e)
        | .ok _ => .pure .complete

def sealExport (masterKey : Bytes) (output : String) (config : NamespaceConfig C)
    (header : ExportHeader) (key payload : Bytes) : BundlePlan E :=
  match P.headerToJson header with
  | .error e => .pure (.failed e)
  | .ok headerJson => .ask (.aesGcmEncrypt key payload headerJson) fun
    | .error _ => .pure (.failed "failed to encrypt export payload")
    | .ok encrypted => finishExport E P masterKey output config headerJson encrypted

def runExport (masterKey : Bytes) (ns output : String) : BundlePlan E :=
  .ask (.engine (.openEngine masterKey)) fun
    | .error _ => .pure (.failed "failed to open storage engine")
    | .ok index =>
      match collectExport E P index ns with
      | .error exit => .pure exit
      | .ok (nsRef, entries, payload) => .ask .exportKey fun
        | .error e => .pure (.failed ("failed to derive export key: " ++ e))
        | .ok key =>
          sealExport E P masterKey output nsRef.config
            ⟨ns, 1, nsRef.createdAt, UInt64.ofNat entries.length⟩ key payload

def applyImported (engine : Bytes) (ns : String) (payload : WalPayload C) (failure : String)
    (next : BundlePlan E) : BundlePlan E :=
  .ask (.engine (.applyPayload engine ns payload)) fun
    | .error e => .pure (.failed (failure ++ ": " ++ e))
    | .ok _ => next

def finishImport (engine : Bytes) : BundlePlan E :=
  .ask (.engine (.snapshotEngine engine)) fun
    | .error e => .pure (.failed e)
    | .ok _ => .ask (.engine (.shutdownEngine engine)) fun
      | .error e => .pure (.failed e)
      | .ok _ => .pure .complete

/-- The replay of the imported versions, each with its key. -/
def importVersions (engine : Bytes) (ns : String) : List (Bytes × ExportVersion C) → BundlePlan E
  | [] => finishImport E engine
  | (key, version) :: rest =>
    .ask (.engine (.currentVersion engine ns key)) fun current =>
      if version.state = 0 then
        applyImported E engine ns
          (.entryPut key version.value version.metadata (nextVersion current) version.actor)
          "failed to write key" (importVersions engine ns rest)
      else if version.state = 1 then
        applyImported E engine ns (.entryDeleted key (nextVersion current) version.actor)
          "failed to write tombstone" (importVersions engine ns rest)
      else importVersions engine ns rest

def versionsOf (entries : List (ExportEntry C)) : List (Bytes × ExportVersion C) :=
  entries.flatMap fun entry => entry.versions.map fun version => (entry.key, version)

def importNamespace (engine : Bytes) (ns : String) (config : NamespaceConfig C)
    (createdAt : UInt64) (entries : List (ExportEntry C)) : BundlePlan E :=
  applyImported E engine "__system__" (.namespaceCreated ns config createdAt)
    "failed to create namespace" (importVersions E engine ns (versionsOf entries))

/-- The configuration and the entries behind the header. -/
def openBundle (key bundle headerJson : Bytes) :
    Except RekeyExit (NamespaceConfig C × List (ExportEntry C)) :=
  match parseSections P bundle (8 + headerJson.length) with
  | .error exit => .error exit
  | .ok (config, encrypted) =>
    match P.aesGcmDecrypt key encrypted headerJson with
    | .error _ =>
      .error (.failed "failed to decrypt export — wrong master key or corrupted file")
    | .ok payload =>
      match P.entriesFromBytes payload with
      | .error _ => .error (.failed "failed to deserialize export payload")
      | .ok entries => .ok (config, entries)

def importBundle (masterKey : Bytes) (renameNamespace : Option String) (bundle : Bytes) :
    BundlePlan E :=
  match parseHeader P bundle with
  | .error exit => .pure exit
  | .ok (header, headerJson) =>
    .ask (.engine (.openEngine masterKey)) fun
      | .error _ => .pure (.failed "failed to open storage engine")
      | .ok index =>
        if (E.capture index).any (·.name == renameNamespace.getD header.ns) then
          .ask (.engine (.shutdownEngine masterKey)) fun
            | .error e => .pure (.failed e)
            | .ok _ =>
              .pure (.failed ("namespace already exists: " ++ renameNamespace.getD header.ns))
        else .ask .exportKey fun
          | .error e => .pure (.failed ("failed to derive export key: " ++ e))
          | .ok key =>
            match openBundle P key bundle headerJson with
            | .error exit => .pure exit
            | .ok (config, entries) =>
              importNamespace E masterKey (renameNamespace.getD header.ns) config header.createdAt
                entries

def runImport (masterKey : Bytes) (input : String) (renameNamespace : Option String) :
    BundlePlan E :=
  .ask .readFile fun
    | .error _ => .pure (.failed ("failed to read import file: " ++ input))
    | .ok bundle => importBundle E P masterKey renameNamespace bundle

variable {E P}

/-! ## What an export writes -/

section
variable {σ : Type} {answer : (op : BundleOp C) → σ → op.Answer E × σ} {s : σ}
  {masterKey : Bytes} {ns output : String}

theorem collectExport_eq_ok {index : E.Index} {nsRef : NamespaceSnapshot C}
    {entries : List (ExportEntry C)} {payload : Bytes}
    (h : collectExport E P index ns = .ok (nsRef, entries, payload)) :
    (E.capture index).find? (·.name == ns) = some nsRef ∧
      exportEntries nsRef.keys = some entries ∧ P.entriesToBytes entries = .ok payload := by
  rw [collectExport] at h
  split at h
  · cases h
  · rename_i nsRef' hns
    split at h
    · cases h
    · rename_i entries' hentries
      split at h
      · cases h
      · rename_i payload' hpayload
        cases h
        exact ⟨hns, hentries, hpayload⟩

/-- One file at most is written, and nothing is sealed any more. -/
theorem trace_finishExport {config : NamespaceConfig C} {headerJson encrypted : Bytes}
    {e : (op : BundleOp C) × op.Answer E}
    (h : e ∈ (finishExport E P masterKey output config headerJson encrypted).trace answer s) :
    (∃ configJson a, P.configToJson config = .ok configJson ∧
      e = ⟨.writeFile (writeBundle headerJson encrypted configJson), a⟩) ∨
    ∃ op a, e = ⟨.engine op, a⟩ := by
  rw [finishExport] at h
  cases hconfig : P.configToJson config with
  | error e =>
    rw [hconfig] at h
    cases h
  | ok configJson =>
    simp only [hconfig, Program.trace] at h
    rcases List.mem_cons.mp h with rfl | h
    · exact Or.inl ⟨configJson, _, rfl, rfl⟩
    · split at h
      · cases h
      · right
        rcases List.mem_cons.mp h with rfl | h
        · exact ⟨_, _, rfl⟩
        · simp only at h
          split at h <;> cases h

/-- A file that is written after the key is derived holds what was sealed first of all, and nothing
is derived or sealed after that. -/
theorem trace_sealExport {config : NamespaceConfig C} {header : ExportHeader}
    {key payload bundle : Bytes} {a : Except String Unit}
    (h : ⟨.writeFile bundle, a⟩ ∈
      (sealExport E P masterKey output config header key payload).trace answer s) :
    ∃ headerJson encrypted configJson later,
      P.headerToJson header = .ok headerJson ∧ P.configToJson config = .ok configJson ∧
      bundle = writeBundle headerJson encrypted configJson ∧
      (sealExport E P masterKey output config header key payload).trace answer s =
        ⟨.aesGcmEncrypt key payload headerJson, .ok encrypted⟩ :: later ∧
      ∀ e ∈ later, (∃ contents a, e = ⟨.writeFile contents, a⟩) ∨ ∃ op a, e = ⟨.engine op, a⟩ := by
  rw [sealExport] at h ⊢
  cases hheader : P.headerToJson header with
  | error e =>
    rw [hheader] at h
    cases h
  | ok headerJson =>
    simp only [hheader, Program.trace] at h ⊢
    rcases List.mem_cons.mp h with h | h
    · cases h
    cases hseal : (answer (.aesGcmEncrypt key payload headerJson) s).1 with
    | error e =>
      rw [hseal] at h
      cases h
    | ok encrypted =>
      rw [hseal] at h
      simp only at h ⊢
      rcases trace_finishExport h with ⟨configJson, a', hconfig, he⟩ | ⟨op, a', he⟩
      · cases he
        refine ⟨headerJson, encrypted, configJson, _, rfl, hconfig, rfl, rfl, fun e he => ?_⟩
        rcases trace_finishExport he with ⟨_, a', -, rfl⟩ | ⟨op, a', rfl⟩
        · exact Or.inl ⟨_, a', rfl⟩
        · exact Or.inr ⟨op, a', rfl⟩
      · cases he

/-- What a bundle was written from, and that nothing else was sealed on the way. -/
structure Exported (P : BundleCodec C) (nsRef : NamespaceSnapshot C) (ns : String)
    (trace : List ((op : BundleOp C) × op.Answer E)) (entries : List (ExportEntry C))
    (payload key headerJson encrypted configJson : Bytes) : Prop where
  collected : exportEntries nsRef.keys = some entries
  serialized : P.entriesToBytes entries = .ok payload
  headerPrinted : P.headerToJson ⟨ns, 1, nsRef.createdAt, UInt64.ofNat entries.length⟩ =
    .ok headerJson
  configPrinted : P.configToJson nsRef.config = .ok configJson
  derived : ∀ key', ⟨.exportKey, .ok key'⟩ ∈ trace ↔ key' = key
  sealed : ∀ key' payload' aad ciphertext,
    ⟨.aesGcmEncrypt key' payload' aad, .ok ciphertext⟩ ∈ trace ↔
      key' = key ∧ payload' = payload ∧ aad = headerJson ∧ ciphertext = encrypted

/-- Every file an export writes is the bundle of the namespace it was asked for. -/
theorem exported_of_trace {bundle : Bytes} {a : Except String Unit}
    (h : ⟨.writeFile bundle, a⟩ ∈ (runExport E P masterKey ns output).trace answer s) :
    ∃ index nsRef entries payload key headerJson encrypted configJson,
      (answer (.engine (.openEngine masterKey)) s).1 = .ok index ∧
      (E.capture index).find? (·.name == ns) = some nsRef ∧
      bundle = writeBundle headerJson encrypted configJson ∧
      Exported P nsRef ns ((runExport E P masterKey ns output).trace answer s) entries payload key
        headerJson encrypted configJson := by
  rw [runExport, Program.trace] at h ⊢
  rcases List.mem_cons.mp h with h | h
  · cases h
  cases hopen : (answer (.engine (.openEngine masterKey)) s).1 with
  | error e =>
    rw [hopen] at h
    cases h
  | ok index =>
    rw [hopen] at h
    simp only at h ⊢
    cases hcollect : collectExport E P index ns with
    | error exit =>
      rw [hcollect] at h
      cases h
    | ok collected =>
      obtain ⟨nsRef, entries, payload⟩ := collected
      obtain ⟨hns, hentries, hpayload⟩ := collectExport_eq_ok hcollect
      generalize (answer (.engine (.openEngine masterKey)) s).2 = s₁ at h ⊢
      simp only [hcollect, Program.trace] at h ⊢
      rcases List.mem_cons.mp h with h | h
      · cases h
      cases hkey : (answer .exportKey s₁).1 with
      | error e =>
        rw [hkey] at h
        cases h
      | ok key =>
        rw [hkey] at h
        obtain ⟨headerJson, encrypted, configJson, later, hheader, hconfig, hbundle, htrace,
          hlater⟩ := trace_sealExport h
        simp only [htrace]
        refine ⟨index, nsRef, entries, payload, key, headerJson, encrypted, configJson, rfl, hns,
          hbundle, hentries, hpayload, hheader, hconfig, ?_, ?_⟩
        · intro key'
          have hnot : ⟨.exportKey, .ok key'⟩ ∉ later := by
            intro hmem
            rcases hlater _ hmem with ⟨_, _, he⟩ | ⟨_, _, he⟩ <;> cases he
          simp only [List.mem_cons, hnot, or_false]
          constructor
          · rintro (he | he | he)
            · cases he
            · cases he
              rfl
            · cases he
          · rintro rfl
            exact Or.inr (Or.inl rfl)
        · intro key' payload' aad ciphertext
          have hnot : ⟨.aesGcmEncrypt key' payload' aad, .ok ciphertext⟩ ∉ later := by
            intro hmem
            rcases hlater _ hmem with ⟨_, _, he⟩ | ⟨_, _, he⟩ <;> cases he
          simp only [List.mem_cons, hnot, or_false]
          constructor
          · rintro (he | he | he)
            · cases he
            · cases he
            · cases he
              exact ⟨rfl, rfl, rfl, rfl⟩
          · rintro ⟨rfl, rfl, rfl, rfl⟩
            exact Or.inr (Or.inr rfl)

end

end

end Shroudb
