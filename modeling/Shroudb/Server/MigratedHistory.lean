import Shroudb.Server.MigrationRuns

/-! Version numbers and expiry across `run_rekey`, and across `run_export` and `run_import`. -/
namespace Shroudb
open Wire Effect

section
variable {C : Crates} {E : Storage C} {P : BundleCodec C}

theorem Renumbered.of_withoutExpiry {blank : Option Bytes × C.Metadata}
    {rs : List (VersionRecord C)} {h : Versions C}
    (hr : Renumbered blank (rs.map (·.withoutExpiry)) h) : Renumbered blank rs h := by
  obtain ⟨hnumbers, hrecords⟩ := hr
  rw [List.length_map] at hnumbers
  refine ⟨hnumbers, (List.forall₂_map_left_iff.mp hrecords).imp ?_⟩
  rintro record replayed ⟨hstate, hactor, hexpiry, hvalue, hmetadata⟩
  exact ⟨hstate, hactor, hexpiry, hvalue, hmetadata⟩

theorem flatMap_withoutExpiry (keys : List (Bytes × List (VersionRecord C))) (key : Bytes) :
    ((keys.map fun k => (k.1, k.2.map (·.withoutExpiry))).flatMap fun k =>
        if key = k.1 then k.2 else []) =
      (keys.flatMap fun k => if key = k.1 then k.2 else []).map (·.withoutExpiry) := by
  rw [List.flatMap_map, List.map_flatMap]
  refine List.flatMap_congr fun k _ => ?_
  by_cases hk : key = k.1
  · rw [if_pos hk, if_pos hk]
  · rw [if_neg hk, if_neg hk, List.map_nil]

section
variable {records : E.Index → String → Bytes → Versions C} {blank : Option Bytes × C.Metadata}
  {index target fresh : E.Index} {ns name : String} {nsRef : NamespaceSnapshot C}
  {entries : List (ExportEntry C)} {config : NamespaceConfig C} {createdAt : UInt64}

/-- After an import every key of the new namespace has its records, numbered from 1. -/
theorem renumbered_import (hk : E.Keeps records blank)
    (hlength : ∀ ns key, (records index ns key).length < 2 ^ 64)
    (hns : nsRef ∈ E.capture index) (hentries : exportEntries nsRef.keys = some entries)
    (hfresh : ∀ ns ∈ E.capture target, ns.name ≠ name)
    (hrun : (ReplayItem.createNamespace name config createdAt ::
        (versionsOf entries).map fun v => .writeVersion name v.1 (restored v.2)).foldlM
      (replayItem E) target = some fresh) (key : Bytes) :
    Renumbered blank ((records index nsRef.name key).map (·.2)) (records fresh name key) ∧
      E.currentVersion fresh name key = numbered (records index nsRef.name key).length := by
  have hmissing : ∀ key, records target name key = [] ∧ E.currentVersion target name key = none :=
    fun key => hk.missing target name key fun ns hns hname => absurd hname (hfresh ns hns)
  have hempty : Holds records blank (· = name) target [] := by
    rintro _ rfl key
    rw [(hmissing key).1, (hmissing key).2]
    exact ⟨⟨rfl, .nil⟩, rfl⟩
  have hitems : ((versionsOf entries).map fun v =>
      ReplayItem.writeVersion name v.1 (restored v.2)) =
      (keyedRecords (nsRef.keys.map fun k => (k.1, k.2.map (·.withoutExpiry)))).map fun v =>
        .writeVersion name v.1 v.2 := by
    rw [← (exportEntries_eq_some hentries).1, List.map_map]
    rfl
  have hwrites : ∀ key, writesOf ([] ++ ReplayItem.createNamespace name config createdAt ::
      (keyedRecords (nsRef.keys.map fun k => (k.1, k.2.map (·.withoutExpiry)))).map fun v =>
        .writeVersion name v.1 v.2) name key =
      ((records index nsRef.name key).map (·.2)).map (·.withoutExpiry) := by
    intro key
    have hkeyed := writesOf_keyedRecords name name
      (nsRef.keys.map fun k => (k.1, k.2.map (·.withoutExpiry))) key
    rw [if_pos rfl, flatMap_withoutExpiry, writesOf_keys hk hns] at hkeyed
    exact hkeyed
  rw [hitems] at hrun
  have hholds := hempty.namespace hk _ rfl hmissing (fun key => ?_) hrun name rfl key
  · rw [hwrites, List.length_map, List.length_map] at hholds
    exact ⟨hholds.1.of_withoutExpiry, hholds.2⟩
  · rw [hwrites, List.length_map, List.length_map]
    exact hlength nsRef.name key

end

section
variable {records : E.Index → String → Bytes → Versions C} {blank : Option Bytes × C.Metadata}
  {index : E.Index}

theorem RekeyRun.renumbered (hk : E.Keeps records blank)
    (hlength : ∀ ns key, (records index ns key).length < 2 ^ 64) (r : RekeyRun E index) :
    ∃ fresh, r.result = some fresh ∧ ∀ ns key,
      Renumbered blank ((records index ns key).map (·.2)) (records fresh ns key) ∧
        E.currentVersion fresh ns key = numbered (records index ns key).length := by
  obtain ⟨fresh, hreplayed, hloads⟩ :=
    loads_runRekey r.durable r.oldDecodes r.newDecodes r.loaded r.completes
  exact ⟨fresh, hloads, renumbered_rekeyItems hk hlength hreplayed⟩

theorem ExportImport.renumbered (hk : E.Keeps records blank) (hjson : P.PrintsJson)
    (hpostcard : ∀ entries payload, P.entriesToBytes entries = .ok payload →
      P.entriesFromBytes payload = .ok entries)
    (hlength : ∀ ns key, (records index ns key).length < 2 ^ 64) {ns : String}
    (r : ExportImport E P index ns) :
    ∃ fresh, r.result = some fresh ∧ ∀ key,
      Renumbered blank ((records index ns key).map (·.2)) (records fresh r.name key) ∧
        E.currentVersion fresh r.name key = numbered (records index ns key).length := by
  obtain ⟨index', nsRef, entries, payload, key', headerJson, encrypted, configJson, hopened, hfind,
    -, hexported⟩ := exported_of_trace r.written
  cases hopened.symm.trans r.opened
  cases (hexported.derived r.key).mp r.derived
  have hns : nsRef ∈ E.capture index := List.mem_of_find?_eq_some hfind
  have hname := List.find?_some hfind
  rw [beq_iff_eq] at hname
  have hcompletes := r.completes
  have hresult : r.result = r.loads ((runImport E P r.importMaster r.input r.rename).run r.importer
    r.target).2 r.importMaster := rfl
  rw [runImport, Program.run, r.read] at hcompletes hresult
  obtain ⟨header, config, entries', target, ⟨headerJson', hparse, hopen⟩, -, hfresh, hreplay⟩ :=
    loads_importBundle r.durable r.sameKey hcompletes
  -- what decrypts is what was sealed, so the header and the entries are those of the export
  obtain ⟨encrypted', payload', -, hdecrypt, hentries'⟩ := openBundle_eq_ok hopen
  obtain ⟨-, rfl, rfl, -⟩ := (hexported.sealed _ _ _ _).mp ((r.decrypts _ _ _).mp hdecrypt)
  obtain ⟨rest, -, -, hheader⟩ := parseHeader_eq_ok hparse
  cases (hjson.header hexported.headerPrinted).symm.trans hheader
  cases (hpostcard _ _ hexported.serialized).symm.trans hentries'
  obtain ⟨fresh, hfold, hloads⟩ := hreplay (exportEntries_eq_some hexported.collected).2
  refine ⟨fresh, hresult.trans hloads, fun key => ?_⟩
  have hrenumbered := renumbered_import hk hlength hns hexported.collected hfresh hfold key
  rwa [hname] at hrenumbered

end

section
variable {records : E.Index → String → Bytes → Versions C} {blank : Option Bytes × C.Metadata}
  {index : E.Index}

/-- A key has the same version numbers, the same state, value, metadata and actor at each of them,
and the same current version. -/
def SameVersions (records : E.Index → String → Bytes → Versions C) (index : E.Index) (ns : String)
    (index' : E.Index) (ns' : String) (key : Bytes) : Prop :=
  (records index' ns' key).map (fun v => (v.1, v.2.shown)) =
      (records index ns key).map (fun v => (v.1, v.2.shown)) ∧
    E.currentVersion index' ns' key = E.currentVersion index ns key

theorem sameVersions_iff {index' : E.Index} {ns ns' : String} {key : Bytes}
    (hcurrent : E.currentVersion index ns key = (records index ns key).getLast?.map (·.1))
    (hr : Renumbered blank ((records index ns key).map (·.2)) (records index' ns' key) ∧
      E.currentVersion index' ns' key = numbered (records index ns key).length) :
    SameVersions records index ns index' ns' key ↔ Untrimmed blank (records index ns key) := by
  rw [SameVersions, hr.1.same_iff, hr.2, hcurrent]
  constructor
  · exact fun h => h.1
  · exact fun h => ⟨h, h.current.symm⟩

/-- A migration keeps the version numbers of a key only if they are 1 to the number of its versions:
both replays number them anew. -/
theorem versions_survive_iff (hk : E.Keeps records blank) (hjson : P.PrintsJson)
    (hpostcard : ∀ entries payload, P.entriesToBytes entries = .ok payload →
      P.entriesFromBytes payload = .ok entries)
    (hlength : ∀ ns key, (records index ns key).length < 2 ^ 64)
    (hcurrent : ∀ ns key,
      E.currentVersion index ns key = (records index ns key).getLast?.map (·.1)) :
    (∀ r : RekeyRun E index, ∃ fresh, r.result = some fresh ∧ ∀ ns key,
      (SameVersions records index ns fresh ns key ↔ Untrimmed blank (records index ns key))) ∧
    ∀ ns (r : ExportImport E P index ns), ∃ fresh, r.result = some fresh ∧ ∀ key,
      (SameVersions records index ns fresh r.name key ↔
        Untrimmed blank (records index ns key)) := by
  constructor
  · intro r
    obtain ⟨fresh, hresult, hrenumbered⟩ := r.renumbered hk hlength
    exact ⟨fresh, hresult, fun ns key => sameVersions_iff (hcurrent ns key) (hrenumbered ns key)⟩
  · intro ns r
    obtain ⟨fresh, hresult, hrenumbered⟩ := r.renumbered hk hjson hpostcard hlength
    exact ⟨fresh, hresult, fun key => sameVersions_iff (hcurrent ns key) (hrenumbered key)⟩

theorem expiry_iff {h h' : Versions C} (hr : Renumbered blank (h.map (·.2)) h') :
    (h'.map fun v => v.2.expiresAtMs) = (h.map fun v => v.2.expiresAtMs) ↔
      ∀ v ∈ h, v.2.expiresAtMs = none := by
  have hexpiry := expiry_iff_of_replayed hr.2
  rw [List.map_map, List.map_map, List.forall_mem_map] at hexpiry
  exact hexpiry

/-- A migration keeps the expiry of the records of a key only if none has one: the payloads that
are replayed do not carry it. -/
theorem expiry_survives_iff (hk : E.Keeps records blank) (hjson : P.PrintsJson)
    (hpostcard : ∀ entries payload, P.entriesToBytes entries = .ok payload →
      P.entriesFromBytes payload = .ok entries)
    (hlength : ∀ ns key, (records index ns key).length < 2 ^ 64) :
    (∀ r : RekeyRun E index, ∃ fresh, r.result = some fresh ∧ ∀ ns key,
      ((records fresh ns key).map (fun v => v.2.expiresAtMs) =
          (records index ns key).map (fun v => v.2.expiresAtMs) ↔
        ∀ v ∈ records index ns key, v.2.expiresAtMs = none)) ∧
    ∀ ns (r : ExportImport E P index ns), ∃ fresh, r.result = some fresh ∧ ∀ key,
      ((records fresh r.name key).map (fun v => v.2.expiresAtMs) =
          (records index ns key).map (fun v => v.2.expiresAtMs) ↔
        ∀ v ∈ records index ns key, v.2.expiresAtMs = none) := by
  constructor
  · intro r
    obtain ⟨fresh, hresult, hrenumbered⟩ := r.renumbered hk hlength
    exact ⟨fresh, hresult, fun ns key => expiry_iff (hrenumbered ns key).1⟩
  · intro ns r
    obtain ⟨fresh, hresult, hrenumbered⟩ := r.renumbered hk hjson hpostcard hlength
    exact ⟨fresh, hresult, fun key => expiry_iff (hrenumbered key).1⟩

end

end

namespace Memory

/-- An index that keeps every write with its number. -/
structure Ledger where
  namespaces : List (String × NamespaceConfig crates × UInt64)
  writes : List (String × Bytes × UInt64 × VersionRecord crates)

namespace Ledger
variable (l : Ledger)

def writesTo (ns : String) (key : Bytes) : List (String × Bytes × UInt64 × VersionRecord crates) :=
  l.writes.filter fun w => w.1 = ns ∧ w.2.1 = key

def records (ns : String) (key : Bytes) : Versions crates :=
  (l.writesTo ns key).foldl (fun h w => insertVersion w.2.2.1 w.2.2.2 h) []

def names : List String := (l.namespaces.map (·.1) ++ l.writes.map (·.1)).dedup

def keys (ns : String) : List Bytes := ((l.writes.filter (·.1 = ns)).map (·.2.1)).dedup

def settings (name : String) : NamespaceConfig crates × UInt64 :=
  (l.namespaces.lookup name).getD (⟨none, none, none⟩, 0)

def capture : List (NamespaceSnapshot crates) :=
  l.names.map fun name =>
    { name, config := (l.settings name).1, createdAt := (l.settings name).2
      keys := (l.keys name).map fun key => (key, (l.records name key).map (·.2)) }

def write (ns : String) (key : Bytes) (version : UInt64) (record : VersionRecord crates) : Ledger :=
  { l with writes := l.writes ++ [(ns, key, version, record)] }

def current (ns : String) (key : Bytes) : Option UInt64 :=
  (l.writesTo ns key).getLast?.map (·.2.2.1)

theorem writesTo_write (ns ns' : String) (key key' : Bytes) (version : UInt64)
    (record : VersionRecord crates) : (l.write ns key version record).writesTo ns' key' =
      l.writesTo ns' key' ++
        if ns' = ns ∧ key' = key then [(ns, key, version, record)] else [] := by
  rw [writesTo, write, List.filter_append, List.filter_singleton]
  by_cases hsame : ns' = ns ∧ key' = key
  · obtain ⟨rfl, rfl⟩ := hsame
    simp [writesTo]
  · have hother : ¬ (ns = ns' ∧ key = key') := fun h => hsame ⟨h.1.symm, h.2.symm⟩
    simp [writesTo, hsame, hother]

theorem write_spec (ns ns' : String) (key key' : Bytes) (version : UInt64)
    (record : VersionRecord crates) :
    (l.write ns key version record).records ns' key' =
        (if ns' = ns ∧ key' = key then insertVersion version record (l.records ns key)
        else l.records ns' key') ∧
      (l.write ns key version record).current ns' key' =
        if ns' = ns ∧ key' = key then some version else l.current ns' key' := by
  rw [records, current, writesTo_write]
  by_cases hsame : ns' = ns ∧ key' = key
  · rw [if_pos hsame, if_pos hsame, if_pos hsame, List.foldl_append, List.getLast?_append]
    obtain ⟨rfl, rfl⟩ := hsame
    exact ⟨rfl, rfl⟩
  · rw [if_neg hsame, if_neg hsame, if_neg hsame, List.append_nil]
    exact ⟨rfl, rfl⟩

/-- What is not captured was never written. -/
theorem writesTo_eq_nil {name : String} {key : Bytes}
    (h : ∀ ns ∈ l.capture, ns.name = name → ∀ k ∈ ns.keys, k.1 ≠ key) :
    l.writesTo name key = [] := by
  refine List.filter_eq_nil_iff.mpr fun w hw hmatch => ?_
  obtain ⟨rfl, rfl⟩ := of_decide_eq_true hmatch
  have hname : w.1 ∈ l.names :=
    List.mem_dedup.mpr (List.mem_append_right _ (List.mem_map_of_mem hw))
  have hkey : w.2.1 ∈ l.keys w.1 := by
    refine List.mem_dedup.mpr (List.mem_map.mpr ⟨w, ?_, rfl⟩)
    exact List.mem_filter.mpr ⟨hw, decide_eq_true rfl⟩
  exact h _ (List.mem_map_of_mem hname) rfl _ (List.mem_map_of_mem hkey) rfl

end Ledger

abbrev ledger : Storage crates where
  Index := Ledger
  empty := ⟨[], []⟩
  capture := Ledger.capture
  currentVersion := Ledger.current
  apply l ns
    | .namespaceCreated name config createdAt =>
      { l with namespaces := l.namespaces ++ [(name, config, createdAt)] }
    | .entryPut key value metadata version actor =>
      l.write ns key version ⟨.active, some value, metadata, 0, actor, none⟩
    | .entryDeleted key version actor =>
      l.write ns key version ⟨.deleted, some [], (), 0, actor, none⟩
  decodeHex := Handlers.decodeHex

theorem ledger_keeps : ledger.Keeps Ledger.records (some [], ()) where
  emptyRecords _ _ := rfl
  emptyCurrent _ _ := rfl
  names l := by
    have hnames : l.capture.map (·.name) = l.names := by
      rw [Ledger.capture, List.map_map]
      exact List.map_id' _
    rw [hnames]
    exact List.nodup_dedup _
  keys l ns hns := by
    obtain ⟨name, -, rfl⟩ := List.mem_map.mp hns
    rw [List.map_map]
    exact (List.map_id' (l.keys name)).symm ▸ List.nodup_dedup _
  captured l ns hns k hk := by
    obtain ⟨name, -, rfl⟩ := List.mem_map.mp hns
    obtain ⟨key, -, rfl⟩ := List.mem_map.mp hk
    rfl
  missing l name key h := by
    have hnone := l.writesTo_eq_nil h
    change l.records name key = [] ∧ l.current name key = none
    rw [Ledger.records, Ledger.current, hnone]
    exact ⟨rfl, rfl⟩
  created _ _ _ _ _ _ _ := ⟨rfl, rfl⟩
  put l ns key value metadata version actor :=
    ⟨0, fun ns' key' => l.write_spec ns ns' key key' version _⟩
  deleted l ns key version actor :=
    ⟨0, fun ns' key' => l.write_spec ns ns' key key' version _⟩

theorem bundleDurable {E : Storage crates} (hempty : E.capture E.empty = []) :
    BundleDurable (answerBundle E) (fun place => place.1.holds E) fun place => place.1.loads E where
  engine := {
    captureEmpty := hempty
    bindPort := fun place => (engineDir_durable E hempty).bindPort place.1
    opened := fun key place => (engineDir_durable E hempty).opened key place.1
    openFailed := fun key place => (engineDir_durable E hempty).openFailed key place.1
    shutdown := fun key place => (engineDir_durable E hempty).shutdown key place.1
    looked := fun place => (engineDir_durable E hempty).looked place.1
    missing := fun place => (engineDir_durable E hempty).missing place.1
    removed := fun place => (engineDir_durable E hempty).removed place.1
    currentVersion := fun engine ns key place =>
      (engineDir_durable E hempty).currentVersion engine ns key place.1
    applied := fun engine ns payload place =>
      (engineDir_durable E hempty).applied engine ns payload place.1
    snapshot := fun engine place => (engineDir_durable E hempty).snapshot engine place.1 }
  exportKey _ := ⟨rfl, rfl⟩
  readFile place := by
    obtain ⟨dir, file⟩ := place
    cases file <;> exact ⟨rfl, rfl⟩

/-- One key with these versions. -/
def keyHistory (versions : Versions crates) : Ledger where
  namespaces := [("a", ⟨none, none, none⟩, 0)]
  writes := versions.map fun v => ("a", [107], v)

theorem keyHistory_writesTo (versions : Versions crates) (ns : String) (key : Bytes) :
    (keyHistory versions).writesTo ns key =
      if ns = "a" ∧ key = [107] then (keyHistory versions).writes else [] := by
  have hwrites : ∀ w ∈ (keyHistory versions).writes, w.1 = "a" ∧ w.2.1 = [107] := by
    intro w hw
    obtain ⟨v, -, rfl⟩ := List.mem_map.mp hw
    exact ⟨rfl, rfl⟩
  split_ifs with hkey
  · obtain ⟨rfl, rfl⟩ := hkey
    exact List.filter_eq_self.mpr fun w hw => decide_eq_true (hwrites w hw)
  · refine List.filter_eq_nil_iff.mpr fun w hw hmatch => hkey ?_
    obtain ⟨hns, hkey⟩ := of_decide_eq_true hmatch
    exact ⟨hns.symm.trans (hwrites w hw).1, hkey.symm.trans (hwrites w hw).2⟩

/-- What holds of the one key and of a key without versions holds of every key. -/
theorem forall_keys {P : Versions crates → Option UInt64 → Prop} {versions : Versions crates}
    (hnone : P [] none)
    (hkey : P ((keyHistory versions).records "a" [107]) ((keyHistory versions).current "a" [107]))
    (ns : String) (key : Bytes) :
    P ((keyHistory versions).records ns key) ((keyHistory versions).current ns key) := by
  by_cases h : ns = "a" ∧ key = [107]
  · obtain ⟨rfl, rfl⟩ := h
    exact hkey
  · rw [Ledger.records, Ledger.current, keyHistory_writesTo, if_neg h]
    exact hnone

def rekeyOf (l : Ledger)
    (completes : ((runRekey ledger "127.0.0.1:6399" "data" oldKeyHex newKeyHex).run
      (answerEngine ledger) (.closed ledger oldKey l)).1 = .complete) : RekeyRun ledger l where
  answer := answerEngine ledger
  holds := EngineDir.holds ledger
  loads := EngineDir.loads ledger
  durable := engineDir_durable ledger rfl
  start := .closed ledger oldKey l
  bind := "127.0.0.1:6399"
  dataDir := "data"
  oldKeyHex := oldKeyHex
  newKeyHex := newKeyHex
  oldKey := oldKey
  newKey := newKey
  oldDecodes := rfl
  newDecodes := rfl
  loaded := rfl
  completes := completes

/-- The bundle with these entries. -/
def bundleOf (payload : Bytes) : Bytes :=
  writeBundle aHeader (encrypted payload) (utf8 "\x7b\x7d")

/-- The export of a namespace to an empty directory. -/
def moveOf (l : Ledger) (payload : Bytes)
    (trace : (runExport ledger (codec payload aHeader) oldKey "a" "a.sdb").trace
        (answerBundle ledger) (.closed ledger oldKey l, none) =
      [⟨.engine (.openEngine oldKey), .ok l⟩, ⟨.exportKey, .ok exportKey⟩,
        ⟨.aesGcmEncrypt exportKey payload aHeader, .ok (encrypted payload)⟩,
        ⟨.writeFile (bundleOf payload), .ok ()⟩, ⟨.engine (.shutdownEngine oldKey), .ok ()⟩])
    (completes : ((runImport ledger (codec payload aHeader) oldKey "a.sdb" none).run
      (answerBundle ledger) (none, some (bundleOf payload))).1 = .complete) :
    ExportImport ledger (codec payload aHeader) l "a" where
  exporter := answerBundle ledger
  importer := answerBundle ledger
  holds place := place.1.holds ledger
  loads place := place.1.loads ledger
  durable := bundleDurable rfl
  start := (.closed ledger oldKey l, none)
  target := (none, some (bundleOf payload))
  output := "a.sdb"
  input := "a.sdb"
  rename := none
  exportMaster := oldKey
  importMaster := oldKey
  key := exportKey
  bundle := bundleOf payload
  opened := rfl
  derived := by
    rw [trace]
    simp
  decrypts ciphertext aad plain := by
    rw [trace]
    exact codec_decrypts ciphertext aad plain
  written := by
    rw [trace]
    simp
  read := rfl
  sameKey _ _ h := (Except.ok.inj h).symm
  completes := completes

/-- A key that was written, deleted and written again. -/
def rewritten : Ledger :=
  keyHistory [(1, ⟨.active, some [118], (), 0, "memory", none⟩),
    (2, ⟨.deleted, some [], (), 0, "memory", none⟩),
    (3, ⟨.active, some [118], (), 0, "memory", none⟩)]

def rekeyRewritten : RekeyRun ledger rewritten := rekeyOf rewritten rfl

set_option maxRecDepth 8000 in
def moveRewritten : ExportImport ledger (codec [0, 1, 0] aHeader) rewritten "a" :=
  moveOf rewritten [0, 1, 0] rfl rfl

/-- A history with a tombstone is migrated as it is, since it starts at 1 and has no gap. -/
theorem whole_history_survives :
    (∃ fresh, rekeyRewritten.result = some fresh ∧
      SameVersions (E := ledger) Ledger.records rewritten "a" fresh "a" [107]) ∧
    ∃ fresh, moveRewritten.result = some fresh ∧
      SameVersions (E := ledger) Ledger.records rewritten "a" fresh moveRewritten.name [107] := by
  have huntrimmed : Untrimmed (C := crates) (some [], ()) (rewritten.records "a" [107]) := by
    refine ⟨rfl, fun v hv hdeleted => ?_⟩
    rcases List.mem_cons.mp hv with rfl | hv
    · cases hdeleted
    rcases List.mem_cons.mp hv with rfl | hv
    · rfl
    cases List.mem_singleton.mp hv
    cases hdeleted
  have hlength : ∀ ns key, (rewritten.records ns key).length < 2 ^ 64 :=
    forall_keys (P := fun records _ => records.length < 2 ^ 64) (by decide) (by decide)
  have hcurrent : ∀ ns key,
      rewritten.current ns key = (rewritten.records ns key).getLast?.map (·.1) :=
    forall_keys (P := fun records current => current = records.getLast?.map (·.1)) rfl rfl
  obtain ⟨hrekey, hmove⟩ := versions_survive_iff (E := ledger) (P := codec [0, 1, 0] aHeader)
    ledger_keeps (codec_printsJson _ _) (fun _ _ h => entriesFromBytes_print h) hlength hcurrent
  obtain ⟨fresh, hfresh, hiff⟩ := hrekey rekeyRewritten
  obtain ⟨fresh', hfresh', hiff'⟩ := hmove "a" moveRewritten
  exact ⟨⟨fresh, hfresh, (hiff "a" [107]).mpr huntrimmed⟩,
    ⟨fresh', hfresh', (hiff' [107]).mpr huntrimmed⟩⟩

/-- One key whose only version has the number `version`. -/
def numberedOnce (version : UInt64) (expiresAtMs : Option UInt64) : Ledger :=
  keyHistory [(version, ⟨.active, some [118], (), 0, "memory", expiresAtMs⟩)]

def rekeyOnce (version : UInt64) (expiresAtMs : Option UInt64) :
    RekeyRun ledger (numberedOnce version expiresAtMs) :=
  rekeyOf (numberedOnce version expiresAtMs) rfl

set_option maxRecDepth 8000 in
def moveOnce (version : UInt64) (expiresAtMs : Option UInt64) :
    ExportImport ledger aCodec (numberedOnce version expiresAtMs) "a" :=
  moveOf (numberedOnce version expiresAtMs) [0] rfl rfl

set_option maxRecDepth 8000 in
/-- A key whose first version was dropped: its version 2 becomes version 1. -/
theorem trimmed_history_renumbered :
    (rekeyOnce 2 none).result = some (numberedOnce 1 none) ∧
      (moveOnce 2 none).result = some (numberedOnce 1 none) ∧ (moveOnce 2 none).name = "a" ∧
      ¬ SameVersions (E := ledger) Ledger.records (numberedOnce 2 none) "a" (numberedOnce 1 none)
        "a" [107] := by
  refine ⟨rfl, rfl, rfl, fun h => ?_⟩
  have hcurrent : some (1 : UInt64) = some 2 := h.2
  revert hcurrent
  decide

theorem unexpiring_survives :
    (∃ fresh, (rekeyOnce 1 none).result = some fresh ∧
      (fresh.records "a" [107]).map (fun v => v.2.expiresAtMs) = [none]) ∧
    ∃ fresh, (moveOnce 1 none).result = some fresh ∧
      (fresh.records (moveOnce 1 none).name [107]).map (fun v => v.2.expiresAtMs) = [none] := by
  have hunexpiring : ∀ v ∈ (numberedOnce 1 none).records "a" [107], v.2.expiresAtMs = none := by
    intro v hv
    cases List.mem_singleton.mp hv
    rfl
  have hlength : ∀ ns key, ((numberedOnce 1 none).records ns key).length < 2 ^ 64 :=
    forall_keys (P := fun records _ => records.length < 2 ^ 64) (by decide) (by decide)
  obtain ⟨hrekey, hmove⟩ := expiry_survives_iff (E := ledger) (P := aCodec) ledger_keeps
    (codec_printsJson _ _) (fun _ _ h => entriesFromBytes_print h) hlength
  obtain ⟨fresh, hfresh, hiff⟩ := hrekey (rekeyOnce 1 none)
  obtain ⟨fresh', hfresh', hiff'⟩ := hmove "a" (moveOnce 1 none)
  exact ⟨⟨fresh, hfresh, (hiff "a" [107]).mpr hunexpiring⟩,
    ⟨fresh', hfresh', (hiff' [107]).mpr hunexpiring⟩⟩

set_option maxRecDepth 8000 in
/-- A record that expires becomes permanent. -/
theorem expiring_record_made_permanent :
    ((numberedOnce 1 (some 5)).records "a" [107]).map (fun v => v.2.expiresAtMs) = [some 5] ∧
      (rekeyOnce 1 (some 5)).result = some (numberedOnce 1 none) ∧
      (moveOnce 1 (some 5)).result = some (numberedOnce 1 none) ∧
      ((numberedOnce 1 none).records "a" [107]).map (fun v => v.2.expiresAtMs) = [none] :=
  ⟨rfl, rfl, rfl, rfl⟩

end Memory

end Shroudb
