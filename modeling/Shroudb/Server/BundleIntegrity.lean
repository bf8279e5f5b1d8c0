import Shroudb.Server.Migration

/-! What a changed bundle can make `run_import` do. -/
namespace Shroudb
open Wire Effect

section
variable {C : Crates} {E : Storage C} {P : BundleCodec C}

/-- `bytes` ends in a configuration section. -/
def EndsInConfig (P : BundleCodec C) (bytes : Bytes) : Prop :=
  ∃ pre json config, bytes = pre ++ leBytes 4 json.length ++ json ∧ json ≠ [] ∧
    json.length < 1000000 ∧ P.configFromJson json = .ok config

/-- What follows the ciphertext reads as `config`: a section, or nothing at all. -/
inductive ReadsAs (P : BundleCodec C) (encrypted : Bytes) : Bytes → NamespaceConfig C → Prop
  | absent (room : 4 ≤ encrypted.length) (plain : ¬ EndsInConfig P encrypted) :
    ReadsAs P encrypted [] P.configDefault
  | present {json : Bytes} {config : NamespaceConfig C} (ne : json ≠ [])
    (small : json.length < 1000000) (parses : P.configFromJson json = .ok config) :
    ReadsAs P encrypted (leBytes 4 json.length ++ json) config

/-- The bundle keeps the header and the ciphertext, and what follows reads as a configuration that
the original did not read as. -/
def Tampered (P : BundleCodec C) (headerJson encrypted configJson bundle : Bytes) : Prop :=
  headerJson.length < 2 ^ 32 ∧ ∃ rest config, bundle = protectedPart headerJson encrypted ++ rest ∧
    ReadsAs P encrypted rest config ∧
    ¬ ReadsAs P encrypted (leBytes 4 configJson.length ++ configJson) config

/-- The ideal cipher: decryption under the export key succeeds on what was sealed, and on nothing
else. -/
def Ideal (P : BundleCodec C) (key encrypted headerJson payload : Bytes) : Prop :=
  ∀ ciphertext aad plain, P.aesGcmDecrypt key ciphertext aad = .ok plain ↔
    ciphertext = encrypted ∧ aad = headerJson ∧ plain = payload

/-! ## Which bundles open -/

section
variable {bundle headerJson encrypted rest : Bytes} {config : NamespaceConfig C}

/-- A boundary that leaves `encrypted` in front of it. -/
theorem readsAs_of_latest {found : Option (NamespaceConfig C × Nat)}
    (hroom : 8 + headerJson.length + 4 ≤ bundle.length)
    (hbundle : bundle = exportMagic ++ leBytes 4 headerJson.length ++ headerJson ++ rest)
    (hlatest : Latest P bundle (8 + headerJson.length) (bundle.length - 4) found)
    (hencrypted : (bundle.drop (8 + headerJson.length)).take
      ((boundary P bundle found).2 - (8 + headerJson.length)) = encrypted) :
    ∃ rest', bundle = protectedPart headerJson encrypted ++ rest' ∧
      ReadsAs P encrypted rest' (boundary P bundle found).1 := by
  have hmagic : exportMagic.length = 4 := rfl
  have hlen : (exportMagic ++ leBytes 4 headerJson.length ++ headerJson).length =
      8 + headerJson.length := by
    simp only [List.length_append, length_leBytes, hmagic]
  have hdrop : bundle.drop (8 + headerJson.length) = rest := by
    rw [hbundle]
    exact List.drop_left' hlen
  rw [hdrop] at hencrypted
  have hrest : bundle.length = 8 + headerJson.length + rest.length := by
    rw [hbundle, List.length_append, hlen]
  cases found with
  | none =>
    have hall : rest = encrypted := by
      rw [← hencrypted, boundary, Option.getD_none, List.take_of_length_le (by omega)]
    refine ⟨[], by rw [hbundle, hall, List.append_nil, protectedPart], ?_⟩
    refine .absent (by rw [← hall]; omega) ?_
    rintro ⟨pre, json, config, hpre, hne, hlt, hparse⟩
    have hpos := List.length_pos_iff.mpr hne
    have hsplit : rest.length = pre.length + 4 + json.length := by
      rw [hall, hpre]
      simp only [List.length_append, length_leBytes]
    refine hlatest (8 + headerJson.length + pre.length) config (by omega) (by omega) ?_
    refine ⟨exportMagic ++ leBytes 4 headerJson.length ++ headerJson ++ pre, json, ?_, ?_, hlt,
      hparse⟩
    · rw [hbundle, hall, hpre]
      simp only [List.append_assoc]
    · rw [List.length_append, hlen]
  | some found =>
    obtain ⟨config, t⟩ := found
    obtain ⟨hstart, ht, ⟨pre, json, hpre, hprelen, hlt, hparse⟩, -⟩ := hlatest
    rw [boundary, Option.getD_some] at hencrypted
    have hjson : json ≠ [] := by
      rintro rfl
      rw [hpre] at ht
      simp only [List.length_append, length_leBytes, List.length_nil] at ht
      omega
    have hfront : pre = protectedPart headerJson encrypted := by
      have htake : pre = bundle.take t := by
        rw [hpre, List.append_assoc, List.take_left' hprelen]
      rw [htake, hbundle, List.take_append, hlen, hencrypted,
        List.take_of_length_le (by omega), protectedPart]
    refine ⟨leBytes 4 json.length ++ json, by rw [← hfront, hpre, List.append_assoc], ?_⟩
    exact .present hjson hlt hparse

theorem parseSections_of_readsAs (hstrict : ∀ json config, P.configFromJson json = .ok config →
      (0 : UInt8) ∉ json)
    (h : ReadsAs P encrypted rest config) :
    parseSections P (protectedPart headerJson encrypted ++ rest) (8 + headerJson.length) =
      .ok (config, encrypted) := by
  have hlength := length_protectedPart headerJson encrypted
  cases h with
  | absent hroom hplain =>
    rw [List.append_nil]
    have hmagic : exportMagic.length = 4 := rfl
    have hlen : (exportMagic ++ leBytes 4 headerJson.length ++ headerJson).length =
        8 + headerJson.length := by
      simp only [List.length_append, length_leBytes, hmagic]
    have hdrop : (protectedPart headerJson encrypted).drop (8 + headerJson.length) = encrypted :=
      List.drop_left' hlen
    have hnone : Latest P (protectedPart headerJson encrypted) (8 + headerJson.length)
        ((protectedPart headerJson encrypted).length - 4) none := by
      rintro t config hstart ht ⟨pre, json, hpre, hprelen, hlt, hparse⟩
      refine hplain ⟨pre.drop (8 + headerJson.length), json, config, ?_, ?_, hlt, hparse⟩
      · rw [← hdrop, hpre, List.append_assoc, List.drop_append_of_le_length (by omega),
          List.append_assoc]
      · rintro rfl
        rw [hpre] at ht
        simp only [List.length_append, length_leBytes, List.length_nil] at ht
        omega
    rw [parseSections_of_latest (by omega) hnone]
    simp only [boundary, Option.getD_none, hdrop]
    rw [List.take_of_length_le (by omega)]
  | present hne hlt hparse =>
    rw [← List.append_assoc]
    exact parseSections_section (hstrict _ _ hparse) hne hlt hparse

/-- `run_import` would create a namespace from the bundle. -/
def Opens (P : BundleCodec C) (key bundle : Bytes) (header : ExportHeader)
    (config : NamespaceConfig C) (entries : List (ExportEntry C)) : Prop :=
  ∃ headerJson, parseHeader P bundle = .ok (header, headerJson) ∧
    openBundle P key bundle headerJson = .ok (config, entries)

theorem openBundle_eq_ok {key : Bytes} {entries : List (ExportEntry C)}
    (h : openBundle P key bundle headerJson = .ok (config, entries)) :
    ∃ encrypted payload, parseSections P bundle (8 + headerJson.length) = .ok (config, encrypted) ∧
      P.aesGcmDecrypt key encrypted headerJson = .ok payload ∧
      P.entriesFromBytes payload = .ok entries := by
  rw [openBundle] at h
  split at h
  · cases h
  · rename_i config' encrypted' hsections
    split at h
    · cases h
    · rename_i payload' hdecrypt
      split at h
      · cases h
      · rename_i entries' hentries
        cases h
        exact ⟨encrypted', payload', hsections, hdecrypt, hentries⟩

variable {key payload : Bytes} {header header' : ExportHeader}
  {entries entries' : List (ExportEntry C)}

/-- Only the configuration is open to whoever cannot seal: header and ciphertext are fixed. -/
theorem opens_iff (hstrict : ∀ json config, P.configFromJson json = .ok config →
      (0 : UInt8) ∉ json)
    (hheader : P.headerFromJson headerJson = .ok header)
    (hentries : P.entriesFromBytes payload = .ok entries)
    (hideal : Ideal P key encrypted headerJson payload) :
    Opens P key bundle header' config entries' ↔
      header' = header ∧ entries' = entries ∧ headerJson.length < 2 ^ 32 ∧
        ∃ rest, bundle = protectedPart headerJson encrypted ++ rest ∧
          ReadsAs P encrypted rest config := by
  constructor
  · rintro ⟨headerJson', hparse, hopen⟩
    obtain ⟨encrypted', payload', hsections, hdecrypt, hentries'⟩ := openBundle_eq_ok hopen
    obtain ⟨rfl, rfl, rfl⟩ := (hideal _ _ _).mp hdecrypt
    obtain ⟨rest, hbundle, hlen, hheader'⟩ := parseHeader_eq_ok hparse
    rw [hheader] at hheader'
    rw [hentries] at hentries'
    cases hheader'
    cases hentries'
    refine ⟨rfl, rfl, hlen, ?_⟩
    have hroom : 8 + headerJson'.length + 4 ≤ bundle.length := by
      by_contra hshort
      rw [parseSections, if_pos (by omega)] at hsections
      cases hsections
    obtain ⟨found, hlatest, hfound⟩ := exists_parseSections (P := P) hroom
    rw [hsections] at hfound
    obtain ⟨hconfig, hencrypted⟩ := Prod.mk.inj (Except.ok.inj hfound)
    rw [hconfig]
    exact readsAs_of_latest hroom hbundle hlatest hencrypted.symm
  · rintro ⟨rfl, rfl, hlen, rest, rfl, hreads⟩
    refine ⟨headerJson, parseHeader_protectedPart rest hheader hlen, ?_⟩
    have hdecrypt := (hideal encrypted headerJson payload).mpr ⟨rfl, rfl, rfl⟩
    simp only [openBundle, parseSections_of_readsAs hstrict hreads, hdecrypt, hentries]

end

/-! ## What an import does with a bundle -/

section
variable {σ : Type} {answer : (op : BundleOp C) → σ → op.Answer E × σ} {key masterKey : Bytes}
  {bundle bundle' : Bytes} {header : ExportHeader} {config : NamespaceConfig C}
  {entries : List (ExportEntry C)}

theorem parseHeader_error {exit : RekeyExit} (h : parseHeader P bundle = .error exit) :
    exit ≠ .complete := by
  rintro rfl
  rw [parseHeader] at h
  split_ifs at h with hshort
  · cases h
  rw [slice_eq (by omega) (by omega), slice_eq (by omega) (by omega)] at h
  simp only [bind, Except.bind] at h
  split_ifs at h with hmagic hheader
  · cases h
  · cases h
  · rw [slice_eq (by omega) (by omega)] at h
    simp only at h
    split at h <;> cases h

theorem openBundle_error {headerJson : Bytes} {exit : RekeyExit}
    (h : openBundle P key bundle headerJson = .error exit) : exit ≠ .complete := by
  rintro rfl
  rw [openBundle] at h
  split at h
  · rename_i hsections
    by_cases hroom : 8 + headerJson.length + 4 ≤ bundle.length
    · obtain ⟨found, -, hfound⟩ := exists_parseSections (P := P) hroom
      rw [hfound] at hsections
      cases hsections
    · rw [parseSections, if_pos (by omega)] at hsections
      cases hsections
      cases h
  · split at h
    · cases h
    · split at h <;> cases h

/-- Two bundles with the same contents are imported alike. -/
theorem run_importBundle_congr (hkey : ∀ s k, (answer .exportKey s).1 = Except.ok k → k = key)
    (h : Opens P key bundle header config entries)
    (h' : Opens P key bundle' header config entries) (rename : Option String) (s : σ) :
    (importBundle E P masterKey rename bundle').run answer s =
      (importBundle E P masterKey rename bundle).run answer s := by
  obtain ⟨headerJson, hparse, hopen⟩ := h
  obtain ⟨headerJson', hparse', hopen'⟩ := h'
  simp only [importBundle, hparse, hparse', Program.run]
  generalize (answer (.engine (.openEngine masterKey)) s).2 = s₁
  cases (answer (.engine (.openEngine masterKey)) s).1 with
  | error e => rfl
  | ok index =>
    simp only
    split_ifs with hexists
    · rfl
    · simp only [Program.run]
      cases hk : (answer .exportKey s₁).1 with
      | error e => rfl
      | ok k =>
        cases hkey s₁ k hk
        simp only [hopen, hopen']

/-- An import that completes has opened its bundle, and found no namespace of the name. -/
theorem run_importBundle {rename : Option String} {s : σ}
    (hkey : ∀ s k, (answer .exportKey s).1 = Except.ok k → k = key)
    (hrun : ((importBundle E P masterKey rename bundle).run answer s).1 = .complete) :
    ∃ header config entries index, Opens P key bundle header config entries ∧
      (answer (.engine (.openEngine masterKey)) s).1 = Except.ok index ∧
      (∀ ns ∈ E.capture index, ns.name ≠ rename.getD header.ns) ∧
      (importBundle E P masterKey rename bundle).run answer s =
        (importNamespace E masterKey (rename.getD header.ns) config header.createdAt entries).run
          answer (answer .exportKey (answer (.engine (.openEngine masterKey)) s).2).2 := by
  rw [importBundle] at hrun ⊢
  cases hparse : parseHeader P bundle with
  | error exit =>
    rw [hparse] at hrun
    exact absurd hrun (parseHeader_error hparse)
  | ok parsed =>
    obtain ⟨header, headerJson⟩ := parsed
    simp only [hparse, Program.run] at hrun ⊢
    cases hindex : (answer (.engine (.openEngine masterKey)) s).1 with
    | error e =>
      rw [hindex] at hrun
      cases hrun
    | ok index =>
      generalize (answer (.engine (.openEngine masterKey)) s).2 = s₁ at hrun ⊢
      simp only [hindex] at hrun ⊢
      split_ifs at hrun with hexists
      · simp only [Program.run] at hrun
        cases hshut : (answer (.engine (.shutdownEngine masterKey)) s₁).1 <;>
          rw [hshut] at hrun <;> cases hrun
      · rw [if_neg hexists]
        simp only [Program.run] at hrun ⊢
        cases hk : (answer .exportKey s₁).1 with
        | error e =>
          rw [hk] at hrun
          cases hrun
        | ok k =>
          cases hkey s₁ k hk
          simp only [hk] at hrun ⊢
          cases hopen : openBundle P key bundle headerJson with
          | error exit =>
            rw [hopen] at hrun
            exact absurd hrun (openBundle_error hopen)
          | ok opened =>
            refine ⟨header, opened.1, opened.2, index, ⟨headerJson, hparse, hopen⟩, rfl, ?_, rfl⟩
            intro ns hns hname
            exact hexists (List.any_eq_true.mpr ⟨ns, hns, beq_iff_eq.mpr hname⟩)

/-- An import of `bundle'` fails, or does in every environment what the import of `bundle` does. -/
def Preserved (E : Storage C) (P : BundleCodec C) (key masterKey bundle bundle' : Bytes) : Prop :=
  ∀ (σ : Type) (answer : (op : BundleOp C) → σ → op.Answer E × σ),
    (∀ s k, (answer .exportKey s).1 = Except.ok k → k = key) →
    ∀ (rename : Option String) (s : σ),
      ((importBundle E P masterKey rename bundle').run answer s).1 ≠ .complete ∨
      (importBundle E P masterKey rename bundle').run answer s =
        (importBundle E P masterKey rename bundle).run answer s

/-- An engine that starts empty, accepts everything and keeps what it was given. -/
def recorder (E : Storage C) (key : Bytes) :
    (op : BundleOp C) → List (WalPayload C) → op.Answer E × List (WalPayload C)
  | .engine .bindPort, log => (true, log)
  | .engine (.openEngine _), log => (.ok E.empty, log)
  | .engine (.shutdownEngine _), log => (.ok (), log)
  | .engine .dataDirExists, log => (true, log)
  | .engine .removeDirAll, log => (.ok (), log)
  | .engine (.currentVersion ..), log => (none, log)
  | .engine (.applyPayload _ _ payload), log => (.ok (), log ++ [payload])
  | .engine (.snapshotEngine _), log => (.ok (), log)
  | .exportKey, log => (.ok key, log)
  | .aesGcmEncrypt .., log => (.error "not sealed", log)
  | .readFile, log => (.error "no file", log)
  | .writeFile _, log => (.ok (), log)

theorem run_importVersions_recorder {engine : Bytes} {ns : String}
    (versions : List (Bytes × ExportVersion C)) (log : List (WalPayload C)) :
    ∃ more, (importVersions E engine ns versions).run (recorder E key) log =
      (.complete, log ++ more) := by
  induction versions generalizing log with
  | nil => exact ⟨[], by rw [List.append_nil]; rfl⟩
  | cons version versions ih =>
    obtain ⟨k, version⟩ := version
    have hpayload : ∀ payload failure, ∃ more,
        (applyImported E engine ns payload failure (importVersions E engine ns versions)).run
          (recorder E key) log = (.complete, log ++ more) := by
      intro payload failure
      obtain ⟨more, hmore⟩ := ih (log ++ [payload])
      refine ⟨payload :: more, ?_⟩
      rw [List.append_cons]
      exact hmore
    simp only [importVersions, Program.run, recorder]
    split_ifs
    · exact hpayload _ _
    · exact hpayload _ _
    · exact ih log

/-- The first thing such an import leaves behind is its namespace. -/
theorem run_importBundle_recorder (masterKey : Bytes) (rename : Option String)
    (hempty : E.capture E.empty = []) (h : Opens P key bundle header config entries) :
    ∃ more, (importBundle E P masterKey rename bundle).run (recorder E key) [] =
      (.complete, .namespaceCreated (rename.getD header.ns) config header.createdAt :: more) := by
  obtain ⟨headerJson, hparse, hopen⟩ := h
  obtain ⟨more, hmore⟩ : ∃ more,
      (importVersions E masterKey (rename.getD header.ns) (versionsOf entries)).run
        (recorder E key) [.namespaceCreated (rename.getD header.ns) config header.createdAt] =
      (.complete, [.namespaceCreated (rename.getD header.ns) config header.createdAt] ++ more) :=
    run_importVersions_recorder _ _
  refine ⟨more, ?_⟩
  simp only [importBundle, hparse, Program.run, recorder, hempty, List.any_nil,
    Bool.false_eq_true, if_false, hopen]
  exact hmore

/-- Whoever cannot seal can change the configuration, and nothing else. -/
theorem preserved_iff {headerJson encrypted configJson payload : Bytes}
    (hempty : E.capture E.empty = [])
    (hstrict : ∀ json config, P.configFromJson json = .ok config → (0 : UInt8) ∉ json)
    (hheader : P.headerFromJson headerJson = .ok header)
    (hentries : P.entriesFromBytes payload = .ok entries)
    (hideal : Ideal P key encrypted headerJson payload) :
    Preserved E P key masterKey (writeBundle headerJson encrypted configJson) bundle' ↔
      ¬ Tampered P headerJson encrypted configJson bundle' := by
  have hopens : ∀ {bundle header' config' entries'}, Opens P key bundle header' config' entries' ↔
      header' = header ∧ entries' = entries ∧ headerJson.length < 2 ^ 32 ∧
        ∃ rest, bundle = protectedPart headerJson encrypted ++ rest ∧
          ReadsAs P encrypted rest config' :=
    opens_iff hstrict hheader hentries hideal
  have hwritten : writeBundle headerJson encrypted configJson =
      protectedPart headerJson encrypted ++ (leBytes 4 configJson.length ++ configJson) := by
    rw [writeBundle_eq, List.append_assoc]
  constructor
  · rintro hpreserved ⟨hlen, rest, config', hbundle, hreads, hother⟩
    have hopen' : Opens P key bundle' header config' entries :=
      hopens.mpr ⟨rfl, rfl, hlen, rest, hbundle, hreads⟩
    obtain ⟨more', hrun'⟩ := run_importBundle_recorder masterKey none hempty hopen'
    have hrecorder : ∀ s k, (recorder E key .exportKey s).1 = Except.ok k → k = key :=
      fun s k hk => (Except.ok.inj hk).symm
    rcases hpreserved _ (recorder E key) hrecorder none [] with hfail | hsame
    · rw [hrun'] at hfail
      exact hfail rfl
    · by_cases hopen : ∃ config, Opens P key (writeBundle headerJson encrypted configJson) header
          config entries
      · obtain ⟨config, hopen⟩ := hopen
        obtain ⟨more, hrun⟩ := run_importBundle_recorder masterKey none hempty hopen
        rw [hrun, hrun'] at hsame
        cases hsame
        obtain ⟨-, -, -, rest₀, hrest₀, hreads₀⟩ := hopens.mp hopen
        rw [hwritten] at hrest₀
        rw [← List.append_cancel_left hrest₀] at hreads₀
        exact hother hreads₀
      · have hcomplete : ((importBundle E P masterKey none
            (writeBundle headerJson encrypted configJson)).run (recorder E key) []).1 =
              .complete := by
          rw [← hsame, hrun']
        obtain ⟨header₀, config₀, entries₀, -, hopen₀, -⟩ := run_importBundle hrecorder hcomplete
        obtain ⟨rfl, rfl, -⟩ := hopens.mp hopen₀
        exact hopen ⟨config₀, hopen₀⟩
  · intro hintact σ answer hkey rename s
    by_cases hopen' : ∃ config, Opens P key bundle' header config entries
    · obtain ⟨config', hopen'⟩ := hopen'
      obtain ⟨-, -, hlen, rest, hbundle, hreads⟩ := hopens.mp hopen'
      have horiginal : ReadsAs P encrypted (leBytes 4 configJson.length ++ configJson) config' := by
        by_contra hother
        exact hintact ⟨hlen, rest, config', hbundle, hreads, hother⟩
      have hopen : Opens P key (writeBundle headerJson encrypted configJson) header config'
          entries :=
        hopens.mpr ⟨rfl, rfl, hlen, _, hwritten, horiginal⟩
      exact Or.inr (run_importBundle_congr hkey hopen hopen' rename s)
    · refine Or.inl fun hcomplete => ?_
      obtain ⟨header₀, config₀, entries₀, -, hopen₀, -⟩ := run_importBundle hkey hcomplete
      obtain ⟨rfl, rfl, -⟩ := hopens.mp hopen₀
      exact hopen' ⟨config₀, hopen₀⟩

/-- A bundle from `run_export`, against an attacker that has seen no other: an import of changed
bytes fails or does what the import of the bundle does, unless the header and the ciphertext are
kept and what follows them reads as another configuration. -/
theorem export_preserved_iff {ns output : String} {s : σ}
    (hempty : E.capture E.empty = []) (hjson : P.PrintsJson)
    (hstrict : ∀ json config, P.configFromJson json = .ok config → (0 : UInt8) ∉ json)
    (hpostcard : ∀ entries payload, P.entriesToBytes entries = .ok payload →
      P.entriesFromBytes payload = .ok entries)
    (hwritten : ⟨.writeFile bundle, .ok ()⟩ ∈ (runExport E P masterKey ns output).trace answer s)
    (hkey : ⟨.exportKey, .ok key⟩ ∈ (runExport E P masterKey ns output).trace answer s)
    (hideal : ∀ ciphertext aad payload, P.aesGcmDecrypt key ciphertext aad = .ok payload ↔
      ⟨.aesGcmEncrypt key payload aad, .ok ciphertext⟩ ∈
        (runExport E P masterKey ns output).trace answer s) :
    ∃ headerJson encrypted configJson, bundle = writeBundle headerJson encrypted configJson ∧
      ∀ bundle', Preserved E P key masterKey bundle bundle' ↔
        ¬ Tampered P headerJson encrypted configJson bundle' := by
  obtain ⟨index, nsRef, entries, payload, key', headerJson, encrypted, configJson, -, -, rfl,
    hexported⟩ := exported_of_trace hwritten
  cases (hexported.derived key).mp hkey
  refine ⟨headerJson, encrypted, configJson, rfl, fun bundle' => ?_⟩
  refine preserved_iff hempty hstrict (hjson.header hexported.headerPrinted)
    (hpostcard _ _ hexported.serialized) fun ciphertext aad plain => ?_
  rw [hideal, hexported.sealed]
  constructor
  · rintro ⟨-, hplain, haad, hciphertext⟩
    exact ⟨hciphertext, haad, hplain⟩
  · rintro ⟨hciphertext, haad, hplain⟩
    exact ⟨rfl, hplain, haad, hciphertext⟩

end

end

namespace Memory

section
variable (E : Storage crates)

/-- A data directory and a file. -/
abbrev Workplace := EngineDir E × Option Bytes

def answerBundle : (op : BundleOp crates) → Workplace E → op.Answer E × Workplace E
  | .engine op, (dir, file) => ((answerEngine E op dir).1, (answerEngine E op dir).2, file)
  | .exportKey, place => (.ok exportKey, place)
  | .aesGcmEncrypt _ payload _, place => (.ok (encrypted payload), place)
  | .readFile, (dir, some bundle) => (.ok bundle, dir, some bundle)
  | .readFile, (dir, none) => (.error "no such file", dir, none)
  | .writeFile bundle, (dir, _) => (.ok (), dir, some bundle)

end

/-- A namespace that keeps one version of its key. -/
def oneVersion (config : NamespaceConfig crates) : Index :=
  [⟨"a", config, 0, [([107], [⟨.active, some [118], (), 0, "memory", none⟩])]⟩]

def aHeader : Bytes := headerOpen ++ utf8 "a" ++ headerClose

def aCodec : BundleCodec crates := codec [0] aHeader

/-- The bundle of `oneVersion` with the section `configJson`. -/
def aBundle (configJson : Bytes) : Bytes :=
  writeBundle aHeader (encrypted [0]) configJson

def exportTrace : List ((op : BundleOp crates) × op.Answer storage) :=
  (runExport storage aCodec oldKey "a" "a.sdb").trace (answerBundle storage)
    (.closed storage oldKey (oneVersion ⟨none, some 1, none⟩), none)

theorem exportTrace_eq : exportTrace =
    [⟨.engine (.openEngine oldKey), .ok (oneVersion ⟨none, some 1, none⟩)⟩,
      ⟨.exportKey, .ok exportKey⟩,
      ⟨.aesGcmEncrypt exportKey [0] aHeader, .ok (encrypted [0])⟩,
      ⟨.writeFile (aBundle (utf8 "\x7b\"max_versions\":1\x7d")), .ok ()⟩,
      ⟨.engine (.shutdownEngine oldKey), .ok ()⟩] := rfl

theorem configFromJson_strict {json : Bytes} {config : NamespaceConfig crates}
    (h : configFromJson json = .ok config) : (0 : UInt8) ∉ json := by
  unfold configFromJson at h
  split_ifs at h with hempty hone
  · rw [hempty]
    decide
  · rw [hone]
    decide

theorem exportedAs_stateOf {version : ExportVersion crates} {state : UInt8}
    (h : stateOf version = some state) : exportedAs state = version := by
  unfold stateOf at h
  split at h <;> cases h <;> rfl

theorem map_exportedAs {versions : List (ExportVersion crates)} {payload : Bytes}
    (h : versions.mapM stateOf = some payload) : payload.map exportedAs = versions := by
  induction versions generalizing payload with
  | nil =>
    cases h
    rfl
  | cons version rest ih =>
    rw [List.mapM_cons] at h
    obtain ⟨state, hstate, h⟩ := Option.bind_eq_some_iff.mp h
    obtain ⟨states, hstates, h⟩ := Option.bind_eq_some_iff.mp h
    cases h
    rw [List.map_cons, exportedAs_stateOf hstate, ih hstates]

theorem entriesFromBytes_print {entries : List (ExportEntry crates)} {payload : Bytes}
    (h : entriesToBytes entries = .ok payload) : entriesFromBytes payload = .ok entries := by
  unfold entriesToBytes at h
  split at h
  · split at h
    · rename_i hversions
      cases h
      rw [entriesFromBytes, map_exportedAs hversions]
    · cases h
  · cases h

/-- The one thing sealed is what decrypts. -/
theorem codec_decrypts {E : Storage crates} {op op' : RekeyOp crates} {a : op.Answer E}
    {a' : op'.Answer E} {bundle payload aad : Bytes} {w : Except String Unit}
    (ciphertext aad' plain : Bytes) :
    (codec payload aad).aesGcmDecrypt exportKey ciphertext aad' = .ok plain ↔
      (⟨.aesGcmEncrypt exportKey plain aad', .ok ciphertext⟩ :
          (op : BundleOp crates) × op.Answer E) ∈
        ([⟨.engine op, a⟩, ⟨.exportKey, .ok exportKey⟩,
          ⟨.aesGcmEncrypt exportKey payload aad, .ok (encrypted payload)⟩,
          ⟨.writeFile bundle, w⟩, ⟨.engine op', a'⟩] :
            List ((op : BundleOp crates) × op.Answer E)) := by
  constructor
  · intro h
    simp only [codec] at h
    split_ifs at h with hsealed
    obtain ⟨-, rfl, rfl⟩ := hsealed
    cases h
    simp
  · intro h
    rcases List.mem_cons.mp h with h | h
    · cases h
    rcases List.mem_cons.mp h with h | h
    · cases h
    rcases List.mem_cons.mp h with h | h
    · cases h
      simp [codec]
    rcases List.mem_cons.mp h with h | h
    · cases h
    rcases List.mem_cons.mp h with h | h
    · cases h
    · cases h

theorem export_preserved_iff_a :
    ∃ headerJson encrypted configJson, aBundle (utf8 "\x7b\"max_versions\":1\x7d") =
        writeBundle headerJson encrypted configJson ∧
      ∀ bundle', Preserved storage aCodec exportKey oldKey
          (aBundle (utf8 "\x7b\"max_versions\":1\x7d")) bundle' ↔
        ¬ Tampered aCodec headerJson encrypted configJson bundle' := by
  have hwritten : ⟨.writeFile (aBundle (utf8 "\x7b\"max_versions\":1\x7d")), .ok ()⟩ ∈
      (runExport storage aCodec oldKey "a" "a.sdb").trace (answerBundle storage)
        (.closed storage oldKey (oneVersion ⟨none, some 1, none⟩), none) := by
    change _ ∈ exportTrace
    rw [exportTrace_eq]
    simp
  refine export_preserved_iff rfl (codec_printsJson _ _) (fun _ _ h => configFromJson_strict h)
    (fun _ _ h => entriesFromBytes_print h) hwritten ?_ fun ciphertext aad payload => ?_
  · change _ ∈ exportTrace
    rw [exportTrace_eq]
    simp
  · change _ ↔ _ ∈ exportTrace
    rw [exportTrace_eq]
    exact codec_decrypts ciphertext aad payload

set_option maxRecDepth 8000 in
/-- With another configuration behind the ciphertext, or with none, the import goes through and
the limit on versions is gone. -/
theorem import_changed_config :
    (importBundle storage aCodec oldKey none (aBundle (utf8 "\x7b\"max_versions\":1\x7d"))).run
        (answerBundle storage) (none, none) =
      (.complete, .closed storage oldKey (oneVersion ⟨none, some 1, none⟩), none) ∧
    (importBundle storage aCodec oldKey none (aBundle (utf8 "\x7b\x7d"))).run
        (answerBundle storage) (none, none) =
      (.complete, .closed storage oldKey (oneVersion ⟨none, none, none⟩), none) ∧
    (importBundle storage aCodec oldKey none
        (protectedPart aHeader (encrypted [0]))).run (answerBundle storage)
        (none, none) =
      (.complete, .closed storage oldKey (oneVersion ⟨none, none, none⟩), none) ∧
    ¬ Preserved storage aCodec exportKey oldKey (aBundle (utf8 "\x7b\"max_versions\":1\x7d"))
      (aBundle (utf8 "\x7b\x7d")) := by
  have horiginal : (importBundle storage aCodec oldKey none
      (aBundle (utf8 "\x7b\"max_versions\":1\x7d"))).run (answerBundle storage) (none, none) =
      (.complete, .closed storage oldKey (oneVersion ⟨none, some 1, none⟩), none) := rfl
  have hchanged : (importBundle storage aCodec oldKey none (aBundle (utf8 "\x7b\x7d"))).run
      (answerBundle storage) (none, none) =
      (.complete, .closed storage oldKey (oneVersion ⟨none, none, none⟩), none) := rfl
  refine ⟨horiginal, hchanged, rfl, fun h => ?_⟩
  rcases h _ (answerBundle storage) (fun s k hk => (Except.ok.inj hk).symm) none (none, none) with
    hfail | hsame
  · rw [hchanged] at hfail
    exact hfail rfl
  · rw [hchanged, horiginal] at hsame
    cases hsame

end Memory

end Shroudb
