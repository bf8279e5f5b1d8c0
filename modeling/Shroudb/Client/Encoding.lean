import Shroudb.Client.Exchange
import Shroudb.Client.RemoteStore

/-! What a `RemoteStore` method sends is parsed as the command it means. -/
namespace Shroudb
open Wire

variable {C : Crates} {α β : Type}

/-- Metadata that the crates' serializers read back as they wrote it. Not every float is, unless
`serde_json` is built with `float_roundtrip`. -/
structure MetadataRoundTrips (m : C.Metadata) : Prop where
  text : C.jsonFromStr (C.jsonToString (C.metadataToJson m)) = .ok (C.metadataToJson m)
  value : C.metadataFromJson (C.metadataToJson m) = .ok m

/-- A schema that they read back as they wrote it. -/
def SchemaRoundTrips (s : C.MetaSchema) : Prop :=
  ∃ json, C.jsonFromStr (C.schemaToString s) = .ok json ∧ C.schemaFromValue json = .ok s

/-- Serializers that read back whatever they wrote. -/
structure RoundTrips (C : Crates) : Prop where
  metadata : ∀ m : C.Metadata, MetadataRoundTrips m
  schema : ∀ s : C.MetaSchema, SchemaRoundTrips s

/-! ## Options -/

/-- A keyword that takes the value `v` and applies `f`. -/
def OptionSpec.Sets : OptionSpec C α → String → (α → α) → Prop
  | .flag .., _, _ => False
  | .value _ _ set, v, f => ∀ o, set v o = .ok (f o)

theorem sets_text {word missing : String} {set : String → Options → Options} (s : String) :
    (textOption word missing set : OptionSpec C Options).Sets s (set s) := fun _ => rfl

theorem sets_number {word missing bad : String} {set : UInt64 → Options → Options} (n : UInt64) :
    (numberOption word missing bad set : OptionSpec C Options).Sets (printUInt64 n) (set n) := by
  intro o
  simp [parseNumber, Except.map]

theorem sets_json {word missing bad : String} {set : Json → Options → Options} {s : String}
    {json : Json} (h : C.jsonFromStr s = .ok json) :
    (jsonOption word missing bad set : OptionSpec C Options).Sets s (set json) := by
  intro o
  simp [parseJson, h, Except.map]

theorem parseOptions_sets {specs : List (OptionSpec C α)} {word v : String} {rest : List String}
    {f : α → α} {o : α} (spec : OptionSpec C α)
    (hfind : specs.find? (fun spec => spec.word == toAsciiUppercase word) = some spec)
    (h : spec.Sets v f) :
    parseOptions specs (word :: v :: rest) o = parseOptions specs rest (f o) := by
  cases spec with
  | flag => exact h.elim
  | value word' missing set => simp only [parseOptions, hfind, h o]

/-- A keyword that is only sent with a value does what the value says, or nothing. -/
theorem parseOptions_optional {specs : List (OptionSpec C α)} {word : String} {rest : List String}
    {texts : Option String} {print : β → String} {f : β → α → α} {o : α} (spec : OptionSpec C α)
    (hfind : specs.find? (fun spec => spec.word == toAsciiUppercase word) = some spec)
    (x : Option β) (h : ∀ b ∈ x, spec.Sets (print b) (f b)) (htexts : texts = x.map print) :
    parseOptions specs (RemoteStore.optionArgs word texts ++ rest) o =
      parseOptions specs rest (x.elim o (f · o)) := by
  subst htexts
  cases x with
  | none => rfl
  | some b => exact parseOptions_sets spec hfind (h b rfl)

theorem scanOptions_optional {specs : List (String × (Option String → α → α))} {word : String}
    {rest : List String} {o : α} (set : Option String → α → α)
    (hfind : specs.lookup (toAsciiUppercase word) = some set) (x : Option String) :
    scanOptions specs (RemoteStore.optionArgs word x ++ rest) o =
      scanOptions specs rest (x.elim o fun v => set (some v) o) := by
  cases x with
  | none => rfl
  | some v =>
    simp only [RemoteStore.optionArgs, List.cons_append, List.nil_append, scanOptions, hfind,
      Option.elim]

/-! ## Commands -/

namespace RemoteStore

theorem parse_put (ns key value : String) (metadata : Option C.Metadata)
    (h : ∀ m ∈ metadata, MetadataRoundTrips m) :
    parseCommand (C := C) (commandFrame (put ns (utf8 key) (utf8 value) metadata).args) =
      .ok (.put ns (utf8 key) (utf8 value) (metadata.map C.metadataToJson) none) := by
  cases metadata with
  | none =>
    simp only [put, fromUtf8Lossy_utf8]
    exact parseCommand_commandFrame parsePut (by decide) rfl
  | some m =>
    simp only [put, fromUtf8Lossy_utf8]
    rw [parseCommand_commandFrame parsePut (by decide) rfl, parsePut,
      parseOptions_sets valueOption rfl (sets_text _),
      parseOptions_sets metaOption rfl (sets_json (h m rfl).text)]
    · rfl
    · simp

theorem parse_get (ns key : String) (version : Option UInt64) :
    parseCommand (C := C) (commandFrame (get (C := C) ns (utf8 key) version).args) =
      .ok (.get ns (utf8 key) version false) := by
  cases version with
  | none =>
    simp only [get, fromUtf8Lossy_utf8]
    exact parseCommand_commandFrame parseGet (by decide) rfl
  | some v =>
    simp only [get, fromUtf8Lossy_utf8]
    rw [parseCommand_commandFrame parseGet (by decide) rfl, parseGet,
      parseOptions_sets versionOption rfl (sets_number v)]
    rfl

theorem parse_delete (ns key : String) :
    parseCommand (C := C) (commandFrame (delete (C := C) ns (utf8 key)).args) =
      .ok (.delete ns (utf8 key)) := by
  simp only [delete, fromUtf8Lossy_utf8]
  exact parseCommand_commandFrame parseDelete (by decide) rfl

theorem parse_putIfVersion (ns key value : String) (metadata : Option C.Metadata)
    (expected : UInt64) (h : ∀ m ∈ metadata, MetadataRoundTrips m) :
    parseCommand (C := C)
        (commandFrame (putIfVersion ns (utf8 key) (utf8 value) metadata expected).args) =
      .ok (.putIf ns (utf8 key) (utf8 value) (metadata.map C.metadataToJson) expected) := by
  cases metadata with
  | none =>
    simp only [putIfVersion, fromUtf8Lossy_utf8, List.append_nil]
    rw [parseCommand_commandFrame parsePutIf (by decide) rfl, parsePutIf,
      parseOptions_sets expectOption rfl (sets_number expected)]
    rfl
  | some m =>
    simp only [putIfVersion, fromUtf8Lossy_utf8, List.cons_append, List.nil_append]
    rw [parseCommand_commandFrame parsePutIf (by decide) rfl, parsePutIf,
      parseOptions_sets expectOption rfl (sets_number expected),
      parseOptions_sets metaOption rfl (sets_json (h m rfl).text)]
    rfl

theorem parse_deleteIfVersion (ns key : String) (expected : UInt64) :
    parseCommand (C := C) (commandFrame (deleteIfVersion (C := C) ns (utf8 key) expected).args) =
      .ok (.delIf ns (utf8 key) expected) := by
  have hword : eqIgnoreAsciiCase "EXPECT" "EXPECT" = true := by decide
  simp only [deleteIfVersion, fromUtf8Lossy_utf8]
  rw [parseCommand_commandFrame parseDelIf (by decide) rfl]
  simp [parseDelIf, parseNumber, hword]

theorem parse_deletePrefix (ns keyPrefix : String) (hne : utf8 keyPrefix ≠ []) :
    parseCommand (C := C) (commandFrame (deletePrefix (C := C) ns (utf8 keyPrefix)).args) =
      .ok (.delPrefix ns (utf8 keyPrefix)) := by
  simp only [deletePrefix, fromUtf8Lossy_utf8]
  rw [parseCommand_commandFrame parseDelPrefix (by decide) rfl]
  simp [parseDelPrefix, hne]

theorem parse_list (ns : String) (keyPrefix cursor : Option String) (limit : UInt64) :
    parseCommand (C := C) (commandFrame (list (C := C) ns (keyPrefix.map utf8) cursor limit).args) =
      .ok (.list ns (keyPrefix.map utf8) cursor (some limit)) := by
  have hprefix : (keyPrefix.map utf8).map fromUtf8Lossy = keyPrefix.map fun s => s := by
    simp [Function.comp_def]
  simp only [list, List.cons_append, List.nil_append, List.append_assoc]
  rw [parseCommand_commandFrame parseList (by decide) rfl, parseList,
    parseOptions_optional prefixOption rfl keyPrefix (fun s _ => sets_text s) hprefix,
    parseOptions_optional cursorOption rfl cursor (fun s _ => sets_text s) (by simp),
    parseOptions_sets limitOption rfl (sets_number limit)]
  cases keyPrefix <;> cases cursor <;> rfl

theorem parse_versions (ns key : String) (limit : UInt64) (fromVersion : Option UInt64) :
    parseCommand (C := C)
        (commandFrame (versions (C := C) ns (utf8 key) limit fromVersion).args) =
      .ok (.versions ns (utf8 key) (some limit) fromVersion) := by
  simp only [versions, fromUtf8Lossy_utf8, List.cons_append, List.nil_append]
  rw [parseCommand_commandFrame parseVersions (by decide) rfl, parseVersions,
    parseOptions_sets limitOption rfl (sets_number limit),
    ← List.append_nil (optionArgs _ _),
    parseOptions_optional fromOption rfl fromVersion (fun n _ => sets_number n) rfl]
  cases fromVersion <;> rfl

/-- The handlers read from the JSON of a schema the configuration that was sent. -/
theorem exists_schema (metaSchema : Option C.MetaSchema)
    (h : ∀ s ∈ metaSchema, SchemaRoundTrips s) :
    ∃ (schema : Option Json) (print : Json → String),
      metaSchema.map C.schemaToString = schema.map print ∧
      (∀ json ∈ schema, C.jsonFromStr (print json) = .ok json) ∧
      ∀ maxVersions retention, Handlers.parseConfig schema maxVersions retention =
        .ok (⟨metaSchema, maxVersions, retention⟩ : NamespaceConfig C) := by
  cases metaSchema with
  | none => exact ⟨none, fun _ => "", rfl, by simp, fun _ _ => rfl⟩
  | some s =>
    obtain ⟨json, htext, hvalue⟩ := h s rfl
    exact ⟨some json, fun _ => C.schemaToString s, rfl, by simpa using htext,
      fun _ _ => by simp [Handlers.parseConfig, hvalue]⟩

theorem parse_namespaceCreate (ns : String) (config : NamespaceConfig C)
    (h : ∀ s ∈ config.metaSchema, SchemaRoundTrips s) :
    ∃ schema, parseCommand (C := C) (commandFrame (namespaceCreate ns config).args) =
        .ok (.namespaceCreate ns schema config.maxVersions config.tombstoneRetentionSecs) ∧
      Handlers.parseConfig schema config.maxVersions config.tombstoneRetentionSecs = .ok config := by
  obtain ⟨metaSchema, maxVersions, retention⟩ := config
  obtain ⟨schema, print, htexts, hjson, hconfig⟩ := exists_schema metaSchema h
  refine ⟨schema, ?_, hconfig maxVersions retention⟩
  have hcreate : parseNamespace (C := C) ∘ ("CREATE" :: ·) = parseNamespaceCreate := rfl
  simp only [namespaceCreate, configArgs, List.cons_append, List.nil_append, List.append_assoc]
  rw [parseCommand_commandFrame parseNamespace (by decide) rfl]
  refine (congrFun hcreate _).trans ?_
  rw [parseNamespaceCreate, ← List.append_nil (optionArgs "SCHEMA" _),
    parseOptions_optional maxVersionsOption rfl maxVersions (fun n _ => sets_number n) rfl,
    parseOptions_optional retentionOption rfl retention (fun n _ => sets_number n) rfl,
    parseOptions_optional schemaOption rfl schema (fun j hj => sets_json (hjson j hj)) htexts]
  cases maxVersions <;> cases retention <;> cases schema <;> rfl

theorem parse_namespaceAlter (ns : String) (config : NamespaceConfig C)
    (h : ∀ s ∈ config.metaSchema, SchemaRoundTrips s) :
    ∃ schema, parseCommand (C := C) (commandFrame (namespaceAlter ns config).args) =
        .ok (.namespaceAlter ns schema config.maxVersions config.tombstoneRetentionSecs) ∧
      Handlers.parseConfig schema config.maxVersions config.tombstoneRetentionSecs = .ok config := by
  obtain ⟨metaSchema, maxVersions, retention⟩ := config
  obtain ⟨schema, print, htexts, hjson, hconfig⟩ := exists_schema metaSchema h
  refine ⟨schema, ?_, hconfig maxVersions retention⟩
  have halter : parseNamespace (C := C) ∘ ("ALTER" :: ·) = parseNamespaceAlter := rfl
  simp only [namespaceAlter, configArgs, List.cons_append, List.nil_append, List.append_assoc]
  rw [parseCommand_commandFrame parseNamespace (by decide) rfl]
  refine (congrFun halter _).trans ?_
  rw [parseNamespaceAlter, ← List.append_nil (optionArgs "SCHEMA" _), htexts,
    scanOptions_optional _ rfl, scanOptions_optional _ rfl, scanOptions_optional _ rfl]
  cases maxVersions <;> cases retention <;> cases schema <;>
    simp_all [scanOptions, Except.toOption]

theorem parse_namespaceDrop (ns : String) (force : Bool) :
    parseCommand (C := C) (commandFrame (namespaceDrop (C := C) ns force).args) =
      .ok (.namespaceDrop ns force) := by
  cases force <;> exact parseCommand_commandFrame parseNamespace (by decide) rfl

theorem parse_namespaceInfo (config : NamespaceConfig C) (ns : String) :
    parseCommand (C := C) (commandFrame (namespaceInfo config ns).args) =
      .ok (.namespaceInfo ns) :=
  parseCommand_commandFrame parseNamespace (by decide) rfl

theorem parse_namespaceList (cursor : Option String) (limit : UInt64) :
    parseCommand (C := C) (commandFrame (namespaceList (C := C) cursor limit).args) =
      .ok (.namespaceList cursor (some limit)) := by
  have hlist : parseNamespace (C := C) ∘ ("LIST" :: ·) = parseNamespaceList := rfl
  have hlimit : ["LIMIT", printUInt64 limit] =
      optionArgs "LIMIT" (some (printUInt64 limit)) ++ [] := rfl
  simp only [namespaceList, List.cons_append, List.nil_append]
  rw [parseCommand_commandFrame parseNamespace (by decide) rfl]
  refine (congrFun hlist _).trans ?_
  rw [parseNamespaceList, hlimit, scanOptions_optional _ rfl, scanOptions_optional _ rfl]
  cases cursor <;> simp [scanOptions, Except.toOption]

end RemoteStore

end Shroudb
