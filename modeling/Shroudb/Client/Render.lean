import Shroudb.MemoryStore
import Shroudb.Client.Encoding
import Shroudb.Protocol.Parsable

/-! Commands written back as request frames, and parsed again. -/
namespace Shroudb
open Wire

variable {C : Crates}

/-! ## Rendering -/

/-- A keyword and its value, when there is one. -/
def optionWords (word : String) : Option Bytes → List Bytes
  | some v => [utf8 word, v]
  | none => []

def numberWords (word : String) (n : Option UInt64) : List Bytes :=
  optionWords word (n.map fun n => utf8 (printUInt64 n))

def jsonWords (C : Crates) (word : String) (json : Option Json) : List Bytes :=
  optionWords word (json.map fun json => utf8 (C.jsonToString json))

def textWords (word : String) (s : Option String) : List Bytes := optionWords word (s.map utf8)

/-- The words of a command: its verb, its operands, and every option that is set, once, under its
keyword. PUT names its value. -/
def Command.words (C : Crates) : Command → List Bytes
  | .auth token => [utf8 "AUTH", utf8 token]
  | .ping => [utf8 "PING"]
  | .put ns key value metadata ttlMs =>
    [utf8 "PUT", utf8 ns, key, utf8 "VALUE", value] ++ jsonWords C "META" metadata ++
      numberWords "TTL" ttlMs
  | .get ns key version withMeta =>
    [utf8 "GET", utf8 ns, key] ++ numberWords "VERSION" version ++
      if withMeta then [utf8 "META"] else []
  | .delete ns key => [utf8 "DELETE", utf8 ns, key]
  | .putIf ns key value metadata expected =>
    [utf8 "PUTIF", utf8 ns, key, value, utf8 "EXPECT", utf8 (printUInt64 expected)] ++
      jsonWords C "META" metadata
  | .delIf ns key expected =>
    [utf8 "DELIF", utf8 ns, key, utf8 "EXPECT", utf8 (printUInt64 expected)]
  | .delPrefix ns keyPrefix => [utf8 "DELPREFIX", utf8 ns, keyPrefix]
  | .list ns keyPrefix cursor limit =>
    [utf8 "LIST", utf8 ns] ++ optionWords "PREFIX" keyPrefix ++ textWords "CURSOR" cursor ++
      numberWords "LIMIT" limit
  | .versions ns key limit fromVersion =>
    [utf8 "VERSIONS", utf8 ns, key] ++ numberWords "LIMIT" limit ++ numberWords "FROM" fromVersion
  | .namespaceCreate name schema maxVersions retention =>
    [utf8 "NAMESPACE", utf8 "CREATE", utf8 name] ++ jsonWords C "SCHEMA" schema ++
      numberWords "MAX_VERSIONS" maxVersions ++ numberWords "TOMBSTONE_RETENTION" retention
  | .namespaceDrop name force =>
    [utf8 "NAMESPACE", utf8 "DROP", utf8 name] ++ if force then [utf8 "FORCE"] else []
  | .namespaceList cursor limit =>
    [utf8 "NAMESPACE", utf8 "LIST"] ++ textWords "CURSOR" cursor ++ numberWords "LIMIT" limit
  | .namespaceInfo name => [utf8 "NAMESPACE", utf8 "INFO", utf8 name]
  | .namespaceAlter name schema maxVersions retention =>
    [utf8 "NAMESPACE", utf8 "ALTER", utf8 name] ++ jsonWords C "SCHEMA" schema ++
      numberWords "MAX_VERSIONS" maxVersions ++ numberWords "TOMBSTONE_RETENTION" retention
  | .namespaceValidate name => [utf8 "NAMESPACE", utf8 "VALIDATE", utf8 name]
  | .pipeline _ requestId => utf8 "PIPELINE" :: textWords "REQUEST_ID" requestId
  | .subscribe ns key events =>
    [utf8 "SUBSCRIBE", utf8 ns] ++ optionWords "KEY" key ++
      if events = [] then [] else utf8 "EVENTS" :: events.map utf8
  | .unsubscribe => [utf8 "UNSUBSCRIBE"]
  | .health => [utf8 "HEALTH"]
  | .configGet key => [utf8 "CONFIG", utf8 "GET", utf8 key]
  | .configSet key value => [utf8 "CONFIG", utf8 "SET", utf8 key, utf8 value]
  | .commandList => [utf8 "COMMAND", utf8 "LIST"]
  | .rekey newKeyHex => [utf8 "REKEY", utf8 newKeyHex]
  | .rekeyStatus => [utf8 "REKEY", utf8 "STATUS"]

mutual
/-- The frame of a command: its words as bulk strings, and a pipeline's commands as arrays. -/
def Command.render (C : Crates) : Command → Resp3Frame
  | .pipeline commands requestId =>
    .array (((Command.pipeline commands requestId).words C).map .bulkString ++
      Command.renderAll C commands)
  | cmd => .array ((cmd.words C).map .bulkString)
def Command.renderAll (C : Crates) : List Command → List Resp3Frame
  | [] => []
  | c :: cs => c.render C :: Command.renderAll C cs
end

/-! ## Parsing what was rendered -/

theorem optionWords_utf8 (word : String) (s : Option String) :
    optionWords word (s.map utf8) = (RemoteStore.optionArgs word s).map utf8 := by
  cases s <;> rfl

theorem numberWords_eq (word : String) (n : Option UInt64) :
    numberWords word n = (RemoteStore.optionArgs word (n.map printUInt64)).map utf8 := by
  cases n <;> rfl

theorem jsonWords_eq (word : String) (json : Option Json) :
    jsonWords C word json = (RemoteStore.optionArgs word (json.map C.jsonToString)).map utf8 := by
  cases json <;> rfl

/-- Words that are strings are parsed as a command of those strings. -/
theorem parse_words {c : Command} (parse : List String → Except (CommandError C) Command)
    (word : String) (args : List String) (hwords : c.words C = (word :: args).map utf8)
    (hword : eqIgnoreAsciiCase word "PIPELINE" = false) (hparse : parseStrings word = parse) :
    parseCommand (C := C) (.array ((c.words C).map .bulkString)) = parse args := by
  rw [← parseCommand_commandFrame parse hword hparse, hwords, commandFrame, List.map_map]
  rfl

/-- The command is parsed back from its words. -/
def ParsesBack (C : Crates) (c : Command) : Prop :=
  parseCommand (C := C) (.array ((c.words C).map .bulkString)) = .ok c

open RemoteStore (optionArgs)

/-- Printing a value that was parsed, and parsing it again, gives it back. -/
def JsonReprints (C : Crates) : Prop :=
  ∀ json, JsonParsed C json → C.jsonFromStr (C.jsonToString json) = .ok json

section
variable {json : Option Json} (hjson : JsonReprints C) (h : ∀ j ∈ json, JsonParsed C j)
include hjson h

theorem put_parsesBack (ns key value : String) (ttlMs : Option UInt64) :
    ParsesBack C (.put ns (utf8 key) (utf8 value) json ttlMs) := by
  rw [ParsesBack, parse_words parsePut "PUT" (ns :: key :: "VALUE" :: value ::
      (optionArgs "META" (json.map C.jsonToString) ++
        (optionArgs "TTL" (ttlMs.map printUInt64) ++ [])))
      (by simp [Command.words, jsonWords_eq, numberWords_eq]) (by decide) rfl, parsePut,
    parseOptions_sets valueOption rfl (sets_text value),
    parseOptions_optional metaOption rfl json (fun j hj => sets_json (hjson j (h j hj))) rfl,
    parseOptions_optional ttlOption rfl ttlMs (fun n _ => sets_number n) rfl]
  · cases json <;> cases ttlMs <;> rfl
  · simp

theorem putIf_parsesBack (ns key value : String) (expected : UInt64) :
    ParsesBack C (.putIf ns (utf8 key) (utf8 value) json expected) := by
  rw [ParsesBack, parse_words parsePutIf "PUTIF" (ns :: key :: value :: "EXPECT" ::
      printUInt64 expected :: (optionArgs "META" (json.map C.jsonToString) ++ []))
      (by simp [Command.words, jsonWords_eq]) (by decide) rfl, parsePutIf,
    parseOptions_sets expectOption rfl (sets_number expected),
    parseOptions_optional metaOption rfl json (fun j hj => sets_json (hjson j (h j hj))) rfl]
  cases json <;> rfl

theorem namespaceCreate_parsesBack (name : String)
    (maxVersions retention : Option UInt64) :
    ParsesBack C (.namespaceCreate name json maxVersions retention) := by
  have hcreate : parseNamespace (C := C) ∘ ("CREATE" :: ·) = parseNamespaceCreate := rfl
  rw [ParsesBack, parse_words parseNamespace "NAMESPACE" ("CREATE" :: name ::
      (optionArgs "SCHEMA" (json.map C.jsonToString) ++
        (optionArgs "MAX_VERSIONS" (maxVersions.map printUInt64) ++
          (optionArgs "TOMBSTONE_RETENTION" (retention.map printUInt64) ++ []))))
      (by simp [Command.words, jsonWords_eq, numberWords_eq]) (by decide) rfl]
  refine (congrFun hcreate _).trans ?_
  rw [parseNamespaceCreate,
    parseOptions_optional schemaOption rfl json (fun j hj => sets_json (hjson j (h j hj))) rfl,
    parseOptions_optional maxVersionsOption rfl maxVersions (fun n _ => sets_number n) rfl,
    parseOptions_optional retentionOption rfl retention (fun n _ => sets_number n) rfl]
  cases json <;> cases maxVersions <;> cases retention <;> rfl

theorem namespaceAlter_parsesBack (name : String)
    (maxVersions retention : Option UInt64) :
    ParsesBack C (.namespaceAlter name json maxVersions retention) := by
  have halter : parseNamespace (C := C) ∘ ("ALTER" :: ·) = parseNamespaceAlter := rfl
  rw [ParsesBack, parse_words parseNamespace "NAMESPACE" ("ALTER" :: name ::
      (optionArgs "SCHEMA" (json.map C.jsonToString) ++
        (optionArgs "MAX_VERSIONS" (maxVersions.map printUInt64) ++
          (optionArgs "TOMBSTONE_RETENTION" (retention.map printUInt64) ++ []))))
      (by simp [Command.words, jsonWords_eq, numberWords_eq]) (by decide) rfl]
  refine (congrFun halter _).trans ?_
  rw [parseNamespaceAlter, scanOptions_optional _ rfl, scanOptions_optional _ rfl,
    scanOptions_optional _ rfl]
  have hparsed : (json.map C.jsonToString).bind (fun s => (C.jsonFromStr s).toOption) = json := by
    cases json with
    | none => rfl
    | some j => simp [hjson j (h j rfl), Except.toOption]
  cases json <;> cases maxVersions <;> cases retention <;>
    simp_all [scanOptions, Except.toOption]

end

theorem get_parsesBack (ns key : String) (version : Option UInt64) (withMeta : Bool) :
    ParsesBack C (.get ns (utf8 key) version withMeta) := by
  rw [ParsesBack, parse_words parseGet "GET" (ns :: key ::
      (optionArgs "VERSION" (version.map printUInt64) ++ if withMeta then ["META"] else []))
      (by cases withMeta <;> simp [Command.words, numberWords_eq]) (by decide) rfl, parseGet,
    parseOptions_optional versionOption rfl version (fun n _ => sets_number n) rfl]
  cases version <;> cases withMeta <;> rfl

theorem delIf_parsesBack (ns key : String) (expected : UInt64) :
    ParsesBack C (.delIf ns (utf8 key) expected) := by
  have hword : eqIgnoreAsciiCase "EXPECT" "EXPECT" = true := by decide
  rw [ParsesBack, parse_words parseDelIf "DELIF" [ns, key, "EXPECT", printUInt64 expected]
    (by simp [Command.words]) (by decide) rfl]
  simp [parseDelIf, parseNumber, hword]

theorem list_parsesBack (ns : String) (keyPrefix cursor : Option String) (limit : Option UInt64) :
    ParsesBack C (.list ns (keyPrefix.map utf8) cursor limit) := by
  rw [ParsesBack, parse_words parseList "LIST" (ns ::
      (optionArgs "PREFIX" (keyPrefix.map fun s => s) ++
        (optionArgs "CURSOR" (cursor.map fun s => s) ++
          (optionArgs "LIMIT" (limit.map printUInt64) ++ []))))
      (by simp [Command.words, optionWords_utf8, textWords, numberWords_eq]) (by decide) rfl,
    parseList, parseOptions_optional prefixOption rfl keyPrefix (fun s _ => sets_text s) rfl,
    parseOptions_optional cursorOption rfl cursor (fun s _ => sets_text s) rfl,
    parseOptions_optional limitOption rfl limit (fun n _ => sets_number n) rfl]
  cases keyPrefix <;> cases cursor <;> cases limit <;> rfl

theorem versions_parsesBack (ns key : String) (limit fromVersion : Option UInt64) :
    ParsesBack C (.versions ns (utf8 key) limit fromVersion) := by
  rw [ParsesBack, parse_words parseVersions "VERSIONS" (ns :: key ::
      (optionArgs "LIMIT" (limit.map printUInt64) ++
        (optionArgs "FROM" (fromVersion.map printUInt64) ++ [])))
      (by simp [Command.words, numberWords_eq]) (by decide) rfl, parseVersions,
    parseOptions_optional limitOption rfl limit (fun n _ => sets_number n) rfl,
    parseOptions_optional fromOption rfl fromVersion (fun n _ => sets_number n) rfl]
  cases limit <;> cases fromVersion <;> rfl

theorem namespaceList_parsesBack (cursor : Option String) (limit : Option UInt64) :
    ParsesBack C (.namespaceList cursor limit) := by
  have hlist : parseNamespace (C := C) ∘ ("LIST" :: ·) = parseNamespaceList := rfl
  rw [ParsesBack, parse_words parseNamespace "NAMESPACE" ("LIST" ::
      (optionArgs "CURSOR" cursor ++ (optionArgs "LIMIT" (limit.map printUInt64) ++ [])))
      (by simp [Command.words, textWords, optionWords_utf8, numberWords_eq]) (by decide) rfl]
  refine (congrFun hlist _).trans ?_
  rw [parseNamespaceList, scanOptions_optional _ rfl, scanOptions_optional _ rfl]
  cases cursor <;> cases limit <;> simp [scanOptions, Except.toOption]

theorem scanSubscribe_other {collecting : Bool} {arg : String} {rest events : List String}
    {key : Option Bytes} (h : toAsciiUppercase arg ≠ "KEY") :
    scanSubscribe collecting (arg :: rest) (key, events) =
      if collecting then scanSubscribe true rest (key, events ++ [toAsciiUppercase arg])
      else scanSubscribe (toAsciiUppercase arg = "EVENTS") rest (key, events) := by
  rw [scanSubscribe.eq_def]
  simp only [if_neg h]

theorem scanSubscribe_events {events : List String} (key : Option Bytes) (before : List String)
    (h : ∀ e ∈ events, toAsciiUppercase e = e ∧ e ≠ "KEY") :
    scanSubscribe true events (key, before) = (key, before ++ events) := by
  induction events generalizing before with
  | nil => simp [scanSubscribe]
  | cons e events ih =>
    obtain ⟨hupper, hkey⟩ := h e List.mem_cons_self
    rw [scanSubscribe_other (by rw [hupper]; exact hkey), if_pos rfl, hupper,
      ih _ fun e' he' => h e' (List.mem_cons_of_mem _ he')]
    simp

theorem subscribe_parsesBack (ns : String) (key : Option String) {events : List String}
    (h : ∀ e ∈ events, toAsciiUppercase e = e ∧ e ≠ "KEY") :
    ParsesBack C (.subscribe ns (key.map utf8) events) := by
  have hwords : (Command.subscribe ns (key.map utf8) events).words C = ("SUBSCRIBE" :: ns ::
      (optionArgs "KEY" key ++ if events = [] then [] else "EVENTS" :: events)).map utf8 := by
    by_cases hnil : events = [] <;> simp [Command.words, optionWords_utf8, hnil]
  have hevents : ∀ found : Option Bytes, scanSubscribe false
      (if events = [] then [] else "EVENTS" :: events) (found, []) = (found, events) := by
    intro found
    by_cases hnil : events = []
    · simp [hnil, scanSubscribe]
    · rw [if_neg hnil, scanSubscribe_other (by decide), if_neg (by decide)]
      exact scanSubscribe_events found [] h
  rw [ParsesBack, parse_words parseSubscribe "SUBSCRIBE" _ hwords (by decide) rfl]
  cases key with
  | none =>
    simp only [optionArgs, List.nil_append, parseSubscribe, hevents]
    rfl
  | some k =>
    have hkey : ∀ rest, scanSubscribe false ("KEY" :: k :: rest) (none, []) =
        scanSubscribe false rest (some (utf8 k), []) := by
      intro rest
      rw [scanSubscribe, if_pos (by decide)]
    simp only [optionArgs, List.cons_append, List.nil_append, parseSubscribe, hkey, hevents]
    rfl

theorem rekey_parsesBack {hex : String} (h : (Command.rekey hex).WellFormed C) :
    ParsesBack C (.rekey hex) := by
  obtain ⟨hstatus, hlen, hhex⟩ := h
  rw [ParsesBack, parse_words parseRekey "REKEY" [hex] rfl (by decide) rfl]
  simp [parseRekey, hstatus, hlen, hhex]

theorem delPrefix_parsesBack (ns keyPrefix : String) (h : utf8 keyPrefix ≠ []) :
    ParsesBack C (.delPrefix ns (utf8 keyPrefix)) := by
  rw [ParsesBack, parse_words parseDelPrefix "DELPREFIX" [ns, keyPrefix] rfl (by decide) rfl]
  simp [parseDelPrefix, h]

theorem exists_map_utf8 {b : Option Bytes} (h : ∀ x ∈ b, Textual x) :
    ∃ s : Option String, b = s.map utf8 := by
  cases b with
  | none => exact ⟨none, rfl⟩
  | some x =>
    obtain ⟨s, rfl⟩ := h x rfl
    exact ⟨some s, rfl⟩

theorem Command.WellFormed.parsesBack (hjson : JsonReprints C) {c : Command}
    (h : c.WellFormed C) : ParsesBack C c := by
  cases c with
  | auth token => exact parse_words parseAuth "AUTH" [token] rfl (by decide) rfl
  | ping => exact parse_words (fun _ => .ok .ping) "PING" [] rfl (by decide) rfl
  | put ns key value metadata ttlMs =>
    obtain ⟨⟨key, rfl⟩, ⟨value, rfl⟩, hmeta⟩ := h
    exact put_parsesBack hjson hmeta ns key value ttlMs
  | get ns key version withMeta =>
    obtain ⟨key, rfl⟩ := h
    exact get_parsesBack ns key version withMeta
  | delete ns key =>
    obtain ⟨key, rfl⟩ := h
    exact parse_words parseDelete "DELETE" [ns, key] rfl (by decide) rfl
  | putIf ns key value metadata expected =>
    obtain ⟨⟨key, rfl⟩, ⟨value, rfl⟩, hmeta⟩ := h
    exact putIf_parsesBack hjson hmeta ns key value expected
  | delIf ns key expected =>
    obtain ⟨key, rfl⟩ := h
    exact delIf_parsesBack ns key expected
  | delPrefix ns keyPrefix =>
    obtain ⟨⟨keyPrefix, rfl⟩, hne⟩ := h
    exact delPrefix_parsesBack ns keyPrefix hne
  | list ns keyPrefix cursor limit =>
    obtain ⟨keyPrefix, rfl⟩ := exists_map_utf8 h
    exact list_parsesBack ns keyPrefix cursor limit
  | versions ns key limit fromVersion =>
    obtain ⟨key, rfl⟩ := h
    exact versions_parsesBack ns key limit fromVersion
  | namespaceCreate name schema maxVersions retention =>
    exact namespaceCreate_parsesBack hjson h name maxVersions retention
  | namespaceDrop name force =>
    cases force with
    | false => exact parse_words parseNamespace "NAMESPACE" ["DROP", name] rfl (by decide) rfl
    | true =>
      exact parse_words parseNamespace "NAMESPACE" ["DROP", name, "FORCE"] rfl (by decide) rfl
  | namespaceList cursor limit => exact namespaceList_parsesBack cursor limit
  | namespaceInfo name =>
    exact parse_words parseNamespace "NAMESPACE" ["INFO", name] rfl (by decide) rfl
  | namespaceAlter name schema maxVersions retention =>
    exact namespaceAlter_parsesBack hjson h name maxVersions retention
  | namespaceValidate name =>
    exact parse_words parseNamespace "NAMESPACE" ["VALIDATE", name] rfl (by decide) rfl
  | pipeline cs id => exact h.elim
  | subscribe ns key events =>
    obtain ⟨key, rfl⟩ := exists_map_utf8 h.1
    exact subscribe_parsesBack ns key h.2
  | unsubscribe => exact parse_words (fun _ => .ok .unsubscribe) "UNSUBSCRIBE" [] rfl (by decide) rfl
  | health => exact parse_words (fun _ => .ok .health) "HEALTH" [] rfl (by decide) rfl
  | configGet key => exact parse_words parseConfig "CONFIG" ["GET", key] rfl (by decide) rfl
  | configSet key value =>
    exact parse_words parseConfig "CONFIG" ["SET", key, value] rfl (by decide) rfl
  | commandList => exact parse_words parseCommandSub "COMMAND" ["LIST"] rfl (by decide) rfl
  | rekey hex => exact rekey_parsesBack h
  | rekeyStatus => exact parse_words parseRekey "REKEY" ["STATUS"] rfl (by decide) rfl

/-! ## Pipelines -/

theorem render_array (c : Command) : ∃ fs, c.render C = .array fs := by
  cases c <;> exact ⟨_, rfl⟩

theorem renderAll_eq (cs : List Command) :
    Command.renderAll C cs = cs.map (Command.render C) := by
  induction cs with
  | nil => rfl
  | cons c cs ih => simp [Command.renderAll, ih]

theorem parseCommands_eq (fs : List Resp3Frame) :
    parseCommands (C := C) fs = fs.map parseCommand := by
  induction fs with
  | nil => rfl
  | cons f fs ih => simp [parseCommands, ih]

theorem collectCommands_map_ok (i : Nat) (cs : List Command) :
    collectCommands (C := C) i (cs.map .ok) = .ok cs := by
  induction cs generalizing i with
  | nil => rfl
  | cons c cs ih => simp [collectCommands, ih, Except.map]

theorem pipelineKeywords_render {cs : List Command} (hne : cs ≠ []) (id found : Option String) :
    pipelineKeywords (C := C)
        ((textWords "REQUEST_ID" id).map .bulkString ++ cs.map (Command.render C)) found =
      .ok (id.or found, (textWords "REQUEST_ID" id).length) := by
  obtain ⟨c, cs, rfl⟩ := List.exists_cons_of_ne_nil hne
  obtain ⟨fs, hfs⟩ := render_array (C := C) c
  have harrays : ∀ found, pipelineKeywords (C := C) ((c :: cs).map (Command.render C)) found =
      .ok (found, 0) := by
    intro found
    rw [List.map_cons, hfs, pipelineKeywords]
  cases id with
  | none => simpa [textWords, optionWords] using harrays found
  | some id =>
    have hword : eqIgnoreAsciiCase "REQUEST_ID" "REQUEST_ID" = true := by decide
    simp only [textWords, optionWords, Option.map_some, List.map_cons, List.map_nil,
      List.cons_append, List.nil_append]
    rw [pipelineKeywords.eq_def]
    simp only [frameToString, fromUtf8?_utf8, hword, if_true, ← List.map_cons, harrays, Except.map]
    rfl

/-- A pipeline parses back when its sub-commands do. -/
theorem parse_render_pipeline {cs : List Command} (hne : cs ≠ []) (id : Option String)
    (h : ∀ c ∈ cs, parseCommand (C := C) (c.render C) = .ok c) :
    parseCommand (C := C) (Command.render C (.pipeline cs id)) = .ok (.pipeline cs id) := by
  have hword : eqIgnoreAsciiCase "PIPELINE" "PIPELINE" = true := by decide
  have hparsed : (parseCommands (C := C) ((textWords "REQUEST_ID" id).map .bulkString ++
      cs.map (Command.render C))).drop (textWords "REQUEST_ID" id).length = cs.map .ok := by
    rw [parseCommands_eq, List.map_append, List.drop_left' (by simp), List.map_map]
    exact List.map_congr_left h
  rw [Command.render, Command.words, renderAll_eq, List.map_cons, List.cons_append, parseCommand]
  simp only [frameToString, fromUtf8?_utf8, hword, if_true, parsePipelineFrame,
    pipelineKeywords_render hne, hparsed, collectCommands_map_ok]
  cases cs with
  | nil => exact absurd rfl hne
  | cons c cs => simp

/-- Rendering then parsing is the identity on what the parser yields. -/
theorem Command.Parsable.parse_render (hjson : JsonReprints C) {c : Command}
    (h : c.Parsable C) : parseCommand (C := C) (c.render C) = .ok c := by
  induction h with
  | @leaf c h =>
    have hrender : c.render C = .array ((c.words C).map .bulkString) := by
      cases c <;> first | rfl | exact h.elim
    rw [hrender]
    exact h.parsesBack hjson
  | @pipeline cs id hne _ ih => exact parse_render_pipeline hne id ih

/-- Every command the parser accepts has a canonical frame that means the same. -/
theorem parse_render_parse (hjson : JsonReprints C) {f : Resp3Frame} {c : Command}
    (h : parseCommand (C := C) f = .ok c) :
    parseCommand (C := C) (c.render C) = .ok c :=
  (parseCommand_parsable h).parse_render hjson

namespace Memory

theorem jsonReprints : JsonReprints crates := by
  rintro json ⟨text, htext⟩
  change (if text = "null" then _ else _) = _ at htext
  split_ifs at htext
  exact htext

/-- Lower-case words and a value without its keyword, inside a pipeline inside a pipeline. -/
def looseRequest : Resp3Frame :=
  let put : Resp3Frame := .array (["put", "a", "k", "v"].map fun w => .bulkString (utf8 w))
  let create : Resp3Frame :=
    .array (["namespace", "create", "a", "schema", "null"].map fun w => .bulkString (utf8 w))
  let inner : Resp3Frame := .array [.simpleString "pipeline", .bulkString (utf8 "request_id"),
    .bulkString (utf8 "r"), put, create]
  .array [.bulkString (utf8 "Pipeline"), inner, put]

def looseCommand : Command :=
  let put : Command := .put "a" (utf8 "k") (utf8 "v") none none
  .pipeline [.pipeline [put, .namespaceCreate "a" (some .null) none none] (some "r"), put] none

theorem looseRequest_renders :
    parseCommand (C := crates) looseRequest = .ok looseCommand ∧
      parseCommand (C := crates) (looseCommand.render crates) = .ok looseCommand := by
  have hparse : parseCommand (C := crates) looseRequest = .ok looseCommand := by rfl
  exact ⟨hparse, parse_render_parse jsonReprints hparse⟩

end Memory

end Shroudb
