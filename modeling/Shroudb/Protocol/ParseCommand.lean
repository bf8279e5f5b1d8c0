import Shroudb.Protocol.Command
import Shroudb.Protocol.Response

/-! `parse_command`: from request frames to commands. -/
namespace Shroudb
open Wire

def toAsciiUppercase (s : String) : String := String.ofList (s.toList.map Char.toUpper)

def toAsciiLowercase (s : String) : String := String.ofList (s.toList.map Char.toLower)

def eqIgnoreAsciiCase (s t : String) : Bool := toAsciiLowercase s == toAsciiLowercase t

section
variable {C : Crates}

def frameToString : Resp3Frame → Except (CommandError C) String
  | .bulkString b =>
    match fromUtf8? b with
    | some s => .ok s
    | none => .error (.badArg "invalid UTF-8 in argument" "")
  | .simpleString s => .ok s
  | .integer i => .ok (printInt64 i)
  | _ => .error (.badArg "expected string or bulk string argument" "")

/-- The error of `require_args` when there are fewer than `min` arguments. -/
def requireArgs {α : Type} (min : Nat) (cmd : String) : Except (CommandError C) α :=
  .error (.badArg (cmd ++ " requires at least " ++ min.repr ++ " argument(s)") "")

/-! ## Option loops -/

/-- A keyword of a strict option loop, setting a field of the options `α`. -/
inductive OptionSpec (C : Crates) (α : Type) where
  | flag (word : String) (set : α → α)
  | value (word missing : String) (set : String → α → Except (CommandError C) α)

def OptionSpec.word {α : Type} : OptionSpec C α → String
  | .flag word _ => word
  | .value word _ _ => word

/-- The loop of GET, PUT, PUTIF, LIST, VERSIONS and NAMESPACE CREATE: every argument is a keyword
of the table, and a keyword with a value takes the argument after it. -/
def parseOptions {α : Type} (specs : List (OptionSpec C α)) :
    List String → α → Except (CommandError C) α
  | [], options => .ok options
  | arg :: rest, options =>
    match specs.find? fun spec => spec.word == toAsciiUppercase arg with
    | none => .error (.badArg "unexpected argument: " arg)
    | some (.flag _ set) => parseOptions specs rest (set options)
    | some (.value _ missing set) =>
      match rest with
      | [] => .error (.badArg missing "")
      | v :: rest =>
        match set v options with
        | .ok options => parseOptions specs rest options
        | .error e => .error e

/-- The loop of NAMESPACE LIST and NAMESPACE ALTER: other arguments are skipped, and a keyword
at the end sets its field from nothing. -/
def scanOptions {α : Type} (specs : List (String × (Option String → α → α))) :
    List String → α → α
  | [], options => options
  | arg :: rest, options =>
    match specs.lookup (toAsciiUppercase arg) with
    | none => scanOptions specs rest options
    | some set =>
      match rest with
      | [] => set none options
      | v :: rest => scanOptions specs rest (set (some v) options)

/-- A `u64` or `usize` argument. -/
def parseNumber (message : String) (s : String) : Except (CommandError C) UInt64 :=
  match parseUInt64 s with
  | .ok n => .ok n
  | .error _ => .error (.badArg message "")

/-- A JSON argument. The parser's own complaint is quoted. -/
def parseJson (message : String) (s : String) : Except (CommandError C) Json :=
  match C.jsonFromStr s with
  | .ok json => .ok json
  | .error e => .error (.badArg message e)

/-- The local variables of the option loops. -/
structure Options where
  value : Bytes := []
  metadata : Option Json := none
  ttlMs : Option UInt64 := none
  version : Option UInt64 := none
  withMeta : Bool := false
  expectedVersion : Option UInt64 := none
  keyPrefix : Option Bytes := none
  cursor : Option String := none
  limit : Option UInt64 := none
  fromVersion : Option UInt64 := none
  schema : Option Json := none
  maxVersions : Option UInt64 := none
  tombstoneRetentionSecs : Option UInt64 := none

/-- A keyword whose value is a number, with the messages for no value and for a bad one. -/
def numberOption (word missing bad : String) (set : UInt64 → Options → Options) :
    OptionSpec C Options :=
  .value word missing fun s options => (parseNumber bad s).map (set · options)

def jsonOption (word missing bad : String) (set : Json → Options → Options) :
    OptionSpec C Options :=
  .value word missing fun s options => (parseJson bad s).map (set · options)

def textOption (word missing : String) (set : String → Options → Options) :
    OptionSpec C Options :=
  .value word missing fun s options => .ok (set s options)

def valueOption : OptionSpec C Options :=
  textOption "VALUE" "VALUE requires a value" fun s o => { o with value := utf8 s }

def metaOption : OptionSpec C Options :=
  jsonOption "META" "META requires a JSON value" "invalid META JSON: "
    fun json o => { o with metadata := some json }

def ttlOption : OptionSpec C Options :=
  numberOption "TTL" "TTL requires a duration in milliseconds"
    "TTL must be a non-negative integer (milliseconds)" fun n o => { o with ttlMs := some n }

def versionOption : OptionSpec C Options :=
  numberOption "VERSION" "VERSION requires a number" "VERSION must be a positive integer"
    fun n o => { o with version := some n }

def expectOption : OptionSpec C Options :=
  numberOption "EXPECT" "EXPECT requires a version" "EXPECT must be a non-negative integer"
    fun n o => { o with expectedVersion := some n }

def prefixOption : OptionSpec C Options :=
  textOption "PREFIX" "PREFIX requires a value" fun s o => { o with keyPrefix := some (utf8 s) }

def cursorOption : OptionSpec C Options :=
  textOption "CURSOR" "CURSOR requires a value" fun s o => { o with cursor := some s }

def limitOption : OptionSpec C Options :=
  numberOption "LIMIT" "LIMIT requires a number" "LIMIT must be a positive integer"
    fun n o => { o with limit := some n }

def fromOption : OptionSpec C Options :=
  numberOption "FROM" "FROM requires a version number" "FROM must be a positive integer"
    fun n o => { o with fromVersion := some n }

def schemaOption : OptionSpec C Options :=
  jsonOption "SCHEMA" "SCHEMA requires a JSON value" "invalid SCHEMA JSON: "
    fun json o => { o with schema := some json }

def maxVersionsOption : OptionSpec C Options :=
  numberOption "MAX_VERSIONS" "MAX_VERSIONS requires a number"
    "MAX_VERSIONS must be a positive integer" fun n o => { o with maxVersions := some n }

def retentionOption : OptionSpec C Options :=
  numberOption "TOMBSTONE_RETENTION" "TOMBSTONE_RETENTION requires a number (seconds)"
    "TOMBSTONE_RETENTION must be a positive integer"
    fun n o => { o with tombstoneRetentionSecs := some n }

/-! ## Sub-parsers -/

def parseAuth : List String → Except (CommandError C) Command
  | token :: _ => .ok (.auth token)
  | _ => requireArgs 1 "AUTH"

/-- With exactly three arguments the third is the value, whatever it is. -/
def parsePut : List String → Except (CommandError C) Command
  | [ns, key, value] => .ok (.put ns (utf8 key) (utf8 value) none none)
  | ns :: key :: rest =>
    (parseOptions [valueOption, metaOption, ttlOption] rest {}).map fun o =>
      .put ns (utf8 key) o.value o.metadata o.ttlMs
  | _ => requireArgs 2 "PUT"

def parseGet : List String → Except (CommandError C) Command
  | ns :: key :: rest =>
    (parseOptions [versionOption, .flag "META" fun o => { o with withMeta := true }] rest {}).map
      fun o => .get ns (utf8 key) o.version o.withMeta
  | _ => requireArgs 2 "GET"

def parseDelete : List String → Except (CommandError C) Command
  | ns :: key :: _ => .ok (.delete ns (utf8 key))
  | _ => requireArgs 2 "DELETE"

def parsePutIf : List String → Except (CommandError C) Command
  | ns :: key :: value :: word :: arg :: rest =>
    match parseOptions [expectOption, metaOption] (word :: arg :: rest) {} with
    | .error e => .error e
    | .ok o =>
      match o.expectedVersion with
      | some expected => .ok (.putIf ns (utf8 key) (utf8 value) o.metadata expected)
      | none => .error (.badArg "PUTIF requires EXPECT <version>" "")
  | _ => requireArgs 5 "PUTIF"

def parseDelPrefix : List String → Except (CommandError C) Command
  | ns :: keyPrefix :: rest =>
    if utf8 keyPrefix = [] then
      .error (.badArg
        "DELPREFIX: empty prefix not allowed; use NAMESPACE DROP for full-namespace teardown" "")
    else
      match rest with
      | [] => .ok (.delPrefix ns (utf8 keyPrefix))
      | extra :: _ => .error (.badArg "unexpected argument: " extra)
  | _ => requireArgs 2 "DELPREFIX"

def parseDelIf : List String → Except (CommandError C) Command
  | ns :: key :: word :: version :: rest =>
    if eqIgnoreAsciiCase word "EXPECT" then
      match parseNumber "EXPECT must be a non-negative integer" version with
      | .error e => .error e
      | .ok expected =>
        match rest with
        | [] => .ok (.delIf ns (utf8 key) expected)
        | extra :: _ => .error (.badArg "unexpected argument: " extra)
    else .error (.badArg "DELIF: expected EXPECT keyword, got " word)
  | _ => requireArgs 4 "DELIF"

def parseList : List String → Except (CommandError C) Command
  | ns :: rest =>
    (parseOptions [prefixOption, cursorOption, limitOption] rest {}).map fun o =>
      .list ns o.keyPrefix o.cursor o.limit
  | _ => requireArgs 1 "LIST"

def parseVersions : List String → Except (CommandError C) Command
  | ns :: key :: rest =>
    (parseOptions [limitOption, fromOption] rest {}).map fun o =>
      .versions ns (utf8 key) o.limit o.fromVersion
  | _ => requireArgs 2 "VERSIONS"

def parseNamespaceCreate : List String → Except (CommandError C) Command
  | name :: rest =>
    (parseOptions [schemaOption, maxVersionsOption, retentionOption] rest {}).map fun o =>
      .namespaceCreate name o.schema o.maxVersions o.tombstoneRetentionSecs
  | _ => requireArgs 1 "NAMESPACE CREATE"

def parseNamespaceDrop : List String → Except (CommandError C) Command
  | name :: rest => .ok (.namespaceDrop name (rest.head?.any (eqIgnoreAsciiCase · "FORCE")))
  | _ => requireArgs 1 "NAMESPACE DROP"

def parseNamespaceList (args : List String) : Except (CommandError C) Command :=
  let o := scanOptions
    [("CURSOR", fun s (o : Options) => { o with cursor := s }),
     ("LIMIT", fun s o => { o with limit := s.bind fun s => (parseUInt64 s).toOption })] args {}
  .ok (.namespaceList o.cursor o.limit)

def parseNamespaceInfo : List String → Except (CommandError C) Command
  | name :: _ => .ok (.namespaceInfo name)
  | _ => requireArgs 1 "NAMESPACE INFO"

/-- The settings of NAMESPACE ALTER, as its loop makes them. -/
def alterSpecs (C : Crates) : List (String × (Option String → Options → Options)) :=
  [("SCHEMA", fun s (o : Options) =>
      { o with schema := s.bind fun s => (C.jsonFromStr s).toOption }),
   ("MAX_VERSIONS", fun s o =>
      { o with maxVersions := s.bind fun s => (parseUInt64 s).toOption }),
   ("TOMBSTONE_RETENTION", fun s o =>
      { o with tombstoneRetentionSecs := s.bind fun s => (parseUInt64 s).toOption })]

def parseNamespaceAlter : List String → Except (CommandError C) Command
  | name :: rest =>
    let o := scanOptions (alterSpecs C) rest {}
    .ok (.namespaceAlter name o.schema o.maxVersions o.tombstoneRetentionSecs)
  | _ => requireArgs 1 "NAMESPACE ALTER"

def parseNamespaceValidate : List String → Except (CommandError C) Command
  | name :: _ => .ok (.namespaceValidate name)
  | _ => requireArgs 1 "NAMESPACE VALIDATE"

def parseNamespace : List String → Except (CommandError C) Command
  | [] => requireArgs 1 "NAMESPACE"
  | word :: args =>
    match toAsciiUppercase word with
    | "CREATE" => parseNamespaceCreate args
    | "DROP" => parseNamespaceDrop args
    | "LIST" => parseNamespaceList args
    | "INFO" => parseNamespaceInfo args
    | "ALTER" => parseNamespaceAlter args
    | "VALIDATE" => parseNamespaceValidate args
    | sub => .error (.badArg "unknown NAMESPACE subcommand: " sub)

/-- The loop of `parse_subscribe`. Under `collecting`, arguments up to the next KEY are events. -/
def scanSubscribe : Bool → List String → Option Bytes × List String → Option Bytes × List String
  | _, [], found => found
  | collecting, arg :: rest, (key, events) =>
    if toAsciiUppercase arg = "KEY" then
      match rest with
      | [] => (key, events)
      | v :: rest => scanSubscribe false rest (some (utf8 v), events)
    else if collecting then
      scanSubscribe true rest (key, events ++ [toAsciiUppercase arg])
    else scanSubscribe (toAsciiUppercase arg = "EVENTS") rest (key, events)

def parseSubscribe : List String → Except (CommandError C) Command
  | ns :: rest =>
    let found := scanSubscribe false rest (none, [])
    .ok (.subscribe ns found.1 found.2)
  | _ => requireArgs 1 "SUBSCRIBE"

def parseConfig : List String → Except (CommandError C) Command
  | [] => requireArgs 1 "CONFIG"
  | word :: args =>
    match toAsciiUppercase word with
    | "GET" =>
      match args with
      | key :: _ => .ok (.configGet key)
      | _ => requireArgs 1 "CONFIG GET"
    | "SET" =>
      match args with
      | key :: value :: _ => .ok (.configSet key value)
      | _ => requireArgs 2 "CONFIG SET"
    | sub => .error (.badArg "unknown CONFIG subcommand: " sub)

def isAsciiHexdigit (c : Char) : Bool :=
  c.isDigit || ('a' ≤ c && c ≤ 'f') || ('A' ≤ c && c ≤ 'F')

def parseRekey : List String → Except (CommandError C) Command
  | [] => .error (.badArg "REKEY requires a subcommand: <new_key_hex> or STATUS" "")
  | hex :: _ =>
    if eqIgnoreAsciiCase hex "STATUS" then .ok .rekeyStatus
    else if (utf8 hex).length ≠ 64 then
      .error (.badArg ("REKEY key must be 32 bytes (64 hex chars), got " ++
        (utf8 hex).length.repr ++ " chars") "")
    else if hex.toList.all isAsciiHexdigit then .ok (.rekey hex)
    else .error (.badArg "REKEY key is not valid hex" "")

def parseCommandSub : List String → Except (CommandError C) Command
  | [] => .ok .commandList
  | word :: _ =>
    if eqIgnoreAsciiCase word "LIST" then .ok .commandList
    else .error (.badArg "unknown COMMAND subcommand: " word)

/-- Every command but PIPELINE, from its arguments as strings. -/
def parseStrings (word : String) (args : List String) : Except (CommandError C) Command :=
  match toAsciiUppercase word with
  | "AUTH" => parseAuth args
  | "PING" => .ok .ping
  | "PUT" => parsePut args
  | "GET" => parseGet args
  | "DELETE" => parseDelete args
  | "PUTIF" => parsePutIf args
  | "DELIF" => parseDelIf args
  | "DELPREFIX" => parseDelPrefix args
  | "LIST" => parseList args
  | "VERSIONS" => parseVersions args
  | "NAMESPACE" => parseNamespace args
  | "SUBSCRIBE" => parseSubscribe args
  | "UNSUBSCRIBE" => .ok .unsubscribe
  | "HEALTH" => .ok .health
  | "CONFIG" => parseConfig args
  | "COMMAND" => parseCommandSub args
  | "REKEY" => parseRekey args
  | verb => .error (.badArg "unknown command: " verb)

/-! ## PIPELINE -/

/-- The REQUEST_ID keywords before the first array: the last id given, and how many elements they
take. -/
def pipelineKeywords :
    List Resp3Frame → Option String → Except (CommandError C) (Option String × Nat)
  | [], id => .ok (id, 0)
  | .array _ :: _, id => .ok (id, 0)
  | frame :: rest, _ =>
    match frameToString frame with
    | .error e => .error e
    | .ok s =>
      if eqIgnoreAsciiCase s "REQUEST_ID" then
        match rest with
        | [] => .error (.badArg "REQUEST_ID requires a value" "")
        | value :: rest =>
          match frameToString value with
          | .error e => .error e
          | .ok id => (pipelineKeywords rest (some id)).map fun p => (p.1, p.2 + 2)
      else .error (.badArg "unexpected PIPELINE keyword: " s)

/-- The sub-commands, from the parse of each. The first that failed aborts the pipeline. -/
def collectCommands :
    Nat → List (Except (CommandError C) Command) → Except (CommandError C) (List Command)
  | _, [] => .ok []
  | i, .error e :: _ => .error (.pipelineAborted i e.text)
  | i, .ok c :: rest => (collectCommands (i + 1) rest).map (c :: ·)

/-- `parsed` holds what `parse_command` makes of each element. -/
def parsePipelineFrame (elements : List Resp3Frame)
    (parsed : List (Except (CommandError C) Command)) : Except (CommandError C) Command :=
  match pipelineKeywords elements none with
  | .error e => .error e
  | .ok (requestId, start) =>
    match collectCommands 0 (parsed.drop start) with
    | .error e => .error e
    | .ok [] => .error (.badArg "PIPELINE requires at least one command" "")
    | .ok commands => .ok (.pipeline commands requestId)

def framesToStrings : List Resp3Frame → Except (CommandError C) (List String)
  | [] => .ok []
  | f :: fs =>
    match frameToString f with
    | .error e => .error e
    | .ok s => (framesToStrings fs).map (s :: ·)

mutual
def parseCommand : Resp3Frame → Except (CommandError C) Command
  | .array (first :: rest) =>
    match frameToString first with
    | .error e => .error e
    | .ok word =>
      if eqIgnoreAsciiCase word "PIPELINE" then parsePipelineFrame rest (parseCommands rest)
      else
        match framesToStrings rest with
        | .error e => .error e
        | .ok args => parseStrings word args
  | .array [] => .error (.badArg "empty command" "")
  | _ => .error (.badArg "expected array frame" "")
def parseCommands : List Resp3Frame → List (Except (CommandError C) Command)
  | [] => []
  | f :: fs => parseCommand f :: parseCommands fs
end

/-! ## Requests -/

/-- The frame a command is sent as. -/
def commandFrame (args : List String) : Resp3Frame :=
  .array (args.map fun arg => .bulkString (utf8 arg))

theorem framesToStrings_map (args : List String) :
    framesToStrings (C := C) (args.map fun arg => .bulkString (utf8 arg)) = .ok args := by
  induction args with
  | nil => rfl
  | cons arg args ih => simp [framesToStrings, frameToString, ih, Except.map]

theorem parseCommand_commandFrame {word : String} {args : List String}
    (parse : List String → Except (CommandError C) Command)
    (h : eqIgnoreAsciiCase word "PIPELINE" = false) (hparse : parseStrings word = parse) :
    parseCommand (C := C) (commandFrame (word :: args)) = parse args := by
  simp [commandFrame, parseCommand, frameToString, h, framesToStrings_map, hparse]

end

end Shroudb
