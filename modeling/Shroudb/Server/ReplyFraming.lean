import Shroudb.MemoryStore
import Shroudb.Client.Decoder
import Shroudb.Server.Connection

/-! Which replies of the server the client reads back as the one frame that was sent. -/
namespace Shroudb
open Wire Effect Resp3Frame Response

variable {C : Crates} {σ : Type}

/-- No text holds a line feed. -/
def Clean (texts : List String) : Prop := ∀ t ∈ texts, '\n' ∉ t.toList

@[simp] theorem clean_nil : Clean [] := by simp [Clean]

@[simp] theorem clean_cons {t : String} {ts : List String} :
    Clean (t :: ts) ↔ '\n' ∉ t.toList ∧ Clean ts := by
  simp [Clean]

@[simp] theorem clean_append {ts us : List String} : Clean (ts ++ us) ↔ Clean ts ∧ Clean us := by
  simp [Clean, or_imp, forall_and]

/-! ## Errors -/

/-- The texts an error displays besides its own fixed words and numbers. -/
def CommandError.quoted : CommandError C → List String
  | .notFound => []
  | .namespaceNotFound ns => [ns]
  | .namespaceExists ns => [ns]
  | .namespaceNotEmpty ns => [ns]
  | .versionNotFound _ => []
  | .validationFailed errors => [errors]
  | .denied reason => [reason]
  | .notAuthenticated => []
  | .notReady state => [state]
  | .badArg message quoted => [message, quoted]
  | .pipelineAborted _ reason => [reason]
  | .versionConflict _ => []
  | .prefixTooLarge .. => []
  | .store e => [C.storeErrorText e]
  | .internal message => [message]

theorem lf_not_mem_printUInt64 (n : UInt64) : '\n' ∉ (printUInt64 n).toList :=
  lf_not_mem_repr n.toNat

theorem lf_append {s t : String} :
    '\n' ∉ (s ++ t).toList ↔ '\n' ∉ s.toList ∧ '\n' ∉ t.toList := by
  rw [String.toList_append, List.mem_append, not_or]

/-- Fixed words before a text do not matter. -/
theorem lf_words {words t : String} (h : '\n' ∉ words.toList) :
    '\n' ∉ (words ++ t).toList ↔ Clean [t] := by
  rw [lf_append, clean_cons]
  simp [h]

/-- An error's text breaks its line exactly when a text it quotes does. -/
theorem clean_text (e : CommandError C) : '\n' ∉ e.text.toList ↔ Clean e.quoted := by
  have hplain : ∀ {t : String}, '\n' ∉ t.toList → ('\n' ∉ t.toList ↔ Clean []) :=
    fun h => iff_of_true h clean_nil
  cases e with
  | notFound => exact hplain (show '\n' ∉ "not found".toList from not_mem_ofList (by decide))
  | namespaceNotFound ns => exact lf_words (not_mem_ofList (by decide))
  | namespaceExists ns => exact lf_words (not_mem_ofList (by decide))
  | namespaceNotEmpty ns => exact lf_words (not_mem_ofList (by decide))
  | versionNotFound version =>
    exact hplain (lf_append.mpr ⟨not_mem_ofList (by decide), lf_not_mem_printUInt64 _⟩)
  | validationFailed errors => exact lf_words (not_mem_ofList (by decide))
  | denied reason => exact lf_words (not_mem_ofList (by decide))
  | notAuthenticated =>
    exact hplain (show '\n' ∉ "not authenticated".toList from not_mem_ofList (by decide))
  | notReady state =>
    have hend : '\n' ∉ " state".toList := not_mem_ofList (by decide)
    exact lf_append.trans ((and_iff_left hend).trans (lf_words (not_mem_ofList (by decide))))
  | badArg message quoted =>
    have hwords : '\n' ∉ ("bad argument: " ++ message).toList ↔ Clean [message] :=
      lf_words (not_mem_ofList (by decide))
    refine lf_append.trans ?_
    rw [hwords, CommandError.quoted, clean_cons, clean_cons, clean_cons]
    simp
  | pipelineAborted index reason =>
    refine lf_words (lf_append.mpr ⟨lf_append.mpr ⟨not_mem_ofList (by decide), lf_not_mem_repr _⟩,
      not_mem_ofList (by decide)⟩)
  | versionConflict current =>
    exact hplain (lf_append.mpr ⟨not_mem_ofList (by decide), lf_not_mem_printUInt64 _⟩)
  | prefixTooLarge matched limit =>
    exact hplain (lf_append.mpr ⟨lf_append.mpr ⟨lf_append.mpr ⟨not_mem_ofList (by decide),
      lf_not_mem_printUInt64 _⟩, not_mem_ofList (by decide)⟩, lf_not_mem_printUInt64 _⟩)
  | store e => exact lf_words (not_mem_ofList (by decide))
  | internal message => exact lf_words (not_mem_ofList (by decide))

/-! ## Responses -/

theorem clean_error (e : CommandError C) :
    Clean (lineTexts (responseToFrame (.error e))) ↔ Clean e.quoted := by
  rw [responseToFrame, lineTexts, clean_cons, clean_text]
  simp

/-! ## What the answer to a command quotes -/

/-- A store error quotes what the handler's error for it does. -/
def errorQuotes {α : Type} (toError : StoreError C.ValidationError → CommandError C) :
    Except (StoreError C.ValidationError) α → List String
  | .error e => (toError e).quoted
  | .ok _ => []

def engineQuotes {α : Type} : Except String α → List String
  | .error e => [e]
  | .ok _ => []

/-- The texts a leaf command's answer quotes from the request and from what its store and engine
calls return. -/
def leafQuotes (B : Backend C σ) (d : Dispatcher C σ) : Command → List String
  | .put ns key value metadata ttlMs =>
    match Handlers.parseMetadata metadata with
    | .error e => e.quoted
    | .ok metadata =>
      errorQuotes .store (B.perform (.putWithOptions ns key value ⟨metadata, ttlMs, none⟩) d.store).1
  | .get ns key version _ =>
    errorQuotes (Handlers.keyError ns key) (B.perform (.get ns key version) d.store).1
  | .delete ns key => errorQuotes (Handlers.keyError ns key) (B.perform (.delete ns key) d.store).1
  | .putIf ns key value metadata expected =>
    match Handlers.parseMetadata metadata with
    | .error e => e.quoted
    | .ok metadata =>
      errorQuotes (Handlers.putIfError ns key)
        (B.perform (.putIfVersion ns key value metadata expected) d.store).1
  | .delIf ns key expected =>
    errorQuotes (Handlers.delIfError ns key) (B.perform (.deleteIfVersion ns key expected) d.store).1
  | .delPrefix ns keyPrefix =>
    errorQuotes (Handlers.delPrefixError ns) (B.perform (.deletePrefix ns keyPrefix) d.store).1
  | .list ns keyPrefix cursor limit =>
    errorQuotes (Handlers.listError ns)
      (B.perform (.list ns keyPrefix cursor (limit.getD 100)) d.store).1
  | .versions ns key limit fromVersion =>
    errorQuotes (Handlers.atKey ns key)
      (B.perform (.versions ns key (limit.getD 100) fromVersion) d.store).1
  | .namespaceCreate name schema maxVersions retention =>
    match Handlers.parseConfig schema maxVersions retention with
    | .error e => e.quoted
    | .ok config => errorQuotes .store (B.perform (.namespaceCreate name config) d.store).1
  | .namespaceDrop name force =>
    errorQuotes .store (B.perform (.namespaceDrop name force) d.store).1
  | .namespaceList cursor limit =>
    errorQuotes .store (B.perform (.namespaceList cursor (limit.getD 100)) d.store).1
  | .namespaceInfo name => errorQuotes .store (B.perform (.namespaceInfo name) d.store).1
  | .namespaceAlter name schema maxVersions retention =>
    match Handlers.parseConfig schema maxVersions retention with
    | .error e => e.quoted
    | .ok config => errorQuotes .store (B.perform (.namespaceAlter name config) d.store).1
  | .namespaceValidate name => errorQuotes .store (B.perform (.namespaceValidate name) d.store).1
  | .configSet key value =>
    match B.hasEngine, d.wall.head with
    | true, some timestamp =>
      let validated := B.perform (.configValidate key value) d.store
      match validated.1 with
      | .error e => [e]
      | .ok () =>
        let applied := B.perform (.configApply key value) validated.2
        match applied.1 with
        | .error e => [e]
        | .ok () => engineQuotes (B.perform (.configStore key value timestamp) applied.2).1
    | _, _ => []
  | .rekey newKeyHex =>
    match B.hasEngine, Handlers.decodeHex newKeyHex with
    | true, .error e => [e]
    | true, .ok key =>
      if key.length = 32 then engineQuotes (B.perform (.beginRekey key) d.store).1 else []
    | false, _ => []
  | _ => []

def resultQuotes : Except (CommandError C) (ResponseMap C) → List String
  | .error e => e.quoted
  | .ok _ => []

theorem clean_toResponse (r : Except (CommandError C) (ResponseMap C)) :
    Clean (lineTexts (responseToFrame (toResponse r))) ↔ Clean (resultQuotes r) := by
  cases r with
  | error e => exact clean_error e
  | ok m =>
    rw [toResponse, lineTexts_success]
    simp [resultQuotes]

variable {B : Backend C σ} {d : Dispatcher C σ}

theorem clean_acknowledge (r : Except (StoreError C.ValidationError) Unit) :
    Clean (errorQuotes .store r) ↔ Clean (resultQuotes (Handlers.acknowledge r)) := by
  cases r <;> exact Iff.rfl

theorem clean_configSet (key value : String) :
    Clean (leafQuotes B d (.configSet key value)) ↔
      Clean (resultQuotes ((dispatch B.hasEngine (.configSet key value)).run
        (Dispatcher.answer B) d).1) := by
  have hclock : '\n' ∉ "system clock error".toList := not_mem_ofList (by decide)
  have hremote : '\n' ∉ "CONFIG not available in remote store mode".toList :=
    not_mem_ofList (by decide)
  simp only [leafQuotes, dispatch]
  cases B.hasEngine with
  | false => exact iff_of_true clean_nil (clean_cons.mpr ⟨hremote, clean_nil⟩)
  | true =>
    change _ ↔ Clean (resultQuotes ((Handlers.configTimed key value d.wall.head).run _ _).1)
    cases d.wall.head with
    | none => exact iff_of_true clean_nil (clean_cons.mpr ⟨hclock, clean_nil⟩)
    | some timestamp =>
      change _ ↔ Clean (resultQuotes ((Handlers.configValidated key value timestamp
        (B.perform (.configValidate key value) d.store).1).run _ _).1)
      dsimp only
      cases (B.perform (.configValidate key value) d.store).1 with
      | error e => simp [Handlers.configValidated, Handlers.refuse, Program.run, resultQuotes,
          CommandError.quoted]
      | ok u =>
        change _ ↔ Clean (resultQuotes ((Handlers.configApplied key value timestamp
          (B.perform (.configApply key value)
            (B.perform (.configValidate key value) d.store).2).1).run _ _).1)
        dsimp only
        cases (B.perform (.configApply key value)
          (B.perform (.configValidate key value) d.store).2).1 with
        | error e => exact Iff.rfl
        | ok u =>
          change _ ↔ Clean (resultQuotes (Handlers.configStored (B.perform
            (.configStore key value timestamp) (B.perform (.configApply key value)
              (B.perform (.configValidate key value) d.store).2).2).1))
          dsimp only
          cases (B.perform (.configStore key value timestamp) (B.perform (.configApply key value)
            (B.perform (.configValidate key value) d.store).2).2).1 with
          | error e => simp [engineQuotes, Handlers.configStored, resultQuotes, CommandError.quoted]
          | ok u => exact Iff.rfl

theorem clean_rekey (newKeyHex : String) :
    Clean (leafQuotes B d (.rekey newKeyHex)) ↔
      Clean (resultQuotes ((dispatch B.hasEngine (.rekey newKeyHex)).run
        (Dispatcher.answer B) d).1) := by
  have hremote : '\n' ∉ "REKEY not available in remote store mode".toList :=
    not_mem_ofList (by decide)
  have hhex : '\n' ∉ "invalid hex key: ".toList := not_mem_ofList (by decide)
  have hsize : '\n' ∉ "key must be 32 bytes (64 hex chars), got ".toList :=
    not_mem_ofList (by decide)
  simp only [leafQuotes, dispatch]
  cases B.hasEngine with
  | false => exact iff_of_true clean_nil (clean_cons.mpr ⟨hremote, clean_nil⟩)
  | true =>
    simp only [Handlers.rekey, if_true]
    cases Handlers.decodeHex newKeyHex with
    | error e =>
      change Clean [e] ↔ Clean ["invalid hex key: ", e]
      rw [clean_cons (t := "invalid hex key: ")]
      exact (and_iff_right hhex).symm
    | ok key =>
      by_cases hk : key.length = 32
      · simp only [hk, if_true, ne_eq, not_true_eq_false, if_false, run_query]
        cases (B.perform (.beginRekey key) d.store).1 <;> exact Iff.rfl
      · simp only [hk, if_false, ne_eq, not_false_eq_true, if_true]
        refine iff_of_true clean_nil (clean_cons.mpr ⟨?_, clean_cons.mpr ⟨by simp, clean_nil⟩⟩)
        exact lf_append.mpr ⟨hsize, lf_not_mem_repr _⟩

/-- The table is right: a leaf's answer breaks a line exactly when a text it quotes does. -/
theorem clean_leafQuotes (cmd : Command) :
    Clean (leafQuotes B d cmd) ↔
      Clean (resultQuotes ((dispatch B.hasEngine cmd).run (Dispatcher.answer B) d).1) := by
  have hfixed : ∀ {words : String}, '\n' ∉ words.toList → (Clean [] ↔ Clean [words]) :=
    fun h => by simp [h]
  have hfixed2 : ∀ {words : String}, '\n' ∉ words.toList → (Clean [] ↔ Clean [words, ""]) :=
    fun h => by simp [h]
  cases cmd with
  | put ns key value metadata ttlMs =>
    cases h : Handlers.parseMetadata (C := C) metadata with
    | error e =>
      simp only [leafQuotes, dispatch, Handlers.put, h]
      exact Iff.rfl
    | ok m =>
      simp only [leafQuotes, dispatch, Handlers.put, h, run_query]
      cases (B.perform (.putWithOptions ns key value ⟨m, ttlMs, none⟩) d.store).1 <;> exact Iff.rfl
  | get ns key version withMeta =>
    simp only [leafQuotes, dispatch, Handlers.get, run_query]
    cases (B.perform (.get ns key version) d.store).1 <;> exact Iff.rfl
  | delete ns key =>
    simp only [leafQuotes, dispatch, Handlers.delete, run_query]
    cases (B.perform (.delete ns key) d.store).1 <;> exact Iff.rfl
  | putIf ns key value metadata expected =>
    cases h : Handlers.parseMetadata (C := C) metadata with
    | error e =>
      simp only [leafQuotes, dispatch, Handlers.putIf, h]
      exact Iff.rfl
    | ok m =>
      simp only [leafQuotes, dispatch, Handlers.putIf, h, run_query]
      cases (B.perform (.putIfVersion ns key value m expected) d.store).1 <;> exact Iff.rfl
  | delIf ns key expected =>
    simp only [leafQuotes, dispatch, Handlers.delIf, run_query]
    cases (B.perform (.deleteIfVersion ns key expected) d.store).1 <;> exact Iff.rfl
  | delPrefix ns keyPrefix =>
    simp only [leafQuotes, dispatch, Handlers.delPrefix, run_query]
    cases (B.perform (.deletePrefix ns keyPrefix) d.store).1 <;> exact Iff.rfl
  | list ns keyPrefix cursor limit =>
    simp only [leafQuotes, dispatch, Handlers.list, run_query]
    cases (B.perform (.list ns keyPrefix cursor (limit.getD 100)) d.store).1 <;> exact Iff.rfl
  | versions ns key limit fromVersion =>
    simp only [leafQuotes, dispatch, Handlers.versions, run_query]
    cases (B.perform (.versions ns key (limit.getD 100) fromVersion) d.store).1 <;> exact Iff.rfl
  | namespaceCreate name schema maxVersions retention =>
    cases h : Handlers.parseConfig (C := C) schema maxVersions retention with
    | error e =>
      simp only [leafQuotes, dispatch, Handlers.namespaceCreate, h]
      exact Iff.rfl
    | ok config =>
      simp only [leafQuotes, dispatch, Handlers.namespaceCreate, h]
      exact clean_acknowledge _
  | namespaceDrop name force =>
    simp only [leafQuotes, dispatch, Handlers.namespaceDrop]
    exact clean_acknowledge _
  | namespaceList cursor limit =>
    simp only [leafQuotes, dispatch, Handlers.namespaceList, run_query]
    cases (B.perform (.namespaceList cursor (limit.getD 100)) d.store).1 <;> exact Iff.rfl
  | namespaceInfo name =>
    simp only [leafQuotes, dispatch, Handlers.namespaceInfo, run_query]
    cases (B.perform (.namespaceInfo name) d.store).1 <;> exact Iff.rfl
  | namespaceAlter name schema maxVersions retention =>
    cases h : Handlers.parseConfig (C := C) schema maxVersions retention with
    | error e =>
      simp only [leafQuotes, dispatch, Handlers.namespaceAlter, h]
      exact Iff.rfl
    | ok config =>
      simp only [leafQuotes, dispatch, Handlers.namespaceAlter, h]
      exact clean_acknowledge _
  | namespaceValidate name =>
    simp only [leafQuotes, dispatch, Handlers.namespaceValidate, run_query]
    cases (B.perform (.namespaceValidate name) d.store).1 <;> exact Iff.rfl
  | configGet key =>
    simp only [leafQuotes, dispatch]
    cases B.hasEngine with
    | false => exact hfixed (not_mem_ofList (by decide))
    | true =>
      simp only [if_true, Handlers.configGet, run_query]
      cases (B.perform (.configGet key) d.store).1 <;> exact Iff.rfl
  | rekeyStatus =>
    simp only [leafQuotes, dispatch]
    cases B.hasEngine with
    | false => exact hfixed (not_mem_ofList (by decide))
    | true =>
      simp only [if_true, Handlers.rekeyStatus, run_query]
      cases (B.perform .rekeyStatus d.store).1 <;> exact Iff.rfl
  | configSet key value => exact clean_configSet key value
  | rekey newKeyHex => exact clean_rekey newKeyHex
  | auth token => exact hfixed (not_mem_ofList (by decide))
  | subscribe ns key events => exact hfixed2 (not_mem_ofList (by decide))
  | unsubscribe => exact hfixed2 (not_mem_ofList (by decide))
  | pipeline cs id => exact hfixed (not_mem_ofList (by decide))
  | ping => exact Iff.rfl
  | health => exact Iff.rfl
  | commandList => exact Iff.rfl

mutual
/-- The texts the answer to a command quotes. A pipeline quotes what its commands do, each run on
the state the ones before it left, or it is replayed from the cache. -/
def commandQuotes (B : Backend C σ) (auth : Option C.AuthContext) :
    Command → Dispatcher C σ → List String
  | .pipeline commands requestId, d =>
    match d.lookup requestId with
    | (some frame, _) => lineTexts frame
    | (none, d) => commandsQuotes B auth commands d
  | cmd, d =>
    match aclCheck auth cmd.aclRequirement with
    | some e => e.quoted
    | none => leafQuotes B d cmd
def commandsQuotes (B : Backend C σ) (auth : Option C.AuthContext) :
    List Command → Dispatcher C σ → List String
  | [], _ => []
  | c :: cs, d => commandQuotes B auth c d ++ commandsQuotes B auth cs (execute B auth c d).2
end

variable {auth : Option C.AuthContext}

theorem commandQuotes_leaf {cmd : Command} (h : cmd.isPipeline = false) :
    commandQuotes B auth cmd d =
      match aclCheck auth cmd.aclRequirement with
      | some e => e.quoted
      | none => leafQuotes B d cmd := by
  cases cmd <;> first | rfl | cases h

theorem clean_executeLeaf (cmd : Command) (hc : cmd.isPipeline = false) :
    Clean (lineTexts (responseToFrame (executeLeaf B auth cmd d).1)) ↔
      Clean (commandQuotes B auth cmd d) := by
  rw [executeLeaf, commandQuotes_leaf hc]
  cases aclCheck auth cmd.aclRequirement with
  | some e => exact clean_error e
  | none => exact (clean_toResponse _).trans (clean_leafQuotes cmd).symm

theorem clean_execute (cmd : Command) (d : Dispatcher C σ) :
    Clean (lineTexts (responseToFrame (execute B auth cmd d).1)) ↔
      Clean (commandQuotes B auth cmd d) := by
  induction cmd generalizing d with
  | leaf c hc =>
    rw [execute_leaf hc]
    exact clean_executeLeaf c hc
  | pipeline cs id ih =>
    rw [commandQuotes]
    cases hl : d.lookup id with
    | mk found d' =>
      cases found with
      | some frame =>
        rw [execute_pipeline_hit (by rw [hl])]
        exact Iff.rfl
      | none =>
        rw [execute_pipeline_miss (by rw [hl]), hl]
        dsimp only
        rw [responseToFrame, lineTexts]
        clear hl
        induction cs generalizing d' with
        | nil => exact Iff.rfl
        | cons c cs ihcs =>
          rw [executeAll, commandsQuotes]
          dsimp only
          rw [responsesToFrames, lineTextsAll, clean_append, clean_append, ih c (by simp),
            ihcs (fun c' hc' => ih c' (by simp [hc']))]

/-! ## What the reply to a request quotes -/

def rateLimited (m : Moment C) (conn : Connection C) : Bool :=
  conn.rateLimiter.any fun limiter => !(limiter.tryAcquire m.instant).1

/-- The held context cannot be used: the clock is unreadable or past its expiry. -/
def lapsed (m : Moment C) (conn : Connection C) : Bool :=
  match conn.auth, m.wall with
  | none, _ => false
  | some _, none => true
  | some ctx, some now => C.isExpired ctx now

def subscribeQuotes (B : Backend C σ) (authRequired : Bool) (auth : Option C.AuthContext)
    (d : Dispatcher C σ) (ns : String) (key : Option Bytes) (events : List String) : List String :=
  match auth with
  | some ctx =>
    match C.check ctx (.inNamespace ns .read none) with
    | .error e => [e]
    | .ok () => errorQuotes .store (B.perform (.subscribe ns ⟨key, eventFilter events⟩) d.store).1
  | none =>
    if authRequired then []
    else errorQuotes .store (B.perform (.subscribe ns ⟨key, eventFilter events⟩) d.store).1

/-- For a command that the connection lets through. -/
def admittedQuotes (B : Backend C σ) (authRequired : Bool) (conn : Connection C)
    (d : Dispatcher C σ) : Command → List String
  | .subscribe ns key events => subscribeQuotes B authRequired conn.auth d ns key events
  | command => commandQuotes B conn.auth command d

/-- For a command behind the rate limiter. The connection's own refusals quote nothing. -/
def limitedQuotes (B : Backend C σ) (authRequired : Bool) (m : Moment C) (conn : Connection C)
    (d : Dispatcher C σ) : Command → List String
  | .auth token => engineQuotes (m.validate token)
  | .ping => []
  | command =>
    if authRequired ∧ conn.auth.isNone ∨ lapsed m conn then []
    else admittedQuotes B authRequired conn d command

/-- The texts the reply to a request quotes: from the request, the token validator, the access
check and the store's answers. -/
def requestQuotes (B : Backend C σ) (authRequired : Bool) (m : Moment C) (conn : Connection C)
    (d : Dispatcher C σ) (frame : Resp3Frame) : List String :=
  match parseCommand (C := C) frame with
  | .error e => e.quoted
  | .ok command =>
    if rateLimited m conn then [] else limitedQuotes B authRequired m conn d command

/-- There is one reply, and it breaks a line exactly when one of the texts does. -/
def Replies (o : Outcome C σ) (quotes : List String) : Prop :=
  ∃ reply, o.written = [reply] ∧ (Clean (lineTexts reply) ↔ Clean quotes)

variable {authRequired : Bool} {m : Moment C} {conn : Connection C} {deeds : List (Deed C)}

theorem replies_respond {frame : Resp3Frame} {quotes : List String}
    (h : Clean (lineTexts frame) ↔ Clean quotes) : Replies (respond m conn d deeds frame) quotes :=
  ⟨frame, rfl, h⟩

theorem replies_error {e : CommandError C} {quotes : List String}
    (h : Clean e.quoted ↔ Clean quotes) :
    Replies (respond m conn d deeds (responseToFrame (.error e))) quotes :=
  replies_respond ((clean_error e).trans h)

theorem replies_openSubscription {ns : String}
    (answer : Except (StoreError C.ValidationError) Unit) :
    Replies (openSubscription m conn d deeds ns answer) (errorQuotes .store answer) := by
  cases answer with
  | error e => exact replies_error Iff.rfl
  | ok u =>
    refine replies_respond ?_
    rw [lineTexts_success]
    exact Iff.rfl

theorem replies_handleSubscribe {ns : String} {key : Option Bytes} {events : List String} :
    Replies (handleSubscribe B authRequired m conn d deeds ns key events)
      (subscribeQuotes B authRequired conn.auth d ns key events) := by
  unfold handleSubscribe subscribeQuotes
  cases conn.auth with
  | some ctx =>
    simp only [Command.aclRequirement]
    cases C.check ctx (.inNamespace ns .read none) with
    | error e => exact replies_error Iff.rfl
    | ok u => exact replies_openSubscription _
  | none =>
    dsimp only
    split_ifs
    · exact replies_error Iff.rfl
    · exact replies_openSubscription _

theorem replies_handleAdmitted {command : Command} :
    Replies (handleAdmitted B authRequired m conn d deeds command)
      (admittedQuotes B authRequired conn d command) := by
  by_cases hsub : ∃ ns key events, command = .subscribe ns key events
  · obtain ⟨ns, key, events, rfl⟩ := hsub
    exact replies_handleSubscribe
  · have hne : ∀ ns key events, command = .subscribe ns key events → False :=
      fun ns key events h => hsub ⟨ns, key, events, h⟩
    rw [handleAdmitted.eq_2 _ _ _ _ _ _ _ hne, admittedQuotes.eq_2 _ _ _ _ _ hne]
    exact replies_respond (clean_execute command d)

theorem replies_handleUnexpired {command : Command} :
    Replies (handleUnexpired B authRequired m conn d command)
      (if lapsed m conn then [] else admittedQuotes B authRequired conn d command) := by
  unfold handleUnexpired lapsed
  split
  case h_1 hauth =>
    simp only [hauth, Bool.false_eq_true, if_false]
    exact replies_handleAdmitted
  case h_2 ctx hauth =>
    split
    case h_1 hwall =>
      have hclock : '\n' ∉ "system clock error".toList := not_mem_ofList (by decide)
      simp only [hauth, hwall, if_true]
      exact ⟨_, rfl, (clean_error _).trans (iff_of_true (clean_cons.mpr ⟨hclock, clean_nil⟩)
        clean_nil)⟩
    case h_2 now hwall =>
      simp only [hauth, hwall]
      split_ifs
      · exact replies_error Iff.rfl
      · exact replies_handleAdmitted

theorem replies_handleLimited (conn : Connection C) {command : Command} :
    Replies (handleLimited B authRequired m conn d command)
      (limitedQuotes B authRequired m conn d command) := by
  have hchecked : ∀ command : Command,
      Replies (if authRequired ∧ conn.auth.isNone then
          respond m conn d [] (notAuthenticated C)
        else handleUnexpired B authRequired m conn d command)
        (if authRequired ∧ conn.auth.isNone ∨ lapsed m conn then []
          else admittedQuotes B authRequired conn d command) := by
    intro command
    by_cases hn : authRequired ∧ conn.auth.isNone
    · simp only [hn, and_self, true_or, if_true]
      exact replies_error Iff.rfl
    · simp only [hn, false_or, if_false]
      exact replies_handleUnexpired
  cases command with
  | auth token =>
    rw [handleLimited, limitedQuotes, handleAuth]
    cases m.validate token with
    | error e => exact replies_error Iff.rfl
    | ok ctx =>
      refine replies_respond ?_
      rw [lineTexts_success]
      exact Iff.rfl
  | ping =>
    have hping : (if lapsed m conn then [] else admittedQuotes B authRequired conn d .ping) = [] :=
      ite_self []
    rw [handleLimited, limitedQuotes, ← hping]
    exact replies_handleUnexpired
  | _ => exact hchecked _

theorem replies_handleFrame (B : Backend C σ) (authRequired : Bool) (m : Moment C)
    (conn : Connection C) (d : Dispatcher C σ) (frame : Resp3Frame) :
    Replies (handleFrame B authRequired m conn d frame)
      (requestQuotes B authRequired m conn d frame) := by
  unfold handleFrame requestQuotes
  cases parseCommand (C := C) frame with
  | error e =>
    refine replies_respond ?_
    rw [lineTexts, clean_cons, lf_words (not_mem_ofList (by decide)), clean_cons, clean_text]
    simp
  | ok command =>
    dsimp only
    unfold handleCommand rateLimited
    cases hl : conn.rateLimiter with
    | none =>
      simp only [Option.any_none, Bool.false_eq_true, if_false]
      exact replies_handleLimited conn
    | some limiter =>
      simp only [Option.any_some]
      by_cases hok : (limiter.tryAcquire m.instant).1
      · simp only [hok, if_true, Bool.not_true, Bool.false_eq_true, if_false]
        exact replies_handleLimited _
      · simp only [hok, Bool.false_eq_true, if_false, Bool.not_false, if_true]
        exact replies_error (iff_of_true (by simp [CommandError.quoted]) clean_nil)

/-- The client stops at the end of an error exactly when its text holds no line feed. -/
theorem readValue_simpleError_iff {t : String} {ended : Bool} :
    (∀ rest, ∃ v, readValue ended (writeFrame (.simpleError t) ++ rest) = .done v rest) ↔
      '\n' ∉ t.toList := by
  constructor
  · intro h hlf
    obtain ⟨v, hv⟩ := h []
    have hcut : ∃ mid, mid.length ≥ crlf.length ∧ ∀ ended,
        readValueAt ((writeFrame (.simpleError t)).length + 1) ended (45 :: utf8 t ++ crlf) =
          readBody (readValueAt (writeFrame (.simpleError t)).length) '-' (cutText t) ended mid :=
      readValueAt_cut (by decide) (by decide) (by decide) hlf
    obtain ⟨mid, hmid, hread⟩ := hcut
    have hdone : readBody (readValueAt (writeFrame (.simpleError t)).length) '-' (cutText t) ended
        mid = .done v [] := by
      rw [← hread ended, ← hv, List.append_nil]
      rfl
    cases hdone
    simp [crlf] at hmid
  · intro h rest
    have hsafe : LineSafe (.simpleError t) := by simpa [LineSafe, lineTexts] using h
    exact ⟨_, reads_readValue hsafe (by simp [InMemory]) ended rest⟩

theorem handleSubscribedFrame_reply {frame reply : Resp3Frame}
    (h : reply ∈ (handleSubscribedFrame conn d frame).written) :
    LineSafe reply ∧ InMemory reply := by
  unfold handleSubscribedFrame at h
  split at h <;> simp only [List.mem_singleton, List.not_mem_nil] at h <;> subst h
  · refine ⟨by simp [LineSafe, lineTexts_success], ?_⟩
    simp [responseToFrame, responseMapToFrame, ResponseMap.ok, responseFieldsToPairs,
      responseValueToFrame, InMemory, InMemoryPairs, responseSize, maxAllocation]
    decide
  · refine ⟨by simp [LineSafe, lineTexts_success], ?_⟩
    simp [responseToFrame, responseMapToFrame, ResponseMap.ok, ResponseMap.field,
      responseFieldsToPairs, responseValueToFrame, InMemory, InMemoryPairs, responseSize,
      maxAllocation]
    decide
  · exact ⟨by simp [LineSafe, lineTexts], by simp [InMemory]⟩

/-- In the command loop every request gets one reply. The client reads back that reply and
nothing else exactly when no text the reply quotes holds a line feed. While subscribed every
reply is read back. -/
theorem reply_read_back_iff (B : Backend C σ) (authRequired : Bool) (m : Moment C)
    (conn : Connection C) (d : Dispatcher C σ) (frame : Resp3Frame) (ended : Bool) :
    (∃ reply, (handleFrame B authRequired m conn d frame).written = [reply] ∧
      (InMemory reply →
        ((∀ rest, readValue ended (writeFrame reply ++ rest) = .done (img reply) rest) ↔
          Clean (requestQuotes B authRequired m conn d frame))) ∧
      ∀ t, reply = .simpleError t →
        ((∀ rest, ∃ v, readValue ended (writeFrame reply ++ rest) = .done v rest) ↔
          Clean (requestQuotes B authRequired m conn d frame))) ∧
    ∀ reply ∈ (handleSubscribedFrame conn d frame).written, ∀ rest,
      readValue ended (writeFrame reply ++ rest) = .done (img reply) rest := by
  constructor
  · obtain ⟨reply, hw, hquotes⟩ := replies_handleFrame B authRequired m conn d frame
    refine ⟨reply, hw, fun hm => (readValue_writeFrame_iff hm).trans hquotes, ?_⟩
    rintro t rfl
    rw [readValue_simpleError_iff, ← hquotes]
    simp [lineTexts]
  · intro reply hreply rest
    obtain ⟨hsafe, hm⟩ := handleSubscribedFrame_reply hreply
    exact reads_readValue hsafe hm ended rest

namespace Memory

/-- The reply to an unknown command of two lines reads as an error and then a second value. -/
theorem unknown_command_splits_reply :
    let request : Resp3Frame := .array [.bulkString (utf8 "FOO\n+OK")]
    let o := handleFrame backend false ⟨0, some 10, fun _ => .error "", true⟩
      (.new crates false none 0) (.new [] (Stream'.const 0) (Stream'.const (some 10))) request
    ∃ reply, o.written = [reply] ∧ InMemory reply ∧
      readValue false (writeFrame reply) =
        .done (.error "ERR bad argument: unknown command: FOO") (utf8 "+OK\r\n") ∧
      readValue false (utf8 "+OK\r\n") = .done (.string "OK") [] :=
  ⟨.simpleError "ERR bad argument: unknown command: FOO\n+OK", rfl, trivial, rfl, rfl⟩

end Memory

end Shroudb
