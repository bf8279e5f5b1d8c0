import Shroudb.Client.Fidelity
import Shroudb.Client.ProxyChain

/-! Which errors of the server's store a `RemoteStore` returns as what they are. -/
namespace Shroudb
open Wire Resp3Frame

variable {C : Crates} {σ V : Type}

/-! ## Texts and the classes they are taken for -/

inductive ErrorClass where
  | notFound
  | namespaceNotFound
  | namespaceExists
  | namespaceNotEmpty
  | invalidCursor
  | versionConflict
deriving DecidableEq, Repr

def StoreError.errorClass : StoreError V → Option ErrorClass
  | .notFound => some .notFound
  | .namespaceNotFound _ => some .namespaceNotFound
  | .namespaceExists _ => some .namespaceExists
  | .namespaceNotEmpty _ => some .namespaceNotEmpty
  | .invalidCursor _ => some .invalidCursor
  | .versionConflict _ => some .versionConflict
  | _ => none

/-- A text that is not of a conflict. -/
def Plain (t : String) : Prop := parseVersionConflict t = none ∧ parsePrefixTooLarge t = none

/-- The plain texts that the client takes for an error of a class: those with the phrase of the
class and no phrase that is looked for before. No text is taken for a missing namespace. -/
def ErrorClass.Phrased : ErrorClass → String → Prop
  | .notFound, t => Handlers.contains t "not found"
  | .namespaceExists, t =>
    ¬ Handlers.contains t "not found" ∧ Handlers.contains t "namespace already exists"
  | .namespaceNotEmpty, t =>
    ¬ Handlers.contains t "not found" ∧ ¬ Handlers.contains t "namespace already exists" ∧
      Handlers.contains t "namespace not empty"
  | .invalidCursor, t =>
    ¬ Handlers.contains t "not found" ∧ ¬ Handlers.contains t "namespace already exists" ∧
      ¬ Handlers.contains t "namespace not empty" ∧ Handlers.contains t "invalid cursor"
  | .namespaceNotFound, _ | .versionConflict, _ => False

theorem contains_iff {t needle : String} :
    Handlers.contains t needle = true ↔ needle.toList <:+: t.toList := by
  rw [Handlers.contains, List.any_eq_true]
  constructor
  · rintro ⟨tail, htail, hprefix⟩
    exact (List.isPrefixOf_iff_prefix.mp hprefix).isInfix.trans
      (List.mem_tails _ _ |>.mp htail).isInfix
  · rintro ⟨before, after, h⟩
    refine ⟨needle.toList ++ after, List.mem_tails _ _ |>.mpr ⟨before, ?_⟩, ?_⟩
    · rw [← List.append_assoc, h]
    · exact List.isPrefixOf_iff_prefix.mpr ⟨after, rfl⟩

/-- What tells of a missing namespace also tells of something not found. -/
theorem contains_notFound {t : String} (h : Handlers.contains t "namespace not found" = true) :
    Handlers.contains t "not found" = true := by
  have hinner : "not found".toList <:+: "namespace not found".toList :=
    ⟨"namespace ".toList, [], by decide⟩
  exact contains_iff.mpr (hinner.trans (contains_iff.mp h))

theorem errorClass_serverErr {t : String} {k : ErrorClass} (hplain : Plain t) :
    (serverErr (V := V) t).errorClass = some k ↔ k.Phrased t := by
  rw [serverErr, hplain.1]
  simp only [hplain.2]
  split_ifs with hfound hns hexists hempty hcursor
  · cases k <;> simp [StoreError.errorClass, ErrorClass.Phrased, hfound]
  · exact absurd (contains_notFound hns) hfound
  · cases k <;> simp [StoreError.errorClass, ErrorClass.Phrased, hfound, hexists]
  · cases k <;> simp [StoreError.errorClass, ErrorClass.Phrased, hfound, hexists, hempty]
  · cases k <;> simp [StoreError.errorClass, ErrorClass.Phrased, hfound, hexists, hempty, hcursor]
  · cases k <;> simp [StoreError.errorClass, ErrorClass.Phrased, hfound, hexists, hempty, hcursor]

def classPhrases : List String :=
  ["not found", "namespace already exists", "namespace not empty", "invalid cursor"]

theorem errorClass_serverErr_eq_none {t : String} (hplain : Plain t) :
    (serverErr (V := V) t).errorClass = none ↔
      ∀ phrase ∈ classPhrases, Handlers.contains t phrase = false := by
  rw [serverErr, hplain.1]
  simp only [hplain.2, classPhrases, List.forall_mem_cons, List.not_mem_nil, false_implies,
    implies_true, and_true]
  split_ifs with hfound hns hexists hempty hcursor
  · simp [StoreError.errorClass, hfound]
  · exact absurd (contains_notFound hns) hfound
  · simp [StoreError.errorClass, hexists]
  · simp [StoreError.errorClass, hempty]
  · simp [StoreError.errorClass, hcursor]
  · simp [StoreError.errorClass, hfound, hexists, hempty, hcursor]

theorem plain_of_head {t : String} {c : Char} {cs : List Char} (ht : t.toList = c :: cs)
    (hv : c ≠ 'V') (hp : c ≠ 'P') : Plain t := by
  constructor
  · rw [parseVersionConflict, ht, stripStart_cons rfl (Ne.symm hv)]
    rfl
  · rw [parsePrefixTooLarge, ht, stripStart_cons rfl (Ne.symm hp)]
    rfl

/-- The line feed that ends the text early leaves its first character. -/
theorem receivedText_head {t : String} {c : Char} {cs : List Char} (ht : t.toList = c :: cs)
    (hlf : c ≠ '\n') (hcr : c ≠ '\r') : ∃ cs', (receivedText t).toList = c :: cs' := by
  rw [receivedText]
  split_ifs
  · have htake : t.toList.takeWhile (· ≠ '\n') = c :: cs.takeWhile (· ≠ '\n') := by
      simp [ht, hlf]
    rw [cutText, String.toList_ofList, htake, dropCr]
    split_ifs with hlast
    · cases hrest : cs.takeWhile (· ≠ '\n') with
      | nil =>
        rw [hrest] at hlast
        exact absurd (Option.some.inj hlast) hcr
      | cons c' cs' => exact ⟨(c' :: cs').dropLast, rfl⟩
    · exact ⟨_, rfl⟩
  · exact ⟨cs, ht⟩

theorem plain_receivedText {t : String} {c : Char} {cs : List Char} (ht : t.toList = c :: cs)
    (h : c.isLower = true ∨ c = 'E') : Plain (receivedText t) := by
  have hother : ∀ c' : Char, c'.isLower = false → c' ≠ 'E' → c ≠ c' := by
    rintro c' hlower hne rfl
    rcases h with h | h
    · rw [hlower] at h
      cases h
    · exact hne h
  obtain ⟨cs', hhead⟩ := receivedText_head ht (hother _ (by decide) (by decide))
    (hother _ (by decide) (by decide))
  exact plain_of_head hhead (hother _ (by decide) (by decide)) (hother _ (by decide) (by decide))

/-- The errors that are not of a class. -/
def CommandError.isOther : CommandError C → Bool
  | .denied _ | .badArg .. | .validationFailed _ | .internal _ => true
  | _ => false

/-- Every text but those of the two conflicts is plain when it gets to the client. -/
theorem plain_text {c : CommandError C} (hv : ∀ current, c ≠ .versionConflict current)
    (hp : ∀ matched limit, c ≠ .prefixTooLarge matched limit) : Plain (receivedText c.text) := by
  rcases text_head c with ⟨current, h⟩ | ⟨matched, limit, h⟩ | ⟨a, cs, htext, hlower⟩
  · exact absurd h (hv current)
  · exact absurd h (hp matched limit)
  · exact plain_receivedText htext (Or.inl hlower)

/-! ## Calls -/

/-- The calls whose errors the client sorts into classes. Keys and values are any bytes here, as those
of a `ConditionalOp` are, where a `StoreOp` has text. -/
inductive RemoteCall (C : Crates) where
  | get (ns : String) (key : Bytes) (version : Option UInt64)
  | delete (ns : String) (key : Bytes)
  | putIfVersion (ns : String) (key value : Bytes) (metadata : Option C.Metadata)
      (expectedVersion : UInt64)
  | deleteIfVersion (ns : String) (key : Bytes) (expectedVersion : UInt64)
  | list (ns : String) (keyPrefix : Option Bytes) (cursor : Option String) (limit : UInt64)
  | versions (ns : String) (key : Bytes) (limit : UInt64) (fromVersion : Option UInt64)
  | namespaceCreate (ns : String) (config : NamespaceConfig C)
  | namespaceDrop (ns : String) (force : Bool)
  | namespaceInfo (config : NamespaceConfig C) (ns : String)

namespace RemoteCall

def Result : RemoteCall C → Type
  | .get .. => Entry C
  | .delete .. | .putIfVersion .. | .deleteIfVersion .. => UInt64
  | .list .. => Page
  | .versions .. => List VersionInfo
  | .namespaceCreate .. | .namespaceDrop .. => Unit
  | .namespaceInfo .. => NamespaceInfo C

def method : (op : RemoteCall C) → Method C op.Result
  | .get ns key version => RemoteStore.get ns key version
  | .delete ns key => RemoteStore.delete ns key
  | .putIfVersion ns key value metadata expected =>
    RemoteStore.putIfVersion ns key value metadata expected
  | .deleteIfVersion ns key expected => RemoteStore.deleteIfVersion ns key expected
  | .list ns keyPrefix cursor limit => RemoteStore.list ns keyPrefix cursor limit
  | .versions ns key limit fromVersion => RemoteStore.versions ns key limit fromVersion
  | .namespaceCreate ns config => RemoteStore.namespaceCreate ns config
  | .namespaceDrop ns force => RemoteStore.namespaceDrop ns force
  | .namespaceInfo config ns => RemoteStore.namespaceInfo config ns

/-- Whether the method looks for an error in the reply. -/
def checks : RemoteCall C → Bool
  | .list .. | .versions .. => false
  | _ => true

def errorOf {α : Type} : Except (StoreError V) α → Option (StoreError V)
  | .ok _ => none
  | .error e => some e

/-- The error that the server's store returns for the call. -/
def storeError (B : Backend C σ) (s : σ) : RemoteCall C → Option (StoreError C.ValidationError)
  | .get ns key version => errorOf (B.perform (.get ns (arriving key) version) s).1
  | .delete ns key => errorOf (B.perform (.delete ns (arriving key)) s).1
  | .putIfVersion ns key value metadata expected =>
    errorOf (B.perform (.putIfVersion ns (arriving key) (arriving value) metadata expected) s).1
  | .deleteIfVersion ns key expected =>
    errorOf (B.perform (.deleteIfVersion ns (arriving key) expected) s).1
  | .list ns keyPrefix cursor limit =>
    errorOf (B.perform (.list ns ((keyPrefix.map fromUtf8Lossy).map utf8) cursor limit) s).1
  | .versions ns key limit fromVersion =>
    errorOf (B.perform (.versions ns (arriving key) limit fromVersion) s).1
  | .namespaceCreate ns config => errorOf (B.perform (.namespaceCreate ns config) s).1
  | .namespaceDrop ns force => errorOf (B.perform (.namespaceDrop ns force) s).1
  | .namespaceInfo _ ns => errorOf (B.perform (.namespaceInfo ns) s).1

/-- What the handler makes of it. -/
def commandError : RemoteCall C → StoreError C.ValidationError → CommandError C
  | .get ns key _, e | .delete ns key, e => Handlers.keyError ns (arriving key) e
  | .putIfVersion ns key .., e => Handlers.putIfError ns (arriving key) e
  | .deleteIfVersion ns key _, e => Handlers.delIfError ns (arriving key) e
  | .list ns .., e => Handlers.listError ns e
  | .versions ns key .., e => Handlers.atKey ns (arriving key) e
  | .namespaceCreate .., e | .namespaceDrop .., e | .namespaceInfo .., e => .store e

theorem decode_error (op : RemoteCall C) (t : String) :
    ∃ message, op.method.decode (.error t) =
      .error (if op.checks then serverErr t else .storage message) := by
  cases op with
  | list ns keyPrefix cursor limit => exact ⟨"missing keys field", rfl⟩
  | versions ns key limit fromVersion => exact ⟨"missing versions field", rfl⟩
  | _ => exact ⟨"", rfl⟩

theorem errorOf_eq_some {α : Type} {x : Except (StoreError V) α} {e : StoreError V}
    (h : errorOf x = some e) : x = .error e := by
  cases x with
  | ok a => cases h
  | error e' =>
    cases h
    rfl

/-- The command a call arrives as replies what its handler makes of the store's error. -/
structure Serves (op : RemoteCall C) (cmd : Command) : Prop where
  parse : parseCommand (C := C) (commandFrame op.method.args) = .ok cmd
  leaf : cmd.isPipeline = false
  replies : ∀ {σ : Type} (B : Backend C σ) (d : Dispatcher C σ) (e : StoreError C.ValidationError),
    op.storeError B d.store = some e →
    ((dispatch B.hasEngine cmd).run (Dispatcher.answer B) d).1 = .error (op.commandError e)

/-- What the call sends of metadata and schemas is read back as it was. -/
def RoundTrips : RemoteCall C → Prop
  | .putIfVersion _ _ _ metadata _ => ∀ m ∈ metadata, MetadataRoundTrips m
  | .namespaceCreate _ config => ∀ s ∈ config.metaSchema, SchemaRoundTrips s
  | _ => True

theorem exists_serves {op : RemoteCall C} (h : op.RoundTrips) : ∃ cmd, op.Serves cmd := by
  cases op with
  | get ns key version =>
    have hargs : (RemoteStore.get (C := C) ns key version).args =
        (RemoteStore.get (C := C) ns (arriving key) version).args := by
      simp [RemoteStore.get, arriving]
    refine ⟨_, hargs ▸ RemoteStore.parse_get ns (fromUtf8Lossy key) version, rfl, ?_⟩
    intro σ B d e he
    simp only [dispatch, Handlers.get, run_query]
    rw [errorOf_eq_some he]
    rfl
  | delete ns key =>
    have hargs : (RemoteStore.delete (C := C) ns key).args =
        (RemoteStore.delete (C := C) ns (arriving key)).args := by
      simp [RemoteStore.delete, arriving]
    refine ⟨_, hargs ▸ RemoteStore.parse_delete ns (fromUtf8Lossy key), rfl, ?_⟩
    intro σ B d e he
    simp only [dispatch, Handlers.delete, run_query]
    rw [errorOf_eq_some he]
    rfl
  | putIfVersion ns key value metadata expected =>
    have hargs : (RemoteStore.putIfVersion ns key value metadata expected).args =
        (RemoteStore.putIfVersion ns (arriving key) (arriving value) metadata expected).args := by
      simp [RemoteStore.putIfVersion, arriving]
    refine ⟨_, hargs ▸ RemoteStore.parse_putIfVersion ns (fromUtf8Lossy key)
      (fromUtf8Lossy value) metadata expected h, rfl, ?_⟩
    intro σ B d e he
    simp only [dispatch, Handlers.putIf, parseMetadata_map h, run_query]
    rw [errorOf_eq_some he]
    rfl
  | deleteIfVersion ns key expected =>
    have hargs : (RemoteStore.deleteIfVersion (C := C) ns key expected).args =
        (RemoteStore.deleteIfVersion (C := C) ns (arriving key) expected).args := by
      simp [RemoteStore.deleteIfVersion, arriving]
    refine ⟨_, hargs ▸ RemoteStore.parse_deleteIfVersion ns (fromUtf8Lossy key) expected, rfl, ?_⟩
    intro σ B d e he
    simp only [dispatch, Handlers.delIf, run_query]
    rw [errorOf_eq_some he]
    rfl
  | list ns keyPrefix cursor limit =>
    have hargs : (RemoteStore.list (C := C) ns keyPrefix cursor limit).args =
        (RemoteStore.list (C := C) ns ((keyPrefix.map fromUtf8Lossy).map utf8) cursor
          limit).args := by
      simp [RemoteStore.list, Function.comp_def]
    refine ⟨_, hargs ▸ RemoteStore.parse_list ns (keyPrefix.map fromUtf8Lossy) cursor limit, rfl,
      ?_⟩
    intro σ B d e he
    simp only [dispatch, Handlers.list, run_query, Option.getD_some]
    rw [errorOf_eq_some he]
    rfl
  | versions ns key limit fromVersion =>
    have hargs : (RemoteStore.versions (C := C) ns key limit fromVersion).args =
        (RemoteStore.versions (C := C) ns (arriving key) limit fromVersion).args := by
      simp [RemoteStore.versions, arriving]
    refine ⟨_, hargs ▸ RemoteStore.parse_versions ns (fromUtf8Lossy key) limit fromVersion, rfl, ?_⟩
    intro σ B d e he
    simp only [dispatch, Handlers.versions, run_query, Option.getD_some]
    rw [errorOf_eq_some he]
    rfl
  | namespaceCreate ns config =>
    obtain ⟨schema, hparse, hconfig⟩ := RemoteStore.parse_namespaceCreate ns config h
    refine ⟨_, hparse, rfl, ?_⟩
    intro σ B d e he
    simp only [dispatch, Handlers.namespaceCreate, hconfig]
    change Handlers.acknowledge (B.perform (.namespaceCreate ns config) d.store).1 = _
    rw [errorOf_eq_some he]
    rfl
  | namespaceDrop ns force =>
    refine ⟨_, RemoteStore.parse_namespaceDrop ns force, rfl, ?_⟩
    intro σ B d e he
    change Handlers.acknowledge (B.perform (.namespaceDrop ns force) d.store).1 = _
    rw [errorOf_eq_some he]
    rfl
  | namespaceInfo config ns =>
    refine ⟨_, RemoteStore.parse_namespaceInfo config ns, rfl, ?_⟩
    intro σ B d e he
    simp only [dispatch, Handlers.namespaceInfo, run_query]
    rw [errorOf_eq_some he]
    rfl

/-! ## What the caller gets -/

/-- The class of the error that the call returns to its caller. -/
def returned (B : Backend C σ) (auth : Option C.AuthContext) (d : Dispatcher C σ)
    (op : RemoteCall C) : Option ErrorClass :=
  match (op.method.run (exchange B auth) d).1 with
  | .error (.store e) => e.errorClass
  | _ => none

/-- A method that does not look for errors misses its field. -/
theorem returned_of_reply {B : Backend C σ} {auth : Option C.AuthContext} {d : Dispatcher C σ}
    {op : RemoteCall C} {frame : Resp3Frame} {rest : Bytes} {t : String}
    (hread : readFrame false (writeCommand op.method.args) = .done (some frame) rest)
    (hreply : (serveFrame B auth frame d).1 = .simpleError t) :
    op.returned B auth d = if op.checks then
      (serverErr (V := C.ValidationError) (receivedText t)).errorClass else none := by
  obtain ⟨message, hdecode⟩ := op.decode_error (receivedText t)
  have hrun : (op.method.run (exchange B auth) d).1 =
      .error (.store (if op.checks then serverErr (receivedText t) else .storage message)) := by
    simp only [Method.run, exchange, submit, answerTo_of_read hread, hreply, receive_simpleError,
      hdecode]
    rfl
  unfold returned
  rw [hrun]
  split_ifs
  · rfl
  · rfl

def Permitted (op : RemoteCall C) (auth : Option C.AuthContext) : Prop :=
  ∀ cmd, parseCommand (C := C) (commandFrame op.method.args) = .ok cmd →
    aclCheck auth cmd.aclRequirement = none

theorem serveFrame_storeError {B : Backend C σ} {auth : Option C.AuthContext}
    {d : Dispatcher C σ} {op : RemoteCall C} {e : StoreError C.ValidationError} (h : op.RoundTrips)
    (hacl : op.Permitted auth) (he : op.storeError B d.store = some e) :
    (serveFrame B auth (commandFrame op.method.args) d).1 =
      .simpleError (op.commandError e).text := by
  obtain ⟨cmd, hserves⟩ := exists_serves h
  have hrun := hserves.replies B d e he
  simp only [serveFrame, hserves.parse, execute_leaf hserves.leaf, executeLeaf,
    hacl cmd hserves.parse, hrun]
  rfl

/-- The words before the text of an error that has none of its own. -/
def words : RemoteCall C → String
  | .get ns key _ | .delete ns key | .putIfVersion ns key .. | .deleteIfVersion ns key _
  | .versions ns key .. => "internal error: " ++ (ns ++ "/" ++ fromUtf8Lossy key ++ ": ")
  | .list ns .. => "internal error: " ++ (ns ++ ": ")
  | .namespaceCreate .. | .namespaceDrop .. | .namespaceInfo .. => "store error: "

/-- The errors that a caller gets as what they are. GET and both deletes have a text for a missing
key and the conditional writes one for a conflict. Any other error has to be known by the phrase in
its text, with the key and the namespace before it. -/
def Keeps : RemoteCall C → StoreError C.ValidationError → Prop
  | .list .., _ | .versions .., _ => False
  | .get .., .notFound | .delete .., .notFound | .deleteIfVersion .., .notFound
  | .putIfVersion .., .versionConflict _ | .deleteIfVersion .., .versionConflict _ => True
  | op, e => e.errorClass.elim False fun k =>
    k.Phrased (receivedText (op.words ++ C.storeErrorText e))

section
variable {op : RemoteCall C} {e : StoreError C.ValidationError} {k : ErrorClass}

theorem received_notFound :
    (serverErr (V := V) (receivedText (CommandError.notFound (C := C)).text)).errorClass =
      some .notFound := by
  have htext : receivedText (CommandError.notFound (C := C)).text = "not found" := by
    change receivedText "not found" = _
    decide
  have hphrase : Handlers.contains "not found" "not found" = true := by decide
  rw [htext]
  exact (errorClass_serverErr (plain_of_head (c := 'n') rfl (by decide) (by decide))).mpr hphrase

theorem received_versionConflict (current : UInt64) :
    (serverErr (V := V)
      (receivedText (CommandError.versionConflict (C := C) current).text)).errorClass =
        some .versionConflict := by
  have hline : '\n' ∉ (CommandError.versionConflict (C := C) current).text.toList :=
    (clean_text (.versionConflict current)).mpr clean_nil
  rw [receivedText, if_neg hline, serverErr_versionConflict]
  rfl

/-- No text brings back a missing namespace. -/
theorem not_received_namespaceNotFound (ns : String) :
    (serverErr (V := V)
      (receivedText (CommandError.namespaceNotFound (C := C) ns).text)).errorClass ≠
        some .namespaceNotFound := by
  have hplain : Plain (receivedText (CommandError.namespaceNotFound (C := C) ns).text) :=
    plain_text (fun _ h => by cases h) (fun _ _ h => by cases h)
  exact fun h => (errorClass_serverErr hplain).mp h

theorem received_internal {words text : String} :
    (serverErr (V := V)
      (receivedText (CommandError.internal (C := C) (words ++ text)).text)).errorClass = some k ↔
        k.Phrased (receivedText ("internal error: " ++ words ++ text)) := by
  have hplain : Plain (receivedText (CommandError.internal (C := C) (words ++ text)).text) :=
    plain_text (fun _ h => by cases h) (fun _ _ h => by cases h)
  rw [errorClass_serverErr hplain, String.append_assoc]
  rfl

theorem received_store :
    (serverErr (V := V) (receivedText (CommandError.store e).text)).errorClass = some k ↔
      k.Phrased (receivedText ("store error: " ++ C.storeErrorText e)) :=
  errorClass_serverErr (plain_text (fun _ h => by cases h) (fun _ _ h => by cases h))

theorem received_atKey {ns : String} {key : Bytes} :
    (serverErr (V := V) (receivedText (Handlers.atKey ns (arriving key) e).text)).errorClass =
      some k ↔ k.Phrased (receivedText ("internal error: " ++
        (ns ++ "/" ++ fromUtf8Lossy key ++ ": ") ++ C.storeErrorText e)) := by
  rw [Handlers.atKey, fromUtf8Lossy_utf8]
  exact received_internal

theorem received_commandError (hk : e.errorClass = some k) (hchecks : op.checks = true) :
    (serverErr (V := V) (receivedText (op.commandError e).text)).errorClass = some k ↔
      op.Keeps e := by
  cases op with
  | list ns keyPrefix cursor limit => cases hchecks
  | versions ns key limit fromVersion => cases hchecks
  | get ns key version =>
    cases e with
    | notFound =>
      cases hk
      exact iff_of_true received_notFound trivial
    | namespaceNotFound name =>
      cases hk
      exact iff_of_false (not_received_namespaceNotFound ns) id
    | _ => cases hk <;> exact received_atKey
  | delete ns key =>
    cases e with
    | notFound =>
      cases hk
      exact iff_of_true received_notFound trivial
    | namespaceNotFound name =>
      cases hk
      exact iff_of_false (not_received_namespaceNotFound ns) id
    | _ => cases hk <;> exact received_atKey
  | putIfVersion ns key value metadata expected =>
    cases e with
    | versionConflict current =>
      cases hk
      exact iff_of_true (received_versionConflict current) trivial
    | namespaceNotFound name =>
      cases hk
      exact iff_of_false (not_received_namespaceNotFound ns) id
    | _ => cases hk <;> exact received_atKey
  | deleteIfVersion ns key expected =>
    cases e with
    | notFound =>
      cases hk
      exact iff_of_true received_notFound trivial
    | versionConflict current =>
      cases hk
      exact iff_of_true (received_versionConflict current) trivial
    | namespaceNotFound name =>
      cases hk
      exact iff_of_false (not_received_namespaceNotFound ns) id
    | _ => cases hk <;> exact received_atKey
  | namespaceCreate ns config => cases e <;> cases hk <;> exact received_store
  | namespaceDrop ns force => cases e <;> cases hk <;> exact received_store
  | namespaceInfo config ns => cases e <;> cases hk <;> exact received_store

end

theorem returned_of_storeError {B : Backend C σ} {auth : Option C.AuthContext}
    {d : Dispatcher C σ} {op : RemoteCall C} {e : StoreError C.ValidationError} (h : op.RoundTrips)
    (hlimits : WithinLimits op.method.args) (hacl : op.Permitted auth)
    (he : op.storeError B d.store = some e) :
    op.returned B auth d = if op.checks then
      (serverErr (V := C.ValidationError) (receivedText (op.commandError e).text)).errorClass
        else none :=
  returned_of_reply (readFrame_writeCommand hlimits) (serveFrame_storeError h hacl he)

end RemoteCall

theorem plain_isOther {c : CommandError C} (h : c.isOther = true) {t : String}
    (ht : t = c.text ∨ t = "ERR " ++ c.text) : Plain (receivedText t) := by
  rcases ht with rfl | rfl
  · refine plain_text ?_ ?_
    · rintro current rfl
      cases h
    · rintro matched limit rfl
      cases h
  · exact plain_receivedText (c := 'E') (String.toList_append ..) (Or.inr rfl)

/-- An error of the store keeps its class exactly when the call keeps it, and a text of another
error is taken for no class exactly when the method does not look or finds no phrase in it, also in
what the text quotes. -/
theorem error_class_survives_iff (B : Backend C σ) (auth : Option C.AuthContext)
    (d : Dispatcher C σ) (op : RemoteCall C) :
    (∀ e k, op.RoundTrips → WithinLimits op.method.args → op.Permitted auth →
      op.storeError B d.store = some e → e.errorClass = some k →
      (op.returned B auth d = some k ↔ op.Keeps e)) ∧
    ∀ (c : CommandError C) t frame rest, c.isOther = true → t = c.text ∨ t = "ERR " ++ c.text →
      readFrame false (writeCommand op.method.args) = .done (some frame) rest →
      (serveFrame B auth frame d).1 = .simpleError t →
      (op.returned B auth d = none ↔ (op.checks = true →
        ∀ phrase ∈ classPhrases, Handlers.contains (receivedText t) phrase = false)) := by
  constructor
  · intro e k h hlimits hacl he hk
    rw [RemoteCall.returned_of_storeError h hlimits hacl he]
    split_ifs with hchecks
    · exact RemoteCall.received_commandError hk hchecks
    · -- LIST and VERSIONS keep no error.
      refine iff_of_false (by simp) ?_
      cases op <;> first | exact id | exact absurd rfl hchecks
  · intro c t frame rest hc ht hread hreply
    rw [RemoteCall.returned_of_reply hread hreply]
    split_ifs with hchecks
    · rw [errorClass_serverErr_eq_none (plain_isOther hc ht)]
      exact ⟨fun hsilent _ => hsilent, fun hsilent => hsilent hchecks⟩
    · exact iff_of_true rfl (fun h => absurd h hchecks)

namespace Memory

/-- No namespace exists, no older version can be read and no cursor is valid. -/
def performRefusing : (c : Call crates) → State → c.Answer × State
  | .get ns _ none, s => (.error (.namespaceNotFound ns), s)
  | .get _ _ (some _), s => (.error (.storage "checksum mismatch"), s)
  | .list _ _ (some cursor) _, s => (.error (.invalidCursor cursor), s)
  | c, s => perform c s

def refusing : Backend crates State where
  hasEngine := true
  perform := performRefusing

theorem permitted_admin (op : RemoteCall crates) : op.Permitted (some admin) := by
  intro cmd _
  cases cmd.aclRequirement <;> rfl

/-- A missing key is told as a missing key, and a denied command as none of the classes. -/
theorem missing_key_survives :
    (RemoteCall.get "a" [107] none).returned backend (some admin) (fresh []) = some .notFound ∧
      (RemoteCall.get "a" [107] none).returned backend (some writer) (fresh []) = none := by
  constructor
  · exact ((error_class_survives_iff backend (some admin) (fresh [])
      (.get "a" [107] none)).1 .notFound .notFound trivial ⟨by decide, by decide⟩
      (permitted_admin _) rfl rfl).mpr trivial
  · refine ((error_class_survives_iff backend (some writer) (fresh [])
      (.get "a" [107] none)).2 (.denied "no grant") _ _ _ rfl (Or.inl rfl)
      (readFrame_writeCommand ⟨by decide, by decide⟩) rfl).mpr (fun _ => by decide)

/-- A missing namespace is told as a missing key, an invalid cursor as no class at all, and a
failed read of the key "not found" as a missing key. -/
theorem classes_confused :
    ((RemoteCall.get "b" [107] none).storeError refusing [] = some (.namespaceNotFound "b") ∧
      (RemoteCall.get "b" [107] none).returned refusing (some admin) (fresh []) = some .notFound) ∧
    ((RemoteCall.list "a" none (some "x") 10).storeError refusing [] = some (.invalidCursor "x") ∧
      (RemoteCall.list "a" none (some "x") 10).returned refusing (some admin) (fresh []) = none) ∧
    ((RemoteCall.get "a" (utf8 "not found") (some 1)).storeError refusing [] =
        some (.storage "checksum mismatch") ∧
      (RemoteCall.get "a" (utf8 "not found") (some 1)).returned refusing (some admin) (fresh []) =
        some .notFound) := by
  refine ⟨⟨rfl, ?_⟩, ⟨rfl, ?_⟩, rfl, ?_⟩
  · rw [RemoteCall.returned_of_storeError (by trivial) ⟨by decide, by decide⟩
      (permitted_admin _) rfl]
    decide
  · rw [RemoteCall.returned_of_storeError (by trivial) ⟨by decide, by decide⟩
      (permitted_admin _) rfl]
    decide
  · rw [RemoteCall.returned_of_storeError (by trivial) ⟨by decide, by decide⟩
      (permitted_admin _) rfl]
    decide

end Memory

end Shroudb
