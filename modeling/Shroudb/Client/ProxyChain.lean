import Shroudb.Client.Simulation
import Shroudb.Server.ReplyFraming

/-! Conflicts of conditional writes, told through servers whose store is a `RemoteStore`. -/
namespace Shroudb
open Wire Resp3Frame

variable {C : Crates} {σ τ V : Type}

/-! ## The texts of the errors -/

theorem not_whitespace_of_isDigit {c : Char} (h : c.isDigit = true) : isWhitespace c = false := by
  rw [Char.isDigit, Bool.and_eq_true, decide_eq_true_iff, decide_eq_true_iff] at h
  have hlow : 48 ≤ c.toNat := h.1
  have hhigh : c.toNat ≤ 57 := h.2
  simp only [isWhitespace, Bool.or_eq_false_iff, Bool.and_eq_false_iff, decide_eq_false_iff_not,
    beq_eq_false_iff_ne]
  omega

/-- Words and a number after them hold no white space if the words do not. -/
theorem not_whitespace_number {w : String} (h : w.toList.any isWhitespace = false) (n : UInt64) :
    ∀ c ∈ (w ++ printUInt64 n).toList, isWhitespace c = false := by
  intro c hc
  rw [String.toList_append, List.mem_append] at hc
  rcases hc with hc | hc
  · simpa using List.any_eq_false.mp h c hc
  · rw [printUInt64, Nat.toList_repr] at hc
    exact not_whitespace_of_isDigit (toDigits_isDigit hc)

theorem parseU64_print (n : UInt64) : parseU64 (printUInt64 n).toList = some n := by
  simp [parseU64, Except.toOption]

theorem parseVersionConflict_text (current : UInt64) :
    parseVersionConflict ("VERSIONCONFLICT current=" ++ printUInt64 current) = some current := by
  have hsplit : "VERSIONCONFLICT current=" ++ printUInt64 current =
      "VERSIONCONFLICT " ++ ("current=" ++ printUInt64 current) := by
    rw [← String.append_assoc]
    rfl
  have hdrop : ("current=" ++ printUInt64 current).toList.dropWhile isWhitespace =
      ("current=" ++ printUInt64 current).toList := by
    rw [String.toList_append]
    rfl
  rw [parseVersionConflict, hsplit, stripStart_append, Option.bind_eq_bind, Option.bind_some,
    hdrop, stripStart_append, Option.bind_some, parseU64_print]

theorem splitWhitespace_two {xs ys : List Char} (hx : ∀ c ∈ xs, isWhitespace c = false)
    (hy : ∀ c ∈ ys, isWhitespace c = false) (hxs : xs ≠ []) (hys : ys ≠ []) :
    splitWhitespace (xs ++ ' ' :: ys) = [xs, ys] := by
  rw [splitWhitespace, List.splitOnP_append_cons_of_forall_mem hx ' ' (by decide),
    List.splitOnP_eq_singleton hy]
  simp [hxs, hys]

theorem parsePrefixTooLarge_text (matched limit : UInt64) :
    parsePrefixTooLarge
      ("PREFIXTOOLARGE matched=" ++ printUInt64 matched ++ " limit=" ++ printUInt64 limit) =
        some (matched, limit) := by
  have hsplit : "PREFIXTOOLARGE matched=" ++ printUInt64 matched ++ " limit=" ++ printUInt64 limit =
      "PREFIXTOOLARGE " ++
        ("matched=" ++ printUInt64 matched ++ (" limit=" ++ printUInt64 limit)) := by
    simp only [← String.append_assoc]
    rfl
  have hbody : ("matched=" ++ printUInt64 matched ++ (" limit=" ++ printUInt64 limit)).toList =
      ("matched=" ++ printUInt64 matched).toList ++ ' ' :: ("limit=" ++ printUInt64 limit).toList := by
    simp only [String.toList_append]
    rfl
  have hdrop : (("matched=" ++ printUInt64 matched).toList ++
      ' ' :: ("limit=" ++ printUInt64 limit).toList).dropWhile isWhitespace =
        ("matched=" ++ printUInt64 matched).toList ++
          ' ' :: ("limit=" ++ printUInt64 limit).toList := by
    rw [String.toList_append]
    rfl
  have hlimit : stripStart "matched=" ("limit=" ++ printUInt64 limit).toList = none := by
    rw [String.toList_append]
    exact stripStart_cons rfl (by decide)
  have hfields := splitWhitespace_two
    (not_whitespace_number (w := "matched=") rfl matched)
    (not_whitespace_number (w := "limit=") rfl limit)
    (by simp [String.toList_append]) (by simp [String.toList_append])
  rw [parsePrefixTooLarge, hsplit, stripStart_append, Option.bind_eq_bind, Option.bind_some, hbody,
    hdrop, hfields]
  simp only [scanPrefixTooLarge, stripStart_append, hlimit, parseU64_print]
  rfl

/-- Every error but the two conflicts starts with a small letter. -/
theorem text_head (e : CommandError C) :
    (∃ current, e = .versionConflict current) ∨ (∃ matched limit, e = .prefixTooLarge matched limit) ∨
      ∃ c cs, e.text.toList = c :: cs ∧ c.isLower = true := by
  have words : ∀ {s t : String} {c : Char} {cs : List Char}, s.toList = c :: cs →
      c.isLower = true → ∃ c cs, (s ++ t).toList = c :: cs ∧ c.isLower = true := by
    intro s t c cs hs hc
    exact ⟨c, cs ++ t.toList, by rw [String.toList_append, hs, List.cons_append], hc⟩
  cases e with
  | versionConflict current => exact Or.inl ⟨current, rfl⟩
  | prefixTooLarge matched limit => exact Or.inr (Or.inl ⟨matched, limit, rfl⟩)
  | notFound =>
    have htext : "not found".toList = 'n' :: "ot found".toList := by decide
    exact Or.inr (Or.inr ⟨'n', _, htext, by decide⟩)
  | namespaceNotFound ns => exact Or.inr (Or.inr (words (c := 'n') rfl (by decide)))
  | namespaceExists ns => exact Or.inr (Or.inr (words (c := 'n') rfl (by decide)))
  | namespaceNotEmpty ns => exact Or.inr (Or.inr (words (c := 'n') rfl (by decide)))
  | versionNotFound version => exact Or.inr (Or.inr (words (c := 'v') rfl (by decide)))
  | validationFailed errors => exact Or.inr (Or.inr (words (c := 'v') rfl (by decide)))
  | denied reason => exact Or.inr (Or.inr (words (c := 'p') rfl (by decide)))
  | notAuthenticated =>
    have htext : "not authenticated".toList = 'n' :: "ot authenticated".toList := by decide
    exact Or.inr (Or.inr ⟨'n', _, htext, by decide⟩)
  | notReady state =>
    obtain ⟨c, cs, htext, hc⟩ := words (s := "not ready: server is in ") (t := state) (c := 'n')
      rfl (by decide)
    exact Or.inr (Or.inr (words htext hc))
  | badArg message quoted =>
    obtain ⟨c, cs, htext, hc⟩ := words (s := "bad argument: ") (t := message) (c := 'b')
      rfl (by decide)
    exact Or.inr (Or.inr (words htext hc))
  | pipelineAborted index reason =>
    obtain ⟨c, cs, htext, hc⟩ := words (s := "pipeline aborted: command ") (t := index.repr)
      (c := 'p') rfl (by decide)
    obtain ⟨c, cs, htext, hc⟩ := words (t := " failed: ") htext hc
    exact Or.inr (Or.inr (words htext hc))
  | store e => exact Or.inr (Or.inr (words (c := 's') rfl (by decide)))
  | internal message => exact Or.inr (Or.inr (words (c := 'i') rfl (by decide)))

theorem serverErr_versionConflict (current : UInt64) :
    serverErr (V := V) (CommandError.versionConflict (C := C) current).text =
      .versionConflict current := by
  have hparse : parseVersionConflict (CommandError.versionConflict (C := C) current).text =
      some current := parseVersionConflict_text current
  rw [serverErr, hparse]

theorem serverErr_prefixTooLarge (matched limit : UInt64) :
    serverErr (V := V) (CommandError.prefixTooLarge (C := C) matched limit).text =
      .prefixTooLarge matched limit := by
  have hparse : parsePrefixTooLarge (CommandError.prefixTooLarge (C := C) matched limit).text =
      some (matched, limit) := parsePrefixTooLarge_text matched limit
  have hother : parseVersionConflict (CommandError.prefixTooLarge (C := C) matched limit).text =
      none := by
    change parseVersionConflict ("PREFIXTOOLARGE matched=" ++ printUInt64 matched ++ " limit=" ++
      printUInt64 limit) = none
    simp only [parseVersionConflict, String.toList_append, List.append_assoc]
    rfl
  rw [serverErr, hother]
  simp only [hparse]

/-- No other error is taken for a conflict. -/
theorem serverErr_conflict (e : CommandError C) :
    (∀ current, serverErr (V := V) e.text = .versionConflict current →
      e = .versionConflict current) ∧
    ∀ matched limit, serverErr (V := V) e.text = .prefixTooLarge matched limit →
      e = .prefixTooLarge matched limit := by
  rcases text_head e with ⟨current, rfl⟩ | ⟨matched, limit, rfl⟩ | ⟨c, cs, htext, hc⟩
  · rw [serverErr_versionConflict]
    refine ⟨fun _ h => ?_, fun _ _ h => ?_⟩ <;> cases h
    rfl
  · rw [serverErr_prefixTooLarge]
    refine ⟨fun _ h => ?_, fun _ _ h => ?_⟩ <;> cases h
    rfl
  · have hv : 'V' ≠ c := by rintro rfl; exact absurd hc (by decide)
    have hp : 'P' ≠ c := by rintro rfl; exact absurd hc (by decide)
    have hversion : parseVersionConflict e.text = none := by
      rw [parseVersionConflict, htext, stripStart_cons rfl hv]
      rfl
    have hcap : parsePrefixTooLarge e.text = none := by
      rw [parsePrefixTooLarge, htext, stripStart_cons rfl hp]
      rfl
    rw [serverErr, hversion]
    simp only [hcap]
    split_ifs <;> simp

/-! ## `RemoteStore` as the store of a server -/

/-- What the store trait's caller gets. A panic takes the connection with it. -/
def storeAnswer {α : Type} :
    Except (RemoteFailure C.ValidationError) α × τ → Except (StoreError C.ValidationError) α × τ
  | (.ok a, s) => (.ok a, s)
  | (.error (.store e), s) => (.error e, s)
  | (.error (.panic reason), s) => (.error (.connection reason), s)

/-- A store that sends its calls to a server. `other` are the remaining calls, those of an engine
among them. -/
def RemoteStore.backend (other : (c : Call C) → τ → c.Answer × τ)
    (send : List String → τ → Except ReadFailure Response × τ) : Backend C τ where
  hasEngine := false
  perform
    | .get ns key version, s => storeAnswer ((RemoteStore.get ns key version).run send s)
    | .delete ns key, s => storeAnswer ((RemoteStore.delete ns key).run send s)
    | .putIfVersion ns key value metadata expected, s =>
      storeAnswer ((RemoteStore.putIfVersion ns key value metadata expected).run send s)
    | .deleteIfVersion ns key expected, s =>
      storeAnswer ((RemoteStore.deleteIfVersion ns key expected).run send s)
    | .deletePrefix ns keyPrefix, s =>
      storeAnswer ((RemoteStore.deletePrefix ns keyPrefix).run send s)
    | .list ns keyPrefix cursor limit, s =>
      storeAnswer ((RemoteStore.list ns keyPrefix cursor limit).run send s)
    | .versions ns key limit fromVersion, s =>
      storeAnswer ((RemoteStore.versions ns key limit fromVersion).run send s)
    | .namespaceCreate ns config, s =>
      storeAnswer ((RemoteStore.namespaceCreate ns config).run send s)
    | .namespaceDrop ns force, s => storeAnswer ((RemoteStore.namespaceDrop ns force).run send s)
    | .namespaceList cursor limit, s =>
      storeAnswer ((RemoteStore.namespaceList cursor limit).run send s)
    | .namespaceAlter ns config, s =>
      storeAnswer ((RemoteStore.namespaceAlter ns config).run send s)
    | c, s => other c s

/-- The state of `n` servers one behind the other, and of the store behind the last. -/
@[reducible] def ChainState (C : Crates) (σ : Type) : Nat → Type
  | 0 => σ
  | n + 1 => Dispatcher C (ChainState C σ n)

/-- The store in front of `n` servers. `ctx k` is who the client of the server with `k` servers
behind it is authenticated as. -/
def chain (B : Backend C σ) (ctx : Nat → C.AuthContext)
    (other : ∀ n, (c : Call C) → ChainState C σ (n + 1) → c.Answer × ChainState C σ (n + 1)) :
    (n : Nat) → Backend C (ChainState C σ n)
  | 0 => B
  | n + 1 => RemoteStore.backend (other n) (exchange (chain B ctx other n) (some (ctx n)))

def innermost : (n : Nat) → ChainState C σ n → σ
  | 0, s => s
  | n + 1, d => innermost n d.store

/-! ## Conditional operations -/

/-- The calls with a conflict of their own. Keys and values are any bytes, which a `StoreOp` does not
have: a conflict is told for those that are no text too. -/
inductive ConditionalOp (C : Crates) where
  | putIfVersion (ns : String) (key value : Bytes) (metadata : Option C.Metadata)
      (expectedVersion : UInt64)
  | deleteIfVersion (ns : String) (key : Bytes) (expectedVersion : UInt64)
  | deletePrefix (ns : String) (keyPrefix : Bytes)

namespace ConditionalOp

def ns : ConditionalOp C → String
  | .putIfVersion ns .. | .deleteIfVersion ns .. | .deletePrefix ns _ => ns

def perform (B : Backend C σ) :
    ConditionalOp C → σ → Except (StoreError C.ValidationError) UInt64 × σ
  | .putIfVersion ns key value metadata expected, s =>
    B.perform (.putIfVersion ns key value metadata expected) s
  | .deleteIfVersion ns key expected, s => B.perform (.deleteIfVersion ns key expected) s
  | .deletePrefix ns keyPrefix, s => B.perform (.deletePrefix ns keyPrefix) s

def method : ConditionalOp C → Method C UInt64
  | .putIfVersion ns key value metadata expected =>
    RemoteStore.putIfVersion ns key value metadata expected
  | .deleteIfVersion ns key expected => RemoteStore.deleteIfVersion ns key expected
  | .deletePrefix ns keyPrefix => RemoteStore.deletePrefix ns keyPrefix

/-- The operation as it arrives at the next store. -/
def sent : ConditionalOp C → ConditionalOp C
  | .putIfVersion ns key value metadata expected =>
    .putIfVersion ns (arriving key) (arriving value) metadata expected
  | .deleteIfVersion ns key expected => .deleteIfVersion ns (arriving key) expected
  | .deletePrefix ns keyPrefix => .deletePrefix ns (arriving keyPrefix)

/-- What arrives behind `n` servers. -/
def received (op : ConditionalOp C) : Nat → ConditionalOp C
  | 0 => op
  | _ + 1 => op.sent

/-- The error that tells of the operation's own conflict. -/
def Conflict : ConditionalOp C → StoreError C.ValidationError → Prop
  | .putIfVersion .., e | .deleteIfVersion .., e => ∃ current, e = .versionConflict current
  | .deletePrefix .., e => ∃ matched limit, e = .prefixTooLarge matched limit

def metadata : ConditionalOp C → Option C.Metadata
  | .putIfVersion _ _ _ metadata _ => metadata
  | .deleteIfVersion .. | .deletePrefix .. => none

/-- A request that the servers read and parse. -/
structure Sendable (op : ConditionalOp C) : Prop where
  limits : WithinLimits op.method.args
  nonempty : ∀ ns keyPrefix, op = .deletePrefix ns keyPrefix → arriving keyPrefix ≠ []
  metadata : ∀ m ∈ op.metadata, MetadataRoundTrips m

theorem sent_sent (op : ConditionalOp C) : op.sent.sent = op.sent := by
  cases op <;> simp [sent]

theorem sent_method_args (op : ConditionalOp C) : op.sent.method.args = op.method.args := by
  cases op <;>
    simp [sent, method, RemoteStore.putIfVersion, RemoteStore.deleteIfVersion,
      RemoteStore.deletePrefix]

theorem received_sent (op : ConditionalOp C) (n : Nat) : op.sent.received n = op.sent := by
  cases n with
  | zero => rfl
  | succ n => exact op.sent_sent

theorem Sendable.sent {op : ConditionalOp C} (h : op.Sendable) : op.sent.Sendable := by
  refine ⟨op.sent_method_args ▸ h.limits, ?_, ?_⟩
  · intro ns keyPrefix hop
    cases op with
    | deletePrefix ns' keyPrefix' =>
      cases hop
      rw [arriving_arriving]
      exact h.nonempty _ _ rfl
    | _ => cases hop
  · cases op <;> exact h.metadata

theorem Conflict.sent {op : ConditionalOp C} {e : StoreError C.ValidationError}
    (h : op.Conflict e) : op.sent.Conflict e := by
  cases op <;> exact h

end ConditionalOp

/-! ## One hop, and many -/

theorem exchange_error {B : Backend C σ} {ctx : C.AuthContext} {args : List String} {cmd : Command}
    {d : Dispatcher C σ} {e : CommandError C} (hlimits : WithinLimits args)
    (hparse : parseCommand (C := C) (commandFrame args) = .ok cmd)
    (hexec : (execute B (some ctx) cmd d).1 = .error e) (hquoted : e.quoted = []) :
    (exchange B (some ctx) args d).1 = .ok (.error e.text) := by
  have hsafe : LineSafe (responseToFrame (CommandResponse.error e)) :=
    (clean_error e).mpr (by simp [hquoted])
  rw [exchange_eq hlimits hparse, hexec]
  exact receive_writeFrame hsafe trivial

/-- The command an operation arrives as reports the operation's own conflict. -/
structure ConditionalOp.Reports (op : ConditionalOp C) (cmd : Command) : Prop where
  parse : parseCommand (C := C) (commandFrame op.method.args) = .ok cmd
  leaf : cmd.isPipeline = false
  requirement : cmd.aclRequirement = .inNamespace op.ns .write none
  conflict : ∀ {σ : Type} (B : Backend C σ) (d : Dispatcher C σ) (e : StoreError C.ValidationError),
    op.Conflict e → (op.sent.perform B d.store).1 = .error e →
    ∃ error, ((dispatch B.hasEngine cmd).run (Dispatcher.answer B) d).1 = .error error ∧
      error.quoted = [] ∧ serverErr error.text = e

theorem ConditionalOp.exists_reports {op : ConditionalOp C} (hsend : op.Sendable) :
    ∃ cmd, op.Reports cmd := by
  have hargs := op.sent_method_args
  cases op with
  | putIfVersion ns key value metadata expected =>
    refine ⟨_, hargs ▸ RemoteStore.parse_putIfVersion ns (fromUtf8Lossy key)
      (fromUtf8Lossy value) metadata expected hsend.metadata, rfl, rfl, ?_⟩
    rintro σ B d _ ⟨current, rfl⟩ hanswer
    refine ⟨.versionConflict current, ?_, rfl, serverErr_versionConflict current⟩
    have hmetadata : Handlers.parseMetadata (metadata.map C.metadataToJson) = .ok metadata :=
      parseMetadata_map hsend.metadata
    rw [sent, perform] at hanswer
    simp only [dispatch, Handlers.putIf, hmetadata, run_query, hanswer]
    rfl
  | deleteIfVersion ns key expected =>
    refine ⟨_, hargs ▸ RemoteStore.parse_deleteIfVersion ns (fromUtf8Lossy key) expected, rfl, rfl,
      ?_⟩
    rintro σ B d _ ⟨current, rfl⟩ hanswer
    refine ⟨.versionConflict current, ?_, rfl, serverErr_versionConflict current⟩
    rw [sent, perform] at hanswer
    simp only [dispatch, Handlers.delIf, run_query, hanswer]
    rfl
  | deletePrefix ns keyPrefix =>
    refine ⟨_, hargs ▸ RemoteStore.parse_deletePrefix ns (fromUtf8Lossy keyPrefix)
      (hsend.nonempty ns keyPrefix rfl), rfl, rfl, ?_⟩
    rintro σ B d _ ⟨matched, limit, rfl⟩ hanswer
    refine ⟨.prefixTooLarge matched limit, ?_, rfl, serverErr_prefixTooLarge matched limit⟩
    rw [sent, perform] at hanswer
    simp only [dispatch, Handlers.delPrefix, run_query, hanswer]
    rfl

theorem ConditionalOp.decode_error (op : ConditionalOp C) (text : String) :
    op.method.decode (.error text) = .error (serverErr text) := by
  cases op <;> rfl

/-- A conflict that the store behind a server reports is reported by the store before it. -/
theorem hop_relays {B : Backend C σ} {ctx : C.AuthContext} {op : ConditionalOp C}
    {d : Dispatcher C σ} {e : StoreError C.ValidationError} (hsend : op.Sendable)
    (hauth : C.check ctx (.inNamespace op.ns .write none) = .ok ()) (hconflict : op.Conflict e)
    (hanswer : (op.sent.perform B d.store).1 = .error e) :
    (op.method.run (exchange B (some ctx)) d).1 = .error (.store e) := by
  obtain ⟨cmd, hreports⟩ := ConditionalOp.exists_reports hsend
  obtain ⟨error, hrun, hquoted, htext⟩ := hreports.conflict B d e hconflict hanswer
  have hacl : aclCheck (some ctx) cmd.aclRequirement = none := by
    rw [hreports.requirement]
    simp only [aclCheck, hauth]
  have hexec : (execute B (some ctx) cmd d).1 = .error error := by
    rw [execute_leaf hreports.leaf, executeLeaf, hacl]
    simp only [hrun, toResponse]
  have hreply := exchange_error hsend.limits hreports.parse hexec hquoted
  rw [Method.run]
  split
  case h_1 response d' hok =>
    rw [hok] at hreply
    cases hreply
    rw [op.decode_error, htext]
    rfl
  case h_2 failure d' hfailed =>
    rw [hfailed] at hreply
    cases hreply

theorem ConditionalOp.perform_backend (op : ConditionalOp C)
    (other : (c : Call C) → τ → c.Answer × τ)
    (send : List String → τ → Except ReadFailure Response × τ) (s : τ) :
    op.perform (RemoteStore.backend other send) s = storeAnswer (op.method.run send s) := by
  cases op <;> rfl

theorem chain_relays (B : Backend C σ) (ctx : Nat → C.AuthContext)
    (other : ∀ n, (c : Call C) → ChainState C σ (n + 1) → c.Answer × ChainState C σ (n + 1))
    (n : Nat) {op : ConditionalOp C} {s : ChainState C σ n} {e : StoreError C.ValidationError}
    (hsend : op.Sendable)
    (hauth : ∀ k < n, C.check (ctx k) (.inNamespace op.ns .write none) = .ok ())
    (hconflict : op.Conflict e)
    (hanswer : ((op.received n).perform B (innermost n s)).1 = .error e) :
    (op.perform (chain B ctx other n) s).1 = .error e := by
  induction n generalizing op with
  | zero => exact hanswer
  | succ n ih =>
    -- the store behind the first server is asked for what was sent, and that is sent on unchanged
    have hns : op.sent.ns = op.ns := by cases op <;> rfl
    have hbehind : (op.sent.perform (chain B ctx other n) s.store).1 = .error e := by
      refine ih hsend.sent ?_ hconflict.sent ?_
      · intro k hk
        rw [hns]
        exact hauth k (Nat.lt_succ_of_lt hk)
      · rw [op.received_sent]
        exact hanswer
    have hhop := hop_relays hsend (hauth n (Nat.lt_succ_self n)) hconflict hbehind
    rw [chain, ConditionalOp.perform_backend]
    generalize op.method.run (exchange (chain B ctx other n) (some (ctx n))) s = outcome at hhop ⊢
    obtain ⟨result, s'⟩ := outcome
    cases hhop
    rfl

/-- Conflicts come through any number of servers with their numbers, and are never made up. -/
theorem conflicts_survive_chain (B : Backend C σ) (ctx : Nat → C.AuthContext)
    (other : ∀ n, (c : Call C) → ChainState C σ (n + 1) → c.Answer × ChainState C σ (n + 1)) :
    (∀ (n : Nat) (op : ConditionalOp C) (s : ChainState C σ n) (e : StoreError C.ValidationError),
      op.Sendable → (∀ k < n, C.check (ctx k) (.inNamespace op.ns .write none) = .ok ()) →
      op.Conflict e → ((op.received n).perform B (innermost n s)).1 = .error e →
      (op.perform (chain B ctx other n) s).1 = .error e) ∧
    ∀ error : CommandError C,
      (∀ current, clientErr (V := C.ValidationError) (.server error.text) =
        .versionConflict current → error = .versionConflict current) ∧
      ∀ matched limit, clientErr (V := C.ValidationError) (.server error.text) =
        .prefixTooLarge matched limit → error = .prefixTooLarge matched limit :=
  ⟨fun n _ _ _ hsend hauth hconflict hanswer =>
      chain_relays B ctx other n hsend hauth hconflict hanswer,
    fun error => serverErr_conflict error⟩

namespace Memory

/-- The other calls, answered from the innermost store. -/
def answerInnermost (n : Nat) (c : Call crates) (s : ChainState crates State (n + 1)) :
    c.Answer × ChainState crates State (n + 1) :=
  ((perform c (innermost (n + 1) s)).1, s)

theorem conflict_behind_two_servers :
    ((ConditionalOp.putIfVersion "a" [107] [118] none 7).perform
      (chain backend (fun _ => writer) answerInnermost 2)
      (.new (fresh [⟨"a", [107], [118], 1⟩]) (Stream'.const 0) (Stream'.const none))).1 =
        .error (.versionConflict 1) := by
  refine (conflicts_survive_chain backend (fun _ => writer) answerInnermost).1 2 _ _ _
    ⟨⟨by decide, by decide⟩, ?_, by simp [ConditionalOp.metadata]⟩ (fun _ _ => rfl) ⟨1, rfl⟩ rfl
  intro ns keyPrefix hop
  cases hop

end Memory

end Shroudb
