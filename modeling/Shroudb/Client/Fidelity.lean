import Shroudb.Protocol.AclCoverage
import Shroudb.Client.Render

/-! Which values get to the store as they are. -/
namespace Shroudb
open Wire Resp3Frame Response

variable {C : Crates} {σ : Type}

/-! ## Requests beyond the limits -/

theorem fails_readFrameDepth {depth : Nat} {typeByte : UInt8} {body : Bytes}
    (h : depth ≤ maxDepth)
    (hp : Reader.Fails (readPayload (readFrameDepth (depth + 1)) typeByte) body) :
    Reader.Fails (readFrameDepth depth) (typeByte :: body) := by
  rw [readFrameDepth_eq h]
  apply Reader.fails_atEnd_cons
  simp only [Bool.false_eq_true, if_false]
  change Reader.Fails _ ([typeByte] ++ body)
  refine (reads_readExact [typeByte] (by rfl)).bind_fails ?_
  exact hp.bind

theorem fails_bulkString {data : Bytes} {depth : Nat} (hdepth : depth ≤ maxDepth)
    (h : maxBulkSize < data.length) :
    Reader.Fails (readFrameDepth depth) (writeFrame (.bulkString data)) := by
  simp only [writeFrame, header, List.cons_append]
  refine fails_readFrameDepth hdepth ?_
  rw [List.append_assoc]
  exact (fails_readLength h).bind.append _

/-- Too many elements, or one that cannot be read, is enough. -/
theorem fails_array {fs : List Resp3Frame} {depth : Nat} (hdepth : depth ≤ maxDepth)
    (hall : ∀ f ∈ fs, Reader.Reads (readFrameDepth (depth + 1)) (writeFrame f) (some f) ∨
      Reader.Fails (readFrameDepth (depth + 1)) (writeFrame f))
    (hbad : fs.length ≤ maxCollectionSize →
      ∃ f ∈ fs, Reader.Fails (readFrameDepth (depth + 1)) (writeFrame f)) :
    Reader.Fails (readFrameDepth depth) (writeFrame (.array fs)) := by
  have hw := maxCollectionSize_lt
  simp only [writeFrame, header, List.cons_append, writeFrames_eq]
  refine fails_readFrameDepth hdepth ?_
  by_cases hcount : fs.length ≤ maxCollectionSize
  · let sent := fs.map writeFrame
    have hchildren : Reader.Fails
        (Reader.times (readChild (readFrameDepth (depth + 1)) "array") sent.length)
          sent.flatten := by
      refine Reader.fails_times (fun x hx => ?_) ?_
      · obtain ⟨f, hf, rfl⟩ := List.mem_map.mp hx
        rcases hall f hf with hreads | hfails
        · exact Or.inl ⟨_, reads_readChild hreads⟩
        · exact Or.inr hfails.bind
      · obtain ⟨f, hf, hfails⟩ := hbad hcount
        exact ⟨_, List.mem_map_of_mem hf, hfails.bind⟩
    have hlen : sent.length = fs.length := List.length_map _
    refine (reads_readLength hcount (by omega)).bind_fails ?_
    rw [← hlen]
    exact hchildren.bind
  · exact (fails_readLength (by omega)).bind.append _

theorem fails_commandFrame {args : List String} {depth : Nat} (hdepth : depth + 1 ≤ maxDepth)
    (h : ¬ WithinLimits args) :
    Reader.Fails (readFrameDepth depth) (writeFrame (commandFrame args)) := by
  refine fails_array (by omega) (fun f hf => ?_) fun hcount => ?_
  · obtain ⟨arg, -, rfl⟩ := List.mem_map.mp hf
    by_cases harg : (utf8 arg).length ≤ maxBulkSize
    · refine Or.inl (reads_writeFrame _ fun e he => ?_)
      obtain rfl : e = (depth + 1, .bulkString (utf8 arg)) := by simpa [elements] using he
      exact ⟨hdepth, harg⟩
    · exact Or.inr (fails_bulkString hdepth (by omega))
  · by_contra hno
    refine h ⟨by simpa using hcount, fun arg harg => ?_⟩
    by_contra hlarge
    exact hno ⟨_, List.mem_map_of_mem harg, fails_bulkString hdepth (by omega)⟩

theorem readFrame_overLimit {args : List String} (h : ¬ WithinLimits args) :
    ∃ e rest, readFrame false (writeCommand args) = .fail e rest := by
  have hfails : Reader.Fails readFrame (writeFrame (commandFrame args)) :=
    fails_commandFrame (by decide) h
  obtain ⟨e, rest, he⟩ := hfails false []
  rw [List.append_nil, ← writeCommand_eq] at he
  exact ⟨e, rest, he⟩

/-! ## Errors as the client sees them -/

/-- The text of an error as the client reads it: up to its first line feed. -/
def receivedText (t : String) : String := if '\n' ∈ t.toList then cutText t else t

/-- An error is read as an error, also when its text is cut at a line feed. -/
theorem receive_simpleError (t : String) :
    receive (writeFrame (.simpleError t)) = .ok (.error (receivedText t)) := by
  rw [receivedText]
  split_ifs with hlf
  · have hcut : ∃ mid, mid.length ≥ crlf.length ∧ ∀ ended,
        readValueAt ((writeFrame (.simpleError t)).length + 1) ended (45 :: utf8 t ++ crlf) =
          readBody (readValueAt (writeFrame (.simpleError t)).length) '-' (cutText t) ended mid :=
      readValueAt_cut (by decide) (by decide) (by decide) hlf
    obtain ⟨mid, -, hread⟩ := hcut
    have hdone : Response.readValue false (writeFrame (.simpleError t)) =
        .done (.error (cutText t)) mid := hread false
    rw [receive, hdone]
  · have hsafe : LineSafe (.simpleError t) := by simpa [LineSafe, lineTexts] using hlf
    exact receive_writeFrame hsafe (by simp [InMemory])

theorem exchange_overLimit (B : Backend C σ) (auth : Option C.AuthContext) {args : List String}
    (d : Dispatcher C σ) (h : ¬ WithinLimits args) :
    ∃ t, (exchange B auth args d).1 = .ok (.error t) := by
  obtain ⟨e, rest, he⟩ := readFrame_overLimit h
  exact ⟨receivedText ("ERR protocol: " ++ e.text), by
    simp [exchange, submit, answerTo, he, receive_simpleError]⟩

theorem exchange_unparsed (B : Backend C σ) (auth : Option C.AuthContext) {args : List String}
    (d : Dispatcher C σ) {e : CommandError C} (hlimits : WithinLimits args)
    (hparse : parseCommand (C := C) (commandFrame args) = .error e) :
    ∃ t, (exchange B auth args d).1 = .ok (.error t) := by
  exact ⟨receivedText ("ERR " ++ e.text), by
    simp [exchange_of_read hlimits, serveFrame, hparse, receive_simpleError]⟩

/-! ## Values -/

/-- The server executes `cmd` for the request. -/
def Delivered (C : Crates) (args : List String) (cmd : Command) : Prop :=
  ∃ frame rest, readFrame false (writeCommand args) = .done (some frame) rest ∧
    parseCommand (C := C) frame = .ok cmd

theorem delivered_of_parse {args : List String} {cmd : Command} (hlimits : WithinLimits args)
    (hparse : parseCommand (C := C) (commandFrame args) = .ok cmd) : Delivered C args cmd :=
  ⟨_, _, readFrame_writeCommand hlimits, hparse⟩

/-- Nothing else is executed, and nothing at all when the request is over a limit. -/
theorem delivered_iff {args : List String} {cmd : Command} :
    Delivered C args cmd ↔
      WithinLimits args ∧ parseCommand (C := C) (commandFrame args) = .ok cmd := by
  constructor
  · rintro ⟨frame, rest, hread, hparse⟩
    by_cases hlimits : WithinLimits args
    · rw [readFrame_writeCommand hlimits] at hread
      cases hread
      exact ⟨hlimits, hparse⟩
    · obtain ⟨e, rest', hfail⟩ := readFrame_overLimit hlimits
      rw [hread] at hfail
      cases hfail
  · exact fun h => delivered_of_parse h.1 h.2

/-- The request of a PUT, as bulk strings. -/
def putFrame (ns key : String) (value : Bytes) : Resp3Frame :=
  .array [.bulkString (utf8 "PUT"), .bulkString (utf8 ns), .bulkString (utf8 key), .bulkString value]

/-- Values of `V` are stored as they are, or the caller is told. -/
structure Faithful (C : Crates) (V : Set Bytes) : Prop where
  parsed : ∀ ns key, ∀ v ∈ V,
    parseCommand (C := C) (putFrame ns key v) = .ok (.put ns (utf8 key) v none none)
  sent : ∀ {σ : Type} (B : Backend C σ) (auth : Option C.AuthContext) (d : Dispatcher C σ)
    (ns key : String) (metadata : Option C.Metadata), ∀ v ∈ V,
      let put := RemoteStore.put (C := C) ns (utf8 key) v metadata
      (∃ json, Delivered C put.args (.put ns (utf8 key) v json none)) ∨
        ∃ e, (put.run (exchange B auth) d).1 = .error e
  distinct : ∀ (ns ns' key key' : String) (metadata metadata' : Option C.Metadata),
    ∀ v ∈ V, ∀ v' ∈ V,
      (RemoteStore.put (C := C) ns (utf8 key) v metadata).args =
        (RemoteStore.put (C := C) ns' (utf8 key') v' metadata').args → key = key' ∧ v = v'

theorem run_error {α : Type} {m : Method C α}
    {send : List String → Dispatcher C σ → Except ReadFailure Response × Dispatcher C σ}
    {d : Dispatcher C σ} {t : String} {e : StoreError C.ValidationError}
    (hsend : (send m.args d).1 = .ok (.error t)) (hdecode : m.decode (.error t) = .error e) :
    ∃ e, (m.run send d).1 = .error e := by
  rw [Method.run]
  split
  case h_1 response s hs =>
    simp only [hs, Except.ok.injEq] at hsend
    rw [hsend, hdecode]
    exact ⟨_, rfl⟩
  case h_2 e' s hs => exact ⟨_, rfl⟩

/-- A reply within the server's own limits is decoded as it is. -/
theorem run_exchange {α : Type} {m : Method C α} {B : Backend C σ} {auth : Option C.AuthContext}
    {d : Dispatcher C σ} {cmd : Command} {reply : Resp3Frame} (hlimits : WithinLimits m.args)
    (hparse : parseCommand (C := C) (commandFrame m.args) = .ok cmd)
    (hreply : responseToFrame (execute B auth cmd d).1 = reply) (hrep : Representable reply) :
    m.run (exchange B auth) d =
      ((m.decode (img reply)).mapError .store, (execute B auth cmd d).2) := by
  rw [Method.run, exchange_eq hlimits hparse, hreply,
    receive_writeFrame hrep.lineSafe hrep.inMemory]

theorem parseOptions_refused {α : Type} {specs : List (OptionSpec C α)}
    {word word' missing v : String} {set : String → α → Except (CommandError C) α}
    {rest : List String} {o : α} {e : CommandError C}
    (hfind : specs.find? (fun spec => spec.word == toAsciiUppercase word) =
      some (.value word' missing set))
    (h : set v o = .error e) : parseOptions specs (word :: v :: rest) o = .error e := by
  simp only [parseOptions, hfind, h]

theorem put_sent (B : Backend C σ) (auth : Option C.AuthContext) (d : Dispatcher C σ)
    (ns key v : String) (metadata : Option C.Metadata) :
    let put := RemoteStore.put (C := C) ns (utf8 key) (utf8 v) metadata
    (∃ json, Delivered C put.args (.put ns (utf8 key) (utf8 v) json none)) ∨
      ∃ e, (put.run (exchange B auth) d).1 = .error e := by
  intro put
  by_cases hlimits : WithinLimits put.args
  · cases metadata with
    | none =>
      refine Or.inl ⟨none, delivered_of_parse hlimits ?_⟩
      simp only [put, RemoteStore.put, fromUtf8Lossy_utf8]
      exact parseCommand_commandFrame parsePut (by decide) rfl
    | some m =>
      have hframe : parseCommand (C := C) (commandFrame put.args) = parsePut
          [ns, key, "VALUE", v, "META", C.jsonToString (C.metadataToJson m)] := by
        simp only [put, RemoteStore.put, fromUtf8Lossy_utf8]
        exact parseCommand_commandFrame parsePut (by decide) rfl
      rw [parsePut, parseOptions_sets valueOption rfl (sets_text v)] at hframe
      · cases hjson : C.jsonFromStr (C.jsonToString (C.metadataToJson m)) with
        | ok json =>
          rw [parseOptions_sets metaOption rfl (sets_json hjson)] at hframe
          exact Or.inl ⟨some json, delivered_of_parse hlimits hframe⟩
        | error e =>
          rw [parseOptions_refused rfl (by simp only [parseJson, hjson]; rfl)] at hframe
          obtain ⟨t, ht⟩ := exchange_unparsed B auth d hlimits hframe
          exact Or.inr (run_error ht rfl)
      · simp
  · obtain ⟨t, ht⟩ := exchange_overLimit B auth d hlimits
    exact Or.inr (run_error ht rfl)

theorem textual_of_parsed {ns key : String} {v : Bytes} {cmd : Command}
    (h : parseCommand (C := C) (putFrame ns key v) = .ok cmd) : Textual v := by
  have hword : eqIgnoreAsciiCase "PUT" "PIPELINE" = false := by decide
  cases hv : fromUtf8? v with
  | some s => exact ⟨s, (utf8_of_fromUtf8? hv).symm⟩
  | none => simp [putFrame, parseCommand, frameToString, framesToStrings, hword, hv, Except.map] at h

/-- Exactly the values that are UTF-8 are stored as they are. -/
theorem faithful_iff (V : Set Bytes) : Faithful C V ↔ ∀ v ∈ V, Textual v := by
  constructor
  · exact fun h v hv => textual_of_parsed (h.parsed "" "" v hv)
  · intro h
    constructor
    · intro ns key v hv
      obtain ⟨v, rfl⟩ := h v hv
      have hframe : putFrame ns key (utf8 v) = commandFrame ["PUT", ns, key, v] := rfl
      rw [hframe]
      exact parseCommand_commandFrame parsePut (by decide) rfl
    · intro σ B auth d ns key metadata v hv
      obtain ⟨v, rfl⟩ := h v hv
      exact put_sent B auth d ns key v metadata
    · intro ns ns' key key' metadata metadata' v hv v' hv' hargs
      obtain ⟨v, rfl⟩ := h v hv
      obtain ⟨v', rfl⟩ := h v' hv'
      cases metadata <;> cases metadata' <;> simp_all [RemoteStore.put]

namespace Memory

/-- The server refuses the byte `ff` as a value. The client sends another value in its place, the
one it also sends for `fe`, and reports success. -/
theorem byte_stored_as_replacement_character :
    let put := RemoteStore.put (C := crates) "a" [107] [255] none
    parseCommand (C := crates) (putFrame "a" "k" [255]) =
        .error (.badArg "invalid UTF-8 in argument" "") ∧
      put.args = (RemoteStore.put (C := crates) "a" [107] [254] none).args ∧
      (put.run (exchange backend (some writer)) (fresh [])).1 = .ok 1 ∧
      (put.run (exchange backend (some writer)) (fresh [])).2.store =
        [⟨"a", [107], [239, 191, 189], 1⟩] := by
  intro put
  have hlimits : WithinLimits put.args := ⟨by decide, by decide⟩
  have hparse : parseCommand (C := crates) (commandFrame put.args) =
      .ok (.put "a" [107] [239, 191, 189] none none) := rfl
  have hreply : responseToFrame (execute backend (some writer)
      (.put "a" [107] [239, 191, 189] none none) (fresh [])).1 =
      .map [(.bulkString (utf8 "status"), .bulkString (utf8 "OK")),
        (.bulkString (utf8 "version"), .integer 1)] := rfl
  rw [run_exchange hlimits hparse hreply (by decide)]
  exact ⟨rfl, rfl, rfl, rfl⟩

end Memory

end Shroudb
