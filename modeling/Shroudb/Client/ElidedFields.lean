import Shroudb.Client.Fidelity
import Shroudb.Client.Pipeline
import Shroudb.Client.Simulation

/-! Fields that `RemoteStore` does not ask for or does not send. -/
namespace Shroudb
open Wire Resp3Frame

variable {C : Crates} {σ : Type}

/-! ## The metadata of an entry -/

/-- A GET is sent without META, so the entry it returns has the default metadata: the metadata of
the store exactly when that is the default. -/
theorem get_keeps_metadata_iff (B : Backend C σ) (ctx : C.AuthContext) (d : Dispatcher C σ)
    (ns key : String) (version : Option UInt64) (entry : Entry C)
    (hlimits : WithinLimits (RemoteStore.get (C := C) ns (utf8 key) version).args)
    (hauth : Authorised (some ctx) (.get ns (utf8 key) version))
    (hentry : (B.perform (.get ns (utf8 key) version) d.store).1 = .ok entry)
    (hkey : Textual entry.key) (hvalue : Textual entry.value)
    (hmem : InMemory (serveFrame B (some ctx)
      (commandFrame (RemoteStore.get (C := C) ns (utf8 key) version).args) d).1) :
    (∃ e, ((RemoteStore.get ns (utf8 key) version).run (exchange B (some ctx)) d).1 = .ok e ∧
      e.metadata = entry.metadata) ↔ entry.metadata = C.metadataDefault := by
  obtain ⟨cmd, finish, hserved⟩ := StoreOp.exists_served_get (C := C) B.hasEngine ns key version
  have hreturns : StoreOp.Returns (.get ns key version)
      (B.perform (.get ns (utf8 key) version) d.store).1
        ⟨entry.key, entry.value, entry.version, C.metadataDefault, 0, 0⟩ :=
    ⟨entry, hentry, hkey, hvalue, rfl⟩
  have hrun := hserved.run_fst_eq hlimits hauth hreturns hmem
  constructor
  · rintro ⟨e, he, hmetadata⟩
    cases hrun.symm.trans he
    exact hmetadata.symm
  · exact fun h => ⟨_, hrun, h.symm⟩

namespace Memory

/-- Crates whose metadata is a text. -/
def labelCrates : Crates :=
  { crates with
    Metadata := String
    jsonFromStr := fun s => .ok (.string s)
    jsonToString := fun
      | .string s => s
      | _ => ""
    metadataFromJson := fun
      | .string s => .ok s
      | _ => .error "expected a string"
    metadataToJson := .string
    metadataFromValue := fun
      | .string s => .ok s
      | _ => .error "expected a string"
    metadataDefault := "" }

theorem roundTrips_labelCrates : RoundTrips labelCrates where
  metadata _ := ⟨rfl, rfl⟩
  schema _ := ⟨.string "null", rfl, rfl⟩

/-- A store that holds one entry and can only be read. -/
def shelf : Backend labelCrates (Entry labelCrates) where
  hasEngine := false
  perform
    | .get .., s => (.ok s, s)
    | .configGet .., s | .rekeyStatus, s => (none, s)
    | .configValidate .., s | .configApply .., s | .configStore .., s | .beginRekey .., s =>
      (.error "read only", s)
    | .putWithOptions .., s | .delete .., s | .putIfVersion .., s | .deleteIfVersion .., s
    | .deletePrefix .., s | .list .., s | .versions .., s | .namespaceCreate .., s
    | .namespaceDrop .., s | .namespaceList .., s | .namespaceInfo .., s | .namespaceAlter .., s
    | .namespaceValidate .., s | .subscribe .., s => (.error (.other "read only"), s)

/-- A dispatcher in front of the shelf. -/
def facing (entry : Entry labelCrates) : Dispatcher labelCrates (Entry labelCrates) :=
  .new entry (Stream'.const 0) (Stream'.const none)

theorem unlabelled_entry_returned :
    let entry : Entry labelCrates := ⟨[107], [118], 1, "", 0, 0⟩
    ∃ e, ((RemoteStore.get "a" (utf8 "k") none).run (exchange shelf (some admin))
      (facing entry)).1 = .ok e ∧ e.metadata = entry.metadata := by
  intro entry
  have hreply : Representable (serveFrame shelf (some admin)
      (commandFrame (RemoteStore.get (C := labelCrates) "a" (utf8 "k") none).args)
      (facing entry)).1 := by decide
  exact (get_keeps_metadata_iff shelf admin (facing entry) "a" "k" none entry
    ⟨by decide, by decide⟩ (Or.inr ⟨admin, rfl, rfl⟩) rfl ⟨"k", by decide⟩ ⟨"v", by decide⟩
    hreply.inMemory).mpr rfl

/-- The entry is labelled, and the client returns it without its label. -/
theorem label_not_returned :
    let entry : Entry labelCrates := ⟨[107], [118], 1, "blue", 0, 0⟩
    let get := RemoteStore.get (C := labelCrates) "a" [107] none
    RoundTrips labelCrates ∧ (shelf.perform (.get "a" [107] none) entry).1 = .ok entry ∧
      (get.run (exchange shelf (some admin)) (facing entry)).1 =
        .ok ⟨[107], [118], 1, "", 0, 0⟩ ∧
      ¬ ∃ e, (get.run (exchange shelf (some admin)) (facing entry)).1 = .ok e ∧
        e.metadata = entry.metadata := by
  intro entry get
  have hlimits : WithinLimits get.args := ⟨by decide, by decide⟩
  have hparse : parseCommand (C := labelCrates) (commandFrame get.args) =
      .ok (.get "a" [107] none false) := rfl
  have hrun : (get.run (exchange shelf (some admin)) (facing entry)).1 =
      .ok ⟨[107], [118], 1, "", 0, 0⟩ := by
    rw [run_exchange hlimits hparse rfl (by decide)]
    rfl
  refine ⟨roundTrips_labelCrates, rfl, hrun, ?_⟩
  rintro ⟨e, he, hmetadata⟩
  cases hrun.symm.trans he
  exact absurd hmetadata (show ("" : String) ≠ "blue" by decide)

end Memory

/-! ## The fields of a pipeline -/

namespace PipelineCommand

/-- Keys and values are UTF-8. -/
def HasText : PipelineCommand C → Prop
  | .put _ key value _ | .putIfVersion _ key value _ _ => Textual key ∧ Textual value
  | .get _ key _ | .delete _ key | .deleteIfVersion _ key _ => Textual key

/-- The command with all its fields, as the server should parse it. -/
def meant : PipelineCommand C → Command
  | .put ns key value metadata => .put ns key value (metadata.map C.metadataToJson) none
  | .get ns key version => .get ns key version false
  | .delete ns key => .delete ns key
  | .putIfVersion ns key value metadata expectedVersion =>
    .putIf ns key value (metadata.map C.metadataToJson) expectedVersion
  | .deleteIfVersion ns key expectedVersion => .delIf ns key expectedVersion

/-- The command without the fields that are not sent. -/
def stripped : PipelineCommand C → PipelineCommand C
  | .put ns key value _ => .put ns key value none
  | .get ns key _ => .get ns key none
  | .putIfVersion ns key value _ expectedVersion => .putIfVersion ns key value none expectedVersion
  | cmd => cmd

/-- No field that is not sent is given. -/
def IsPlain : PipelineCommand C → Prop
  | .put _ _ _ metadata | .putIfVersion _ _ _ metadata _ => metadata = none
  | .get _ _ version => version = none
  | .delete .. | .deleteIfVersion .. => True

theorem meant_stripped_iff {cmd : PipelineCommand C} :
    cmd.stripped.meant = cmd.meant ↔ cmd.IsPlain := by
  cases cmd with
  | put ns key value metadata => cases metadata <;> simp [stripped, meant, IsPlain]
  | get ns key version => cases version <;> simp [stripped, meant, IsPlain]
  | putIfVersion ns key value metadata expected =>
    cases metadata <;> simp [stripped, meant, IsPlain]
  | delete ns key => exact iff_of_true rfl trivial
  | deleteIfVersion ns key expected => exact iff_of_true rfl trivial

/-- The server parses what is sent of a command. -/
theorem parse_args {cmd : PipelineCommand C} (h : cmd.HasText) :
    parseCommand (C := C) (commandFrame cmd.args) = .ok cmd.stripped.meant := by
  cases cmd with
  | put ns key value metadata =>
    obtain ⟨⟨key, rfl⟩, value, rfl⟩ := h
    simp only [args, fromUtf8Lossy_utf8]
    exact parseCommand_commandFrame parsePut (by decide) rfl
  | get ns key version =>
    obtain ⟨key, rfl⟩ := h
    exact RemoteStore.parse_get ns key none
  | delete ns key =>
    obtain ⟨key, rfl⟩ := h
    exact RemoteStore.parse_delete ns key
  | putIfVersion ns key value metadata expected =>
    obtain ⟨⟨key, rfl⟩, value, rfl⟩ := h
    simp only [args, fromUtf8Lossy_utf8]
    rw [parseCommand_commandFrame parsePutIf (by decide) rfl, parsePutIf,
      parseOptions_sets expectOption rfl (sets_number expected)]
    rfl
  | deleteIfVersion ns key expected =>
    obtain ⟨key, rfl⟩ := h
    exact RemoteStore.parse_deleteIfVersion ns key expected

end PipelineCommand

/-- The server's limits on the request of a pipeline. -/
structure PipelineWithinLimits (commands : List (List String)) : Prop where
  count : commands.length + 1 ≤ maxCollectionSize
  args : ∀ args ∈ commands, WithinLimits args

/-- The server parses `cmd` from the bytes of a pipeline. -/
def PipelineDelivered (C : Crates) (commands : List (List String)) (cmd : Command) : Prop :=
  ∃ frame rest, readFrame false (writePipeline commands none) = .done (some frame) rest ∧
    parseCommand (C := C) frame = .ok cmd

theorem fails_pipelineFrame {commands : List (List String)} (h : ¬ PipelineWithinLimits commands) :
    Reader.Fails readFrame (writeFrame (pipelineFrame commands)) := by
  refine fails_array (by decide) (fun f hf => ?_) fun hcount => ?_
  · rcases List.mem_cons.mp hf with rfl | hf
    · refine Or.inl (reads_writeFrame _ fun e he => ?_)
      obtain rfl : e = (1, .bulkString (utf8 "PIPELINE")) := by simpa [elements] using he
      exact ⟨by decide, by decide⟩
    · obtain ⟨args, -, rfl⟩ := List.mem_map.mp hf
      by_cases hargs : WithinLimits args
      · exact Or.inl (reads_writeFrame _ (representableAt_commandFrame hargs (by decide)))
      · exact Or.inr (fails_commandFrame (by decide) hargs)
  · by_contra hno
    refine h ⟨by simpa using hcount, fun args hargs => ?_⟩
    by_contra hover
    have hmem : commandFrame args ∈ Resp3Frame.bulkString (utf8 "PIPELINE") ::
        commands.map commandFrame := List.mem_cons_of_mem _ (List.mem_map_of_mem hargs)
    exact hno ⟨_, hmem, fails_commandFrame (by decide) hover⟩

theorem pipelineDelivered_iff {commands : List (List String)} {cmd : Command} :
    PipelineDelivered C commands cmd ↔ PipelineWithinLimits commands ∧
      parseCommand (C := C) (pipelineFrame commands) = .ok cmd := by
  constructor
  · rintro ⟨frame, rest, hread, hparse⟩
    by_cases hlimits : PipelineWithinLimits commands
    · rw [readFrame_writePipeline hlimits.count hlimits.args] at hread
      cases hread
      exact ⟨hlimits, hparse⟩
    · obtain ⟨e, rest', hfail⟩ := fails_pipelineFrame hlimits false []
      rw [List.append_nil, ← writePipeline_eq, hread] at hfail
      cases hfail
  · exact fun h => ⟨_, _, readFrame_writePipeline h.1.count h.1.args, h.2⟩

/-- The sub-commands come one by one. A pipeline of none is refused. -/
theorem parse_pipelineFrame {commands : List (PipelineCommand C)}
    (h : ∀ cmd ∈ commands, cmd.HasText) :
    parseCommand (C := C) (pipelineFrame (commands.map PipelineCommand.args)) =
      if commands = [] then .error (.badArg "PIPELINE requires at least one command" "")
      else .ok (.pipeline (commands.map fun cmd => cmd.stripped.meant) none) := by
  have hword : eqIgnoreAsciiCase "PIPELINE" "PIPELINE" = true := by decide
  have hparsed : parseCommands (C := C) ((commands.map PipelineCommand.args).map commandFrame) =
      (commands.map fun cmd => cmd.stripped.meant).map .ok := by
    rw [parseCommands_eq, List.map_map, List.map_map, List.map_map]
    exact List.map_congr_left fun cmd hcmd => PipelineCommand.parse_args (h cmd hcmd)
  have hkeywords : pipelineKeywords (C := C)
      ((commands.map PipelineCommand.args).map commandFrame) none = .ok (none, 0) := by
    cases commands <;> rfl
  rw [pipelineFrame, parseCommand]
  simp only [frameToString, fromUtf8?_utf8, hword, if_true, parsePipelineFrame, hkeywords, hparsed,
    List.drop_zero, collectCommands_map_ok]
  cases commands <;> simp

/-- Every field of the commands gets to the server exactly when there is a command, the request is
within the limits of the server, and no metadata and no version of a GET is given. -/
theorem pipeline_sends_fields_iff (commands : List (PipelineCommand C))
    (htext : ∀ cmd ∈ commands, cmd.HasText) :
    PipelineDelivered C (commands.map PipelineCommand.args)
        (.pipeline (commands.map PipelineCommand.meant) none) ↔
      commands ≠ [] ∧ PipelineWithinLimits (commands.map PipelineCommand.args) ∧
        ∀ cmd ∈ commands, cmd.IsPlain := by
  rw [pipelineDelivered_iff, parse_pipelineFrame htext]
  constructor
  · rintro ⟨hlimits, hparse⟩
    split_ifs at hparse with hnil
    have hsame := (Command.pipeline.inj (Except.ok.inj hparse)).1
    refine ⟨hnil, hlimits, fun cmd hcmd => ?_⟩
    exact PipelineCommand.meant_stripped_iff.mp (List.map_inj_left.mp hsame cmd hcmd)
  · rintro ⟨hne, hlimits, hplain⟩
    refine ⟨hlimits, ?_⟩
    have hsame :
        (commands.map fun cmd => cmd.stripped.meant) = commands.map PipelineCommand.meant :=
      List.map_congr_left fun cmd hcmd => PipelineCommand.meant_stripped_iff.mpr (hplain cmd hcmd)
    rw [if_neg hne, hsame]

namespace Memory

theorem plain_pipeline_sent :
    let commands : List (PipelineCommand crates) :=
      [.put "a" [107] [118] none, .deleteIfVersion "a" [107] 7]
    PipelineDelivered crates (commands.map PipelineCommand.args)
      (.pipeline [.put "a" [107] [118] none none, .delIf "a" [107] 7] none) := by
  intro commands
  have hk : Textual [107] := ⟨"k", by decide⟩
  have hv : Textual [118] := ⟨"v", by decide⟩
  have htext : ∀ cmd ∈ commands, cmd.HasText :=
    List.forall_mem_cons.mpr ⟨⟨hk, hv⟩, List.forall_mem_singleton.mpr hk⟩
  have hlimits : ∀ args ∈ commands.map PipelineCommand.args, WithinLimits args :=
    List.forall_mem_cons.mpr ⟨⟨by decide, by decide⟩,
      List.forall_mem_singleton.mpr ⟨by decide, by decide⟩⟩
  exact (pipeline_sends_fields_iff commands htext).mpr ⟨by simp [commands], ⟨by decide, hlimits⟩,
    List.forall_mem_cons.mpr ⟨rfl, List.forall_mem_singleton.mpr trivial⟩⟩

/-- A write with metadata and a read of version 3 arrive as a write without metadata and a read of
the latest version. -/
theorem metadata_and_version_not_sent :
    let commands : List (PipelineCommand crates) :=
      [.put "a" [107] [118] (some ()), .get "a" [107] (some 3)]
    PipelineDelivered crates (commands.map PipelineCommand.args)
        (.pipeline [.put "a" [107] [118] none none, .get "a" [107] none false] none) ∧
      ¬ PipelineDelivered crates (commands.map PipelineCommand.args)
        (.pipeline (commands.map PipelineCommand.meant) none) := by
  intro commands
  have hlimits : ∀ args ∈ commands.map PipelineCommand.args, WithinLimits args :=
    List.forall_mem_cons.mpr ⟨⟨by decide, by decide⟩,
      List.forall_mem_singleton.mpr ⟨by decide, by decide⟩⟩
  have hparse : parseCommand (C := crates) (pipelineFrame (commands.map PipelineCommand.args)) =
      .ok (.pipeline [.put "a" [107] [118] none none, .get "a" [107] none false] none) := rfl
  refine ⟨pipelineDelivered_iff.mpr ⟨⟨by decide, hlimits⟩, hparse⟩, fun h => ?_⟩
  have hsame := hparse.symm.trans (pipelineDelivered_iff.mp h).2
  cases hsame

end Memory

end Shroudb
