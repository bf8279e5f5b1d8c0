import Shroudb.Server.Attribution

/-! The audit trail of `execute`: which calls of the store and the engine have a record. -/
namespace Shroudb
open Wire Effect

namespace Command

def verb : Command → String
  | .auth .. => "AUTH"
  | .ping => "PING"
  | .put .. => "PUT"
  | .get .. => "GET"
  | .delete .. => "DELETE"
  | .putIf .. => "PUTIF"
  | .delIf .. => "DELIF"
  | .delPrefix .. => "DELPREFIX"
  | .list .. => "LIST"
  | .versions .. => "VERSIONS"
  | .namespaceCreate .. => "NAMESPACE CREATE"
  | .namespaceDrop .. => "NAMESPACE DROP"
  | .namespaceList .. => "NAMESPACE LIST"
  | .namespaceInfo .. => "NAMESPACE INFO"
  | .namespaceAlter .. => "NAMESPACE ALTER"
  | .namespaceValidate .. => "NAMESPACE VALIDATE"
  | .pipeline .. => "PIPELINE"
  | .subscribe .. => "SUBSCRIBE"
  | .unsubscribe => "UNSUBSCRIBE"
  | .health => "HEALTH"
  | .configGet .. => "CONFIG GET"
  | .configSet .. => "CONFIG SET"
  | .commandList => "COMMAND LIST"
  | .rekey .. => "REKEY"
  | .rekeyStatus => "REKEY STATUS"

end Command

/-- `Command::is_read`. -/
def Audit.isRead : Command → Bool
  | .get .. | .list .. | .versions .. | .namespaceList .. | .namespaceInfo ..
  | .namespaceValidate .. | .health | .configGet .. | .commandList | .rekeyStatus | .ping => true
  | _ => false

/-- A record of the audit log. How long the command took is left out. -/
structure AuditRecord where
  op : String
  result : String
  actor : String
deriving DecidableEq, Repr

section
variable {C : Crates} {σ : Type}

def resultLabel : Except (CommandError C) (ResponseMap C) → String
  | .ok _ => "ok"
  | .error _ => "error"

/-- What is recorded of a command other than a pipeline, once it is past the middleware. -/
def auditLeaf (B : Backend C σ) (auth : Option C.AuthContext) (cmd : Command)
    (d : Dispatcher C σ) : List AuditRecord :=
  match aclCheck auth cmd.aclRequirement with
  | some _ => []
  | none =>
    if Audit.isRead cmd then []
    else
      let (result, _) := (dispatch B.hasEngine cmd).run (Dispatcher.answer B) d
      [⟨cmd.verb, resultLabel result, actorName auth⟩]

mutual
/-- The records of a command, in the order in which `execute` writes them. -/
def auditTrail (B : Backend C σ) (auth : Option C.AuthContext) :
    Command → Dispatcher C σ → List AuditRecord
  | .pipeline commands requestId, d =>
    match d.lookup requestId with
    | (some _, _) => []
    | (none, d) => auditAll B auth commands d
  | cmd, d => auditLeaf B auth cmd d
def auditAll (B : Backend C σ) (auth : Option C.AuthContext) :
    List Command → Dispatcher C σ → List AuditRecord
  | [], _ => []
  | c :: cs, d => auditTrail B auth c d ++ auditAll B auth cs (execute B auth c d).2
end

/-- The records of a run of commands. -/
def auditOfRun (B : Backend C σ) : Dispatcher C σ → List (ContextCommand C) → List AuditRecord
  | _, [] => []
  | d, c :: rest => auditTrail B c.auth c.command d ++ auditOfRun B (c.after B d) rest

/-! ## Calls that change something -/

/-- The verb of the command that a call belongs to, if it can change the store or the engine. -/
def Call.writeVerb : Call C → Option String
  | .putWithOptions .. => some "PUT"
  | .delete .. => some "DELETE"
  | .putIfVersion .. => some "PUTIF"
  | .deleteIfVersion .. => some "DELIF"
  | .deletePrefix .. => some "DELPREFIX"
  | .namespaceCreate .. => some "NAMESPACE CREATE"
  | .namespaceDrop .. => some "NAMESPACE DROP"
  | .namespaceAlter .. => some "NAMESPACE ALTER"
  | .configApply .. | .configStore .. => some "CONFIG SET"
  | .beginRekey .. => some "REKEY"
  | .get .. | .list .. | .versions .. | .namespaceList .. | .namespaceInfo ..
  | .namespaceValidate .. | .subscribe .. | .configGet .. | .configValidate .. | .rekeyStatus =>
    none

/-- The verbs of the calls that can change something, in order. -/
def changes (calls : List (Call C)) : List String := calls.filterMap Call.writeVerb

/-- Every command but CONFIG SET makes one call, of its own verb if it is no read, or none at all. A
command that is no read then fails. -/
theorem dispatch_cases (hasEngine : Bool) (cmd : Command)
    (h : ∀ key value, cmd ≠ .configSet key value) :
    (∃ r : Except (CommandError C) (ResponseMap C), dispatch hasEngine cmd = .pure r ∧
      (Audit.isRead cmd = false → ∃ e, r = .error e)) ∨
    ∃ (c : Call C) (finish : _), dispatch hasEngine cmd = Handlers.query c finish ∧
      c.writeVerb = if Audit.isRead cmd then none else some cmd.verb := by
  cases cmd with
  | put ns key value metadata ttlMs =>
    simp only [dispatch, Handlers.put]
    split
    · exact Or.inl ⟨_, rfl, fun _ => ⟨_, rfl⟩⟩
    · exact Or.inr ⟨_, _, rfl, rfl⟩
  | putIf ns key value metadata expected =>
    simp only [dispatch, Handlers.putIf]
    split
    · exact Or.inl ⟨_, rfl, fun _ => ⟨_, rfl⟩⟩
    · exact Or.inr ⟨_, _, rfl, rfl⟩
  | namespaceCreate name schema maxVersions retention =>
    simp only [dispatch, Handlers.namespaceCreate]
    split
    · exact Or.inl ⟨_, rfl, fun _ => ⟨_, rfl⟩⟩
    · exact Or.inr ⟨_, _, rfl, rfl⟩
  | namespaceAlter name schema maxVersions retention =>
    simp only [dispatch, Handlers.namespaceAlter]
    split
    · exact Or.inl ⟨_, rfl, fun _ => ⟨_, rfl⟩⟩
    · exact Or.inr ⟨_, _, rfl, rfl⟩
  | configSet key value => exact absurd rfl (h key value)
  | rekey newKeyHex =>
    cases hasEngine
    · exact Or.inl ⟨_, rfl, fun _ => ⟨_, rfl⟩⟩
    have hrekey : (dispatch true (.rekey newKeyHex) : Plan C) = Handlers.rekey newKeyHex := rfl
    rw [hrekey, Handlers.rekey]
    split
    · exact Or.inl ⟨_, rfl, fun _ => ⟨_, rfl⟩⟩
    case h_2 key _ =>
      by_cases hlength : key.length ≠ 32
      · rw [if_pos hlength]
        exact Or.inl ⟨_, rfl, fun _ => ⟨_, rfl⟩⟩
      · rw [if_neg hlength]
        exact Or.inr ⟨_, _, rfl, rfl⟩
  | configGet key =>
    cases hasEngine
    · exact Or.inl ⟨_, rfl, fun hread => by cases hread⟩
    · exact Or.inr ⟨_, _, rfl, rfl⟩
  | rekeyStatus =>
    cases hasEngine
    · exact Or.inl ⟨_, rfl, fun hread => by cases hread⟩
    · exact Or.inr ⟨_, _, rfl, rfl⟩
  | ping => exact Or.inl ⟨_, rfl, fun hread => by cases hread⟩
  | health => exact Or.inl ⟨_, rfl, fun hread => by cases hread⟩
  | commandList => exact Or.inl ⟨_, rfl, fun hread => by cases hread⟩
  | auth token => exact Or.inl ⟨_, rfl, fun _ => ⟨_, rfl⟩⟩
  | pipeline commands requestId => exact Or.inl ⟨_, rfl, fun _ => ⟨_, rfl⟩⟩
  | subscribe ns key events => exact Or.inl ⟨_, rfl, fun _ => ⟨_, rfl⟩⟩
  | unsubscribe => exact Or.inl ⟨_, rfl, fun _ => ⟨_, rfl⟩⟩
  | _ => exact Or.inr ⟨_, _, rfl, rfl⟩

variable {B : Backend C σ} {auth : Option C.AuthContext} {d d' d'' : Dispatcher C σ}

/-- CONFIG SET stops at the first of its calls that fails. -/
theorem configSet_changes (key value : String) :
    let ran := (Handlers.configSet key value).run (Dispatcher.answer B) d
    ∃ made, ran.2.calls = d.calls ++ made ∧
      (((∃ e, ran.1 = .error e) ∧ changes made = []) ∨ changes made = ["CONFIG SET"] ∧
        (∃ e, ran.1 = .error e) ∨ changes made = ["CONFIG SET", "CONFIG SET"]) := by
  simp only [Handlers.configSet, Program.run, Dispatcher.answer]
  generalize d.wall.head = now
  cases now with
  | none => exact ⟨[], by simp [Handlers.configTimed, Handlers.refuse, Program.run],
      Or.inl ⟨⟨_, rfl⟩, rfl⟩⟩
  | some timestamp =>
    simp only [Handlers.configTimed, Program.run, Dispatcher.answer]
    generalize B.perform (.configValidate key value) d.store = validated
    obtain ⟨invalid | _, store⟩ := validated
    · exact ⟨[.configValidate key value], by simp [Handlers.configValidated, Handlers.refuse,
        Program.run], Or.inl ⟨⟨_, rfl⟩, rfl⟩⟩
    simp only [Handlers.configValidated, Program.run, Dispatcher.answer]
    generalize B.perform (.configApply key value) store = applied
    obtain ⟨wrong | _, store'⟩ := applied
    · exact ⟨[.configValidate key value, .configApply key value],
        by simp [Handlers.configApplied, Handlers.refuse, Program.run],
        Or.inr (Or.inl ⟨rfl, _, rfl⟩)⟩
    · exact ⟨[.configValidate key value, .configApply key value,
        .configStore key value timestamp], by simp [Handlers.configApplied, Handlers.query,
        Program.run, Dispatcher.answer], Or.inr (Or.inr rfl)⟩

/-! ## Chapters of the trail -/

/-- The calls and the records of one command that is no pipeline. -/
structure Chapter (C : Crates) where
  auth : Option C.AuthContext
  calls : List (Call C)
  records : List AuditRecord

/-- A chapter that changes something has one record, of the verb of its changes. There is one
change, or two when it is a CONFIG SET, which is written to the log and then to memory. A record of
success stands for a change. -/
structure Chapter.Sound (ch : Chapter C) : Prop where
  single : ch.records.length ≤ 1
  actor : ∀ r ∈ ch.records, r.actor = actorName ch.auth
  recorded : changes ch.calls = [] ∨ ∃ r, ch.records = [r] ∧
    (changes ch.calls = [r.op] ∨
      r.op = "CONFIG SET" ∧ changes ch.calls = ["CONFIG SET", "CONFIG SET"])
  done : ∀ r ∈ ch.records, r.result = "ok" → changes ch.calls ≠ []

/-- From `d` to `d'`, calls and records come in sound chapters, of contexts in `contexts`. -/
def Audited (contexts : List (Option C.AuthContext)) (d d' : Dispatcher C σ)
    (records : List AuditRecord) : Prop :=
  ∃ chapters : List (Chapter C), d'.calls = d.calls ++ chapters.flatMap (·.calls) ∧
    records = chapters.flatMap (·.records) ∧ ∀ ch ∈ chapters, ch.auth ∈ contexts ∧ ch.Sound

section
variable {contexts contexts' : List (Option C.AuthContext)} {records records' : List AuditRecord}

theorem Audited.of_calls_eq (h : d'.calls = d.calls) : Audited contexts d d' [] :=
  ⟨[], by simp [h], rfl, by simp⟩

theorem Audited.trans (h : Audited contexts d d' records) (h' : Audited contexts d' d'' records') :
    Audited contexts d d'' (records ++ records') := by
  obtain ⟨chapters, hcalls, hrecords, hsound⟩ := h
  obtain ⟨chapters', hcalls', hrecords', hsound'⟩ := h'
  refine ⟨chapters ++ chapters', by simp [hcalls', hcalls], by simp [hrecords, hrecords'],
    fun ch hch => ?_⟩
  rcases List.mem_append.mp hch with hch | hch
  · exact hsound ch hch
  · exact hsound' ch hch

theorem Audited.mono (h : Audited contexts d d' records) (hsub : contexts ⊆ contexts') :
    Audited contexts' d d' records := by
  obtain ⟨chapters, hcalls, hrecords, hsound⟩ := h
  exact ⟨chapters, hcalls, hrecords, fun ch hch => ⟨hsub (hsound ch hch).1, (hsound ch hch).2⟩⟩

end

/-- The record of a command that is no read goes with its calls. -/
theorem sound_write {cmd : Command} {result : Except (CommandError C) (ResponseMap C)}
    {made : List (Call C)}
    (hchanges : changes made = [] ∨ changes made = [cmd.verb] ∨
      cmd.verb = "CONFIG SET" ∧ changes made = ["CONFIG SET", "CONFIG SET"])
    (hok : changes made = [] → ∃ e, result = .error e) :
    (⟨auth, made, [⟨cmd.verb, resultLabel result, actorName auth⟩]⟩ : Chapter C).Sound := by
  refine ⟨Nat.le_refl 1, ?_, ?_, ?_⟩
  · intro r hr
    rw [List.mem_singleton.mp hr]
  · rcases hchanges with hnone | hone | htwo
    · exact Or.inl hnone
    · exact Or.inr ⟨_, rfl, Or.inl hone⟩
    · exact Or.inr ⟨_, rfl, Or.inr htwo⟩
  · intro r hr hresult hnone
    obtain ⟨e, rfl⟩ := hok hnone
    rw [List.mem_singleton.mp hr] at hresult
    have hne : "error" ≠ "ok" := by decide
    exact hne hresult

/-- A read that changes nothing needs no record. -/
theorem sound_read {made : List (Call C)} (h : changes made = []) :
    (⟨auth, made, []⟩ : Chapter C).Sound :=
  ⟨Nat.zero_le 1, by simp, Or.inl h, by simp⟩

theorem Audited.single (ch : Chapter C) (hcalls : d'.calls = d.calls ++ ch.calls)
    (hsound : ch.Sound) : Audited [ch.auth] d d' ch.records := by
  refine ⟨[ch], by simpa using hcalls, by simp, fun ch' hch => ?_⟩
  rw [List.mem_singleton.mp hch]
  exact ⟨List.mem_singleton_self _, hsound⟩

/-- What `dispatch` calls and what it answers, as far as the trail is concerned. -/
theorem dispatch_changes (cmd : Command) :
    let ran := (dispatch B.hasEngine cmd).run (Dispatcher.answer B) d
    ∃ made, ran.2.calls = d.calls ++ made ∧
      (Audit.isRead cmd = true → changes made = []) ∧
      (Audit.isRead cmd = false → (changes made = [] → ∃ e, ran.1 = .error e) ∧
        (changes made = [] ∨ changes made = [cmd.verb] ∨
          cmd.verb = "CONFIG SET" ∧ changes made = ["CONFIG SET", "CONFIG SET"])) := by
  intro ran
  by_cases hset : ∃ key value, cmd = .configSet key value
  · obtain ⟨key, value, rfl⟩ := hset
    cases hengine : B.hasEngine with
    | false =>
      refine ⟨[], ?_, fun _ => rfl, fun _ => ⟨fun _ => ?_, Or.inl rfl⟩⟩
      · simp [ran, dispatch, hengine, Handlers.refuse, Program.run]
      · exact ⟨_, by simp only [ran, dispatch, hengine]; rfl⟩
    | true =>
      have hran : ran = (Handlers.configSet key value).run (Dispatcher.answer B) d := by
        simp [ran, dispatch, hengine]
      obtain ⟨made, hmade, hcases⟩ := configSet_changes (B := B) (d := d) key value
      rw [← hran] at hmade hcases
      refine ⟨made, hmade, fun hread => Bool.noConfusion hread, fun _ => ?_⟩
      rcases hcases with ⟨herror, hnone⟩ | ⟨hone, -⟩ | htwo
      · exact ⟨fun _ => herror, Or.inl hnone⟩
      · exact ⟨fun hnone => absurd (hone.symm.trans hnone) (by simp), Or.inr (Or.inl hone)⟩
      · exact ⟨fun hnone => absurd (htwo.symm.trans hnone) (by simp),
          Or.inr (Or.inr ⟨rfl, htwo⟩)⟩
  · have hne : ∀ key value, cmd ≠ .configSet key value := fun key value h => hset ⟨key, value, h⟩
    rcases dispatch_cases (C := C) B.hasEngine cmd hne with ⟨r, hpure, herror⟩ |
      ⟨c, finish, hquery, hverb⟩
    · refine ⟨[], ?_, fun _ => rfl, fun hwrite => ⟨fun _ => ?_, Or.inl rfl⟩⟩
      · simp [ran, hpure, Program.run]
      · obtain ⟨e, rfl⟩ := herror hwrite
        exact ⟨e, by simp [ran, hpure, Program.run]⟩
    · refine ⟨[c], ?_, fun hread => ?_, fun hwrite => ?_⟩
      · simp [ran, hquery, Handlers.query, Program.run, Dispatcher.answer]
      · simp [changes, hverb, hread]
      · have hown : changes [c] = [cmd.verb] := by simp [changes, hverb, hwrite]
        exact ⟨fun hnone => absurd (hown.symm.trans hnone) (by simp), Or.inr (Or.inl hown)⟩

theorem audited_leaf (cmd : Command) (d : Dispatcher C σ) :
    Audited [auth] d (executeLeaf B auth cmd d).2 (auditLeaf B auth cmd d) := by
  rw [executeLeaf, auditLeaf]
  cases aclCheck auth cmd.aclRequirement with
  | some e => exact .of_calls_eq rfl
  | none =>
    obtain ⟨made, hmade, hread, hwrite⟩ := dispatch_changes (B := B) (d := d) cmd
    cases hkind : Audit.isRead cmd with
    | true => exact .single ⟨auth, made, []⟩ hmade (sound_read (hread hkind))
    | false =>
      obtain ⟨hok, hchanges⟩ := hwrite hkind
      exact .single ⟨auth, made, _⟩ hmade (sound_write hchanges hok)

theorem auditTrail_leaf {cmd : Command} (h : cmd.isPipeline = false) :
    auditTrail B auth cmd d = auditLeaf B auth cmd d := by
  cases cmd <;> first | rfl | cases h

theorem auditTrail_hit {cs : List Command} {id : Option String} {frame : Resp3Frame}
    (h : (d.lookup id).1 = some frame) : auditTrail B auth (.pipeline cs id) d = [] := by
  rw [auditTrail]
  split <;> simp_all

theorem auditTrail_miss {cs : List Command} {id : Option String} (h : (d.lookup id).1 = none) :
    auditTrail B auth (.pipeline cs id) d = auditAll B auth cs (d.lookup id).2 := by
  rw [auditTrail]
  split <;> simp_all

theorem lookup_calls (id : Option String) : (d.lookup id).2.calls = d.calls := by
  cases id with
  | none => rfl
  | some id => rw [Dispatcher.lookup_some]

theorem remember_calls (id : Option String) (response : CommandResponse C) :
    (d.remember id response).calls = d.calls := by
  cases id with
  | none => rfl
  | some id => rw [Dispatcher.remember_some]

theorem audited_executeAll {cs : List Command}
    (hcs : ∀ c ∈ cs, ∀ d, Audited [auth] d (execute B auth c d).2 (auditTrail B auth c d)) :
    Audited [auth] d (executeAll B auth cs d).2 (auditAll B auth cs d) := by
  induction cs generalizing d with
  | nil => exact .of_calls_eq rfl
  | cons c cs ih =>
    rw [executeAll, auditAll]
    exact (hcs c (by simp) d).trans (ih fun c' hc' => hcs c' (by simp [hc']))

theorem audited_execute (cmd : Command) (d : Dispatcher C σ) :
    Audited [auth] d (execute B auth cmd d).2 (auditTrail B auth cmd d) := by
  induction cmd generalizing d with
  | leaf c hc =>
    rw [execute_leaf hc, auditTrail_leaf hc]
    exact audited_leaf c d
  | pipeline cs id ih =>
    have hlookup : Audited [auth] d (d.lookup id).2 [] := .of_calls_eq (lookup_calls id)
    cases hl : (d.lookup id).1 with
    | some frame =>
      rw [execute_pipeline_hit hl, auditTrail_hit hl]
      exact hlookup
    | none =>
      rw [execute_pipeline_miss hl, auditTrail_miss hl]
      have hall := hlookup.trans (audited_executeAll ih)
      have hremember := hall.trans (.of_calls_eq (remember_calls id
        (.array (executeAll B auth cs (d.lookup id).2).1)))
      rwa [List.nil_append, List.append_nil] at hremember

/-- Whatever commands are executed, in pipelines of any depth, in whatever contexts and with
whatever cached replies: the calls and the audit records come in the same chapters, one for each
command that passed its access check. A call that can change the store or the engine stands in a
chapter with one record, of the verb of that change and with the name of the actor, and a record of
success in one with a change of its verb. -/
theorem changes_are_audited (B : Backend C σ) (d : Dispatcher C σ)
    (commands : List (ContextCommand C)) :
    Audited (commands.map (·.auth)) d (Schedule.run (ContextCommand.after B) d commands)
      (auditOfRun B d commands) := by
  induction commands generalizing d with
  | nil => exact .of_calls_eq rfl
  | cons c commands ih =>
    have hfirst : Audited [c.auth] d (c.after B d) (auditTrail B c.auth c.command d) :=
      audited_execute c.command d
    have hrest := ih (c.after B d)
    refine (hfirst.mono ?_).trans (hrest.mono (List.subset_cons_self _ _))
    simp

end

end Shroudb
