import Shroudb.Effect.Expansion
import Shroudb.Protocol.Audit

/-! Concurrent sessions that share a dispatcher, with other sessions' turns at every await. -/
namespace Shroudb
open Wire Effect

section
variable {C : Crates} {σ : Type}

/-! ## Whole commands -/

/-- What a session does between two turns of others, when commands are not interrupted. -/
inductive CommandOp (C : Crates) where
  | lookup (requestId : Option String)
  | leaf (auth : Option C.AuthContext) (cmd : Command)
  | remember (requestId : Option String) (response : CommandResponse C)

def CommandOp.Answer : CommandOp C → Type
  | .lookup _ => Option Resp3Frame
  | .leaf .. => CommandResponse C
  | .remember .. => Unit

def CommandOp.answer (B : Backend C σ) :
    (op : CommandOp C) → Dispatcher C σ → op.Answer × Dispatcher C σ
  | .lookup id, d => d.lookup id
  | .leaf auth cmd, d => executeLeaf B auth cmd d
  | .remember id response, d => ((), d.remember id response)

abbrev CommandProgram (C : Crates) := Program (CommandOp.Answer (C := C))

mutual
/-- `execute`, one command at a time. -/
def executeProgram (auth : Option C.AuthContext) : Command → CommandProgram C (CommandResponse C)
  | .pipeline commands id =>
    .ask (.lookup id) fun
      | some frame => .pure (.cachedFrame frame)
      | none => (executeAllProgram auth commands).bind fun results =>
          .ask (.remember id (.array results)) fun _ => .pure (.array results)
  | cmd => .ask (.leaf auth cmd) .pure
def executeAllProgram (auth : Option C.AuthContext) :
    List Command → CommandProgram C (List (CommandResponse C))
  | [] => .pure []
  | c :: cs =>
    (executeProgram auth c).bind fun result =>
      (executeAllProgram auth cs).bind fun results => .pure (result :: results)
end

/-- The commands of a connection, each in the context it held then. -/
def sessionProgram : List (ContextCommand C) → CommandProgram C (List (CommandResponse C))
  | [] => .pure []
  | c :: cs =>
    (executeProgram c.auth c.command).bind fun response =>
      (sessionProgram cs).bind fun responses => .pure (response :: responses)

theorem executeProgram_leaf {auth : Option C.AuthContext} {cmd : Command}
    (h : cmd.isPipeline = false) : executeProgram auth cmd = .ask (.leaf auth cmd) .pure := by
  cases cmd <;> first | rfl | cases h

/-- Not interrupted, the program does what `execute` does. -/
theorem run_executeProgram (B : Backend C σ) (auth : Option C.AuthContext) (cmd : Command)
    (d : Dispatcher C σ) :
    (executeProgram auth cmd).run (CommandOp.answer B) d = execute B auth cmd d := by
  induction cmd generalizing d with
  | leaf c hc =>
    rw [executeProgram_leaf hc, execute_leaf hc]
    rfl
  | pipeline cs id ih =>
    have hall : ∀ d, (executeAllProgram auth cs).run (CommandOp.answer B) d =
        executeAll B auth cs d := by
      intro d
      induction cs generalizing d with
      | nil => rfl
      | cons c cs ihcs =>
        have hc := ih c List.mem_cons_self d
        have hcs := ihcs fun c' hc' => ih c' (List.mem_cons_of_mem c hc')
        rw [executeAllProgram, Program.run_bind, hc, Program.run_bind, hcs, executeAll]
        rfl
    rw [executeProgram, Program.run]
    have hlookup : CommandOp.answer B (.lookup id) d = d.lookup id := rfl
    rw [hlookup]
    cases hl : (d.lookup id).1 with
    | some frame =>
      rw [execute_pipeline_hit hl]
      rfl
    | none =>
      rw [execute_pipeline_miss hl]
      dsimp only
      rw [Program.run_bind, hall]
      rfl

section
variable {allowed : CommandOp C → Prop}

theorem uses_executeProgram {auth : Option C.AuthContext} (hlookup : ∀ id, allowed (.lookup id))
    (hremember : ∀ id response, allowed (.remember id response)) (cmd : Command)
    (hleaf : ∀ leaf ∈ cmd.leaves, allowed (.leaf auth leaf)) :
    (executeProgram auth cmd).Uses allowed := by
  induction cmd with
  | leaf c hc =>
    rw [Command.leaves_eq hc] at hleaf
    rw [executeProgram_leaf hc]
    exact ⟨hleaf c (List.mem_singleton_self c), fun _ => trivial⟩
  | pipeline cs id ih =>
    have hall : (executeAllProgram auth cs).Uses allowed := by
      rw [Command.leaves] at hleaf
      induction cs with
      | nil => trivial
      | cons c cs ihcs =>
        rw [Command.leavesAll] at hleaf
        have hc := ih c List.mem_cons_self fun leaf h => hleaf leaf (List.mem_append_left _ h)
        have hcs := ihcs (fun c' hc' => ih c' (List.mem_cons_of_mem c hc'))
          fun leaf h => hleaf leaf (List.mem_append_right _ h)
        exact hc.bind fun _ => hcs.bind fun _ => trivial
    refine ⟨hlookup id, ?_⟩
    rintro (_ | frame)
    · exact hall.bind fun _ => ⟨hremember id _, fun _ => trivial⟩
    · trivial

theorem uses_sessionProgram (hlookup : ∀ id, allowed (.lookup id))
    (hremember : ∀ id response, allowed (.remember id response))
    {session : List (ContextCommand C)}
    (hleaf : ∀ c ∈ session, ∀ leaf ∈ c.command.leaves, allowed (.leaf c.auth leaf)) :
    (sessionProgram session).Uses allowed := by
  induction session with
  | nil => trivial
  | cons c session ih =>
    have hc := uses_executeProgram hlookup hremember c.command (hleaf c List.mem_cons_self)
    have hrest := ih fun c' hc' => hleaf c' (List.mem_cons_of_mem c hc')
    exact hc.bind fun _ => hrest.bind fun _ => trivial

end

/-! ## Single calls -/

/-- What a session does between two turns of others: one operation on the cache, one call of the
store or the engine, or one look at the clock. -/
inductive CallOp (C : Crates) where
  | lookup (requestId : Option String)
  | handler (op : Op C)
  | remember (requestId : Option String) (response : CommandResponse C)

def CallOp.Answer : CallOp C → Type
  | .lookup _ => Option Resp3Frame
  | .handler op => op.Answer
  | .remember .. => Unit

def CallOp.answer (B : Backend C σ) :
    (op : CallOp C) → Dispatcher C σ → op.Answer × Dispatcher C σ
  | .lookup id, d => d.lookup id
  | .handler op, d => Dispatcher.answer B op d
  | .remember id response, d => ((), d.remember id response)

abbrev CallProgram (C : Crates) := Program (CallOp.Answer (C := C))

/-- A handler's operations as they are. -/
def handlerBody (op : Op C) : CallProgram C op.Answer := .ask (.handler op) .pure

/-- A command, call by call: the access check and then its handler. -/
def leafBody (hasEngine : Bool) (auth : Option C.AuthContext) (cmd : Command) :
    CallProgram C (CommandResponse C) :=
  match aclCheck auth cmd.aclRequirement with
  | some e => .pure (.error e)
  | none => ((dispatch hasEngine cmd).expand handlerBody).bind fun result => .pure (toResponse result)

def commandBody (hasEngine : Bool) : (op : CommandOp C) → CallProgram C op.Answer
  | .lookup id => .ask (.lookup id) .pure
  | .leaf auth cmd => leafBody hasEngine auth cmd
  | .remember id response => .ask (.remember id response) .pure

theorem implements_handlerBody (B : Backend C σ) :
    Program.Implements (Dispatcher.answer B) (CallOp.answer B) handlerBody :=
  fun _ _ => rfl

theorem implements_commandBody (B : Backend C σ) :
    Program.Implements (CommandOp.answer B) (CallOp.answer B) (commandBody B.hasEngine) := by
  intro op d
  cases op with
  | lookup id => rfl
  | remember id response => rfl
  | leaf auth cmd =>
    change (leafBody B.hasEngine auth cmd).run (CallOp.answer B) d = executeLeaf B auth cmd d
    rw [leafBody, executeLeaf]
    cases aclCheck auth cmd.aclRequirement with
    | some e => rfl
    | none =>
      dsimp only
      rw [Program.run_bind, Program.run_expand (implements_handlerBody B)]
      rfl

theorem atMostOnce_leafBody (hasEngine : Bool) (auth : Option C.AuthContext) {cmd : Command}
    (h : ∀ key value, cmd ≠ .configSet key value) : (leafBody hasEngine auth cmd).AtMostOnce := by
  rw [leafBody]
  cases aclCheck auth cmd.aclRequirement with
  | some e => trivial
  | none =>
    rcases dispatch_cases (C := C) hasEngine cmd h with ⟨r, hpure, -⟩ | ⟨c, finish, hquery, -⟩
    · rw [hpure]
      trivial
    · rw [hquery]
      exact fun answer => ⟨toResponse (finish answer), rfl⟩

/-! ## Sessions that take turns -/

variable {ι : Type} [DecidableEq ι]

def sessionThreads (d : Dispatcher C σ) (sessions : ι → List (ContextCommand C)) :
    Threads ι (CommandOp.Answer (C := C)) (List (CommandResponse C)) (Dispatcher C σ) :=
  ⟨d, fun i => sessionProgram (sessions i)⟩

/-- The sessions with turns of others between any two calls, inside of commands too. -/
def interleave (B : Backend C σ) (d : Dispatcher C σ) (sessions : ι → List (ContextCommand C))
    (schedule : List ι) :
    Threads ι (CallOp.Answer (C := C)) (List (CommandResponse C)) (Dispatcher C σ) :=
  ((sessionThreads d sessions).expand (commandBody B.hasEngine)).run (CallOp.answer B) schedule

/-- Without CONFIG SET, whose calls others can come between, sessions that take turns at each
single call end as sessions that take turns at whole commands. -/
theorem calls_interleave_by_command (B : Backend C σ) (d : Dispatcher C σ)
    (sessions : ι → List (ContextCommand C))
    (hsingle : ∀ i, ∀ c ∈ sessions i, ∀ leaf ∈ c.command.leaves, ∀ key value,
      leaf ≠ .configSet key value) (schedule : List ι) :
    ∃ order, let whole := (sessionThreads d sessions).run (CommandOp.answer B) order
      whole.env = (interleave B d sessions schedule).env ∧
      ∀ i ∈ schedule, ∀ responses, (interleave B d sessions schedule).program i = .pure responses →
        whole.program i = .pure responses := by
  have huses : ∀ i, ((sessionThreads d sessions).program i).Uses
      fun op => (commandBody B.hasEngine op).AtMostOnce := by
    intro i
    refine uses_sessionProgram (fun id => ?_) (fun id response => ?_) fun c hc leaf hleaf => ?_
    · exact fun answer => ⟨answer, rfl⟩
    · exact fun answer => ⟨answer, rfl⟩
    · exact atMostOnce_leafBody B.hasEngine c.auth (hsingle i c hc leaf hleaf)
  obtain ⟨order, hexpand, hdone⟩ :=
    Threads.exists_schedule (implements_commandBody B) huses schedule
  refine ⟨order, ?_, hdone⟩
  rw [interleave, ← hexpand]
  rfl

namespace Memory

/-- Two writers of one key, one in a pipeline. -/
def writers (second : Bool) : List (ContextCommand crates) :=
  let write := .put "a" [107] [118] none none
  if second then [⟨some writer, .pipeline [write, .get "a" [107] none false] (some "x")⟩]
  else [⟨some writer, write⟩]

/-- The first write comes between the commands of the pipeline. -/
theorem write_inside_pipeline :
    let after := interleave backend (fresh []) writers [true, true, false, true, true]
    (∃ order, let whole := (sessionThreads (fresh []) writers).run (CommandOp.answer backend) order
      whole.env = after.env ∧ ∀ i ∈ [true, true, false, true, true], ∀ responses,
        after.program i = .pure responses → whole.program i = .pure responses) ∧
    after.env.store = [⟨"a", [107], [118], 2⟩, ⟨"a", [107], [118], 1⟩] ∧
    after.program false = .pure [.success (ResponseMap.ok.field "version" (.integer 2))] := by
  refine ⟨calls_interleave_by_command backend _ writers ?_ _, rfl, rfl⟩
  intro i c hc leaf hleaf key value
  cases i with
  | false =>
    obtain rfl := List.mem_singleton.mp hc
    obtain rfl := List.mem_singleton.mp hleaf
    exact fun h => nomatch h
  | true =>
    obtain rfl := List.mem_singleton.mp hc
    rcases List.mem_cons.mp hleaf with rfl | hleaf
    · exact fun h => nomatch h
    · obtain rfl := List.mem_singleton.mp hleaf
      exact fun h => nomatch h

end Memory

/-! ## Access checks -/

/-- The call of the store or the engine that an operation makes. -/
def CallOp.call : CallOp C → Option (Call C)
  | .handler (.call c) => some c
  | _ => none

end

end Shroudb
