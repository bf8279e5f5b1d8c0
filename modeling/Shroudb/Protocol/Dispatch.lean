import Mathlib.Data.Stream.Defs
import Shroudb.Protocol.Handlers
import Shroudb.Protocol.Idempotency

/-! `CommandDispatcher::execute`: access control, pipelines and the idempotency cache. -/
namespace Shroudb
open Wire Effect

/-- What a call of `execute` works on. `instants` and `wall` are the readings of the two clocks
still to come, and `calls` records the store and engine calls made so far. -/
structure Dispatcher (C : Crates) (σ : Type) where
  store : σ
  idempotency : IdempotencyMap
  instants : Stream' Instant
  wall : Stream' (Option UInt64)
  calls : List (Call C)

namespace Dispatcher
variable {C : Crates} {σ : Type}

/-- A dispatcher that has done nothing yet. -/
def new (store : σ) (instants : Stream' Instant) (wall : Stream' (Option UInt64)) :
    Dispatcher C σ :=
  ⟨store, IdempotencyMap.new, instants, wall, []⟩

def answer (B : Backend C σ) : (op : Op C) → Dispatcher C σ → op.Answer × Dispatcher C σ
  | .call c, d =>
    ((B.perform c d.store).1,
      { d with store := (B.perform c d.store).2, calls := d.calls ++ [c] })
  | .systemTime, d => (d.wall.head, { d with wall := d.wall.tail })

/-- The time at which the next cache operation happens. -/
def tick (d : Dispatcher C σ) : Instant × Dispatcher C σ :=
  (d.instants.head, { d with instants := d.instants.tail })

/-- The cached frame under the id of a pipeline, when it has an id. -/
def lookup (requestId : Option String) (d : Dispatcher C σ) : Option Resp3Frame × Dispatcher C σ :=
  match requestId with
  | none => (none, d)
  | some id =>
    let (now, d) := d.tick
    let (frame, idempotency) := d.idempotency.get id now
    (frame, { d with idempotency })

def remember (requestId : Option String) (response : CommandResponse C) (d : Dispatcher C σ) :
    Dispatcher C σ :=
  match requestId with
  | none => d
  | some id =>
    let (now, d) := d.tick
    { d with idempotency := d.idempotency.insert id (responseToFrame response) now }

variable {d : Dispatcher C σ} {id : String}

theorem lookup_some :
    d.lookup (some id) = (d.idempotency.live id d.instants.head,
      { d with
        idempotency := (d.idempotency.get id d.instants.head).2, instants := d.instants.tail }) := by
  simp [lookup, tick, IdempotencyMap.get_fst]

theorem remember_some {response : CommandResponse C} :
    d.remember (some id) response =
      { d with
        idempotency := d.idempotency.insert id (responseToFrame response) d.instants.head,
        instants := d.instants.tail } := rfl

end Dispatcher

section
variable {C : Crates} {σ : Type}

/-- The middleware's verdict. `none` lets the command through. -/
def aclCheck (auth : Option C.AuthContext) (requirement : AclRequirement) :
    Option (CommandError C) :=
  match requirement, auth with
  | .none, _ => none
  | _, none => some .notAuthenticated
  | requirement, some ctx =>
    match C.check ctx requirement with
    | .ok () => none
    | .error e => some (.denied e)

/-- Pipelines never get here: `execute` runs them itself. -/
def dispatch (hasEngine : Bool) : Command → Plan C
  | .auth _ => Handlers.refuse (.internal
      "AUTH must be handled at the connection level (bug: reached dispatcher)")
  | .ping => Handlers.reply (ResponseMap.ok.field "message" (.string "PONG"))
  | .put ns key value metadata ttlMs => Handlers.put ns key value metadata ttlMs
  | .get ns key version withMeta => Handlers.get ns key version withMeta
  | .delete ns key => Handlers.delete ns key
  | .putIf ns key value metadata expected => Handlers.putIf ns key value metadata expected
  | .delIf ns key expected => Handlers.delIf ns key expected
  | .delPrefix ns keyPrefix => Handlers.delPrefix ns keyPrefix
  | .list ns keyPrefix cursor limit => Handlers.list ns keyPrefix cursor (limit.getD 100)
  | .versions ns key limit fromVersion => Handlers.versions ns key (limit.getD 100) fromVersion
  | .namespaceCreate name schema maxVersions retention =>
    Handlers.namespaceCreate name schema maxVersions retention
  | .namespaceDrop name force => Handlers.namespaceDrop name force
  | .namespaceList cursor limit => Handlers.namespaceList cursor (limit.getD 100)
  | .namespaceInfo name => Handlers.namespaceInfo name
  | .namespaceAlter name schema maxVersions retention =>
    Handlers.namespaceAlter name schema maxVersions retention
  | .namespaceValidate name => Handlers.namespaceValidate name
  | .health => Handlers.health
  | .configGet key =>
    if hasEngine then Handlers.configGet key
    else Handlers.refuse (.internal "CONFIG not available in remote store mode")
  | .configSet key value =>
    if hasEngine then Handlers.configSet key value
    else Handlers.refuse (.internal "CONFIG not available in remote store mode")
  | .commandList => Handlers.commandList
  | .rekey newKeyHex =>
    if hasEngine then Handlers.rekey newKeyHex
    else Handlers.refuse (.internal "REKEY not available in remote store mode")
  | .rekeyStatus =>
    if hasEngine then Handlers.rekeyStatus
    else Handlers.refuse (.internal "REKEY STATUS not available in remote store mode")
  | .subscribe .. => Handlers.refuse (.badArg "SUBSCRIBE must be handled at the connection level" "")
  | .unsubscribe => Handlers.refuse (.badArg "UNSUBSCRIBE: no active subscription" "")
  | .pipeline .. => Handlers.refuse (.internal "pipeline handled in execute()")

def toResponse : Except (CommandError C) (ResponseMap C) → CommandResponse C
  | .ok m => .success m
  | .error e => .error e

/-- A command other than a pipeline. -/
def executeLeaf (B : Backend C σ) (auth : Option C.AuthContext) (cmd : Command)
    (d : Dispatcher C σ) : CommandResponse C × Dispatcher C σ :=
  match aclCheck auth cmd.aclRequirement with
  | some e => (.error e, d)
  | none =>
    let (result, d) := (dispatch B.hasEngine cmd).run (Dispatcher.answer B) d
    (toResponse result, d)

theorem run_query {B : Backend C σ} {d : Dispatcher C σ} {c : Call C}
    {finish : c.Answer → Except (CommandError C) (ResponseMap C)} :
    ((Handlers.query c finish).run (Dispatcher.answer B) d).1 = finish (B.perform c d.store).1 := rfl

mutual
def execute (B : Backend C σ) (auth : Option C.AuthContext) :
    Command → Dispatcher C σ → CommandResponse C × Dispatcher C σ
  | .pipeline commands requestId, d =>
    match d.lookup requestId with
    | (some frame, d) => (.cachedFrame frame, d)
    | (none, d) =>
      let (results, d) := executeAll B auth commands d
      (.array results, d.remember requestId (.array results))
  | cmd, d => executeLeaf B auth cmd d
def executeAll (B : Backend C σ) (auth : Option C.AuthContext) :
    List Command → Dispatcher C σ → List (CommandResponse C) × Dispatcher C σ
  | [], d => ([], d)
  | c :: cs, d =>
    let (result, d) := execute B auth c d
    let (results, d) := executeAll B auth cs d
    (result :: results, d)
end

theorem execute_leaf {B : Backend C σ} {auth : Option C.AuthContext} {cmd : Command}
    {d : Dispatcher C σ} (h : cmd.isPipeline = false) :
    execute B auth cmd d = executeLeaf B auth cmd d := by
  cases cmd <;> first | rfl | cases h

theorem execute_pipeline_hit {B : Backend C σ} {auth : Option C.AuthContext} {cs : List Command}
    {id : Option String} {d : Dispatcher C σ} {frame : Resp3Frame}
    (h : (d.lookup id).1 = some frame) :
    execute B auth (.pipeline cs id) d = (.cachedFrame frame, (d.lookup id).2) := by
  rw [execute]
  split
  case h_1 f d' hl => simp_all
  case h_2 d' hl => simp_all

theorem execute_pipeline_miss {B : Backend C σ} {auth : Option C.AuthContext} {cs : List Command}
    {id : Option String} {d : Dispatcher C σ} (h : (d.lookup id).1 = none) :
    execute B auth (.pipeline cs id) d =
      (.array (executeAll B auth cs (d.lookup id).2).1,
        (executeAll B auth cs (d.lookup id).2).2.remember id
          (.array (executeAll B auth cs (d.lookup id).2).1)) := by
  rw [execute]
  split
  case h_1 f d' hl => simp_all
  case h_2 d' hl => simp_all

section
variable {B : Backend C σ} {auth : Option C.AuthContext}

/-- A preorder that leaves and cache operations follow leads from the state before a command to
the state after it. -/
theorem execute_leads {R : Dispatcher C σ → Dispatcher C σ → Prop} (hrefl : ∀ d, R d d)
    (htrans : ∀ d₁ d₂ d₃, R d₁ d₂ → R d₂ d₃ → R d₁ d₃)
    (hleaf : ∀ cmd d, R d (executeLeaf B auth cmd d).2) (hlookup : ∀ id d, R d (d.lookup id).2)
    (hremember : ∀ id results d d', (d.lookup id).1 = none → R (d.lookup id).2 d' →
      R d (d'.remember id (.array results)))
    (cmd : Command) (d : Dispatcher C σ) : R d (execute B auth cmd d).2 := by
  induction cmd generalizing d with
  | leaf c hc =>
    rw [execute_leaf hc]
    exact hleaf c d
  | pipeline cs id ih =>
    cases hl : (d.lookup id).1 with
    | some frame =>
      rw [execute_pipeline_hit hl]
      exact hlookup id d
    | none =>
      rw [execute_pipeline_miss hl]
      refine hremember id _ d _ hl ?_
      generalize (d.lookup id).2 = d'
      clear hl
      induction cs generalizing d' with
      | nil => exact hrefl d'
      | cons c cs ihcs =>
        have hc := ih c (by simp) d'
        exact htrans _ _ _ hc (ihcs (fun c' hc' => ih c' (by simp [hc'])) _)

/-- What every leaf keeps, whatever the cache and the clock do, `execute` keeps. -/
theorem execute_invariant {I : Dispatcher C σ → Prop}
    (hcache : ∀ d m i, I d → I { d with idempotency := m, instants := i })
    (hleaf : ∀ cmd d, I d → I (executeLeaf B auth cmd d).2) (cmd : Command) {d : Dispatcher C σ}
    (h : I d) : I (execute B auth cmd d).2 := by
  have hlookup : ∀ id d, I d → I (d.lookup id).2 := by
    intro id d hd
    cases id with
    | none => exact hd
    | some id =>
      rw [Dispatcher.lookup_some]
      exact hcache _ _ _ hd
  have hremember : ∀ id r d, I d → I (d.remember id r) := by
    intro id r d hd
    cases id with
    | none => exact hd
    | some id =>
      rw [Dispatcher.remember_some]
      exact hcache _ _ _ hd
  refine execute_leads (R := fun d d' => I d → I d') (fun _ hd => hd)
    (fun _ _ _ h₁ h₂ hd => h₂ (h₁ hd)) hleaf hlookup ?_ cmd d h
  exact fun id _ d d' _ h' hd => hremember id _ d' (h' (hlookup id d hd))

/-- Environments and caches that answer alike from related states give the same response. -/
theorem execute_related {R : Dispatcher C σ → Dispatcher C σ → Prop}
    (hanswer : ∀ op d d', R d d' → (Dispatcher.answer B op d).1 = (Dispatcher.answer B op d').1 ∧
      R (Dispatcher.answer B op d).2 (Dispatcher.answer B op d').2)
    (hlookup : ∀ id d d', R d d' → (d.lookup id).1 = (d'.lookup id).1 ∧
      R (d.lookup id).2 (d'.lookup id).2)
    (hremember : ∀ id r d d', R d d' → R (d.remember id r) (d'.remember id r)) (cmd : Command)
    {d d' : Dispatcher C σ} (h : R d d') :
    (execute B auth cmd d).1 = (execute B auth cmd d').1 ∧
      R (execute B auth cmd d).2 (execute B auth cmd d').2 := by
  induction cmd generalizing d d' with
  | leaf c hc =>
    rw [execute_leaf hc, execute_leaf hc, executeLeaf, executeLeaf]
    cases aclCheck auth c.aclRequirement with
    | some e => exact ⟨rfl, h⟩
    | none =>
      obtain ⟨hres, hr⟩ := Program.run_related (p := dispatch B.hasEngine c)
        (fun op d d' _ => hanswer op d d') Program.uses_any h
      exact ⟨congrArg toResponse hres, hr⟩
  | pipeline cs id ih =>
    obtain ⟨hfound, hr⟩ := hlookup id d d' h
    cases hl : (d.lookup id).1 with
    | some frame =>
      rw [execute_pipeline_hit hl, execute_pipeline_hit (hfound ▸ hl)]
      exact ⟨rfl, hr⟩
    | none =>
      rw [execute_pipeline_miss hl, execute_pipeline_miss (hfound ▸ hl)]
      generalize (d.lookup id).2 = d₁ at hr
      generalize (d'.lookup id).2 = d₁' at hr
      have hall : (executeAll B auth cs d₁).1 = (executeAll B auth cs d₁').1 ∧
          R (executeAll B auth cs d₁).2 (executeAll B auth cs d₁').2 := by
        clear hl hfound
        induction cs generalizing d₁ d₁' with
        | nil => exact ⟨rfl, hr⟩
        | cons c cs ihcs =>
          obtain ⟨hc, hrc⟩ := ih c (by simp) hr
          obtain ⟨hcs, hrcs⟩ := ihcs (fun c' hc' => ih c' (by simp [hc'])) _ _ hrc
          exact ⟨congrArg₂ List.cons hc hcs, hrcs⟩
      obtain ⟨hres, hrall⟩ := hall
      rw [hres]
      exact ⟨rfl, hremember id _ _ _ hrall⟩

end

end

end Shroudb
