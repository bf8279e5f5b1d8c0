import Mathlib.Data.List.Dedup
import Shroudb.Effect.Schedule
import Shroudb.Protocol.AclCoverage

/-! Whose name a written version and its event carry. -/
namespace Shroudb
open Wire Effect

/-- The actor `main` gives the embedded store. -/
def storeActor : String := "server"

/-- What `after` adds to `before` are events of `actor`. -/
def Adds (actor : String) (before after : List SubscriptionEvent) : Prop :=
  ∃ added, after = before ++ added ∧ ∀ e ∈ added, e.actor = actor

theorem Adds.refl (actor : String) (l : List SubscriptionEvent) : Adds actor l l :=
  ⟨[], by simp, by simp⟩

theorem Adds.trans {actor : String} {l l' l'' : List SubscriptionEvent} (h : Adds actor l l')
    (h' : Adds actor l' l'') : Adds actor l l'' := by
  obtain ⟨added, rfl, hall⟩ := h
  obtain ⟨more, rfl, hmore⟩ := h'
  refine ⟨added ++ more, List.append_assoc _ _ _, fun e he => ?_⟩
  rcases List.mem_append.mp he with he | he
  · exact hall e he
  · exact hmore e he

section
variable {C : Crates} {σ : Type}

/-- The name under which `execute` would audit a command. -/
def actorName (auth : Option C.AuthContext) : String := (auth.map C.actor).getD "anonymous"

/-- What the embedded store documents of its writes: each publishes one event, and the event and
the version carry the actor the store was built with. `events` are those published so far. -/
structure Backend.Attributes (B : Backend C σ) (actor : String)
    (events : σ → List SubscriptionEvent) : Prop where
  published : ∀ c s, Adds actor (events s) (events (B.perform c s).2)
  reported : ∀ ns key limit fromVersion s infos,
    (B.perform (.versions ns key limit fromVersion) s).1 = Except.ok infos → ∀ info ∈ infos,
      ∃ e ∈ events s, e.ns = ns ∧ e.key = key ∧ e.version = info.version ∧ e.actor = info.actor

/-- A command with the context it is executed in. -/
structure ContextCommand (C : Crates) where
  auth : Option C.AuthContext
  command : Command

def ContextCommand.after (B : Backend C σ) (d : Dispatcher C σ) (c : ContextCommand C) :
    Dispatcher C σ :=
  (execute B c.auth c.command d).2

/-- A write, by the event it published, and the context that executed it. -/
structure Written (C : Crates) where
  event : SubscriptionEvent
  auth : Option C.AuthContext

/-- The writes of a run, in order. -/
def writesOfRun (B : Backend C σ) (events : σ → List SubscriptionEvent) :
    Dispatcher C σ → List (ContextCommand C) → List (Written C)
  | _, [] => []
  | d, c :: rest =>
    ((events (c.after B d).store).drop (events d.store).length).map (⟨·, c.auth⟩) ++
      writesOfRun B events (c.after B d) rest

/-- Every write of the run carries the name of the context that executed it, on its event and in
what `VERSIONS` replies afterwards for any key, as far as its versions are of this run. -/
structure WellAttributed (B : Backend C σ) (events : σ → List SubscriptionEvent)
    (d : Dispatcher C σ) (commands : List (ContextCommand C)) : Prop where
  onEvents : ∀ w ∈ writesOfRun B events d commands, w.event.actor = actorName w.auth
  onVersions : ∀ ns key limit fromVersion m,
    ((dispatch B.hasEngine (.versions ns key limit fromVersion)).run (Dispatcher.answer B)
      (Schedule.run (ContextCommand.after B) d commands)).1 = .ok m →
    ∃ infos : List VersionInfo,
      m = ResponseMap.ok.field "versions" (.array (infos.map Handlers.versionEntry)) ∧
      ∀ info ∈ infos,
        (∃ e ∈ events d.store, e.ns = ns ∧ e.key = key ∧ e.version = info.version) ∨
        ∃ w ∈ writesOfRun B events d commands, w.event.ns = ns ∧ w.event.key = key ∧
          w.event.version = info.version ∧ info.actor = actorName w.auth

variable {B : Backend C σ} {actor : String} {events : σ → List SubscriptionEvent}

/-- Whoever executes a command, what it writes is the store's. -/
theorem execute_published (hB : B.Attributes actor events) (auth : Option C.AuthContext)
    (cmd : Command) (d : Dispatcher C σ) :
    Adds actor (events d.store) (events (execute B auth cmd d).2.store) :=
  execute_store_invariant (I := fun s => Adds actor (events d.store) (events s))
    (fun c s _ hs => hs.trans (hB.published c s)) cmd (.refl actor _)

theorem events_run (hB : B.Attributes actor events) (commands : List (ContextCommand C))
    (d : Dispatcher C σ) :
    events (Schedule.run (ContextCommand.after B) d commands).store =
        events d.store ++ (writesOfRun B events d commands).map (·.event) ∧
      ∀ w ∈ writesOfRun B events d commands, w.event.actor = actor := by
  induction commands generalizing d with
  | nil => exact ⟨by simp [Schedule.run, writesOfRun], by simp [writesOfRun]⟩
  | cons c rest ih =>
    obtain ⟨added, hadded, hall⟩ := execute_published hB c.auth c.command d
    obtain ⟨hrun, hrest⟩ := ih (c.after B d)
    have hnew : (events (c.after B d).store).drop (events d.store).length = added := by
      rw [ContextCommand.after, hadded, List.drop_left]
    rw [writesOfRun, hnew]
    constructor
    · change events (Schedule.run (ContextCommand.after B) (c.after B d) rest).store = _
      rw [hrun, ContextCommand.after, hadded, List.map_append, List.map_map, List.append_assoc]
      congr 1
      congr 1
      exact (List.map_id' added).symm
    · intro w hw
      rcases List.mem_append.mp hw with hw | hw
      · obtain ⟨e, he, rfl⟩ := List.mem_map.mp hw
        exact hall e he
      · exact hrest w hw

/-- The server's store names itself: a run is attributed to its contexts exactly if every context
that wrote something has the name of the store. -/
theorem wellAttributed_iff (hB : B.Attributes storeActor events) (d : Dispatcher C σ)
    (commands : List (ContextCommand C)) :
    WellAttributed B events d commands ↔
      ∀ w ∈ writesOfRun B events d commands, actorName w.auth = storeActor := by
  obtain ⟨hrun, hall⟩ := events_run hB commands d
  constructor
  · intro h w hw
    rw [← h.onEvents w hw, hall w hw]
  · intro h
    refine ⟨fun w hw => by rw [hall w hw, h w hw], ?_⟩
    intro ns key limit fromVersion m hm
    rw [dispatch, Handlers.versions, run_query] at hm
    cases hinfos : (B.perform (.versions ns key (limit.getD 100) fromVersion)
        (Schedule.run (ContextCommand.after B) d commands).store).1 with
    | error e =>
      rw [hinfos] at hm
      cases hm
    | ok infos =>
      rw [hinfos] at hm
      cases hm
      refine ⟨infos, rfl, fun info hinfo => ?_⟩
      obtain ⟨e, he, hns, hkey, hversion, hactor⟩ := hB.reported _ _ _ _ _ _ hinfos info hinfo
      rw [hrun] at he
      rcases List.mem_append.mp he with he | he
      · exact Or.inl ⟨e, he, hns, hkey, hversion⟩
      · obtain ⟨w, hw, rfl⟩ := List.mem_map.mp he
        exact Or.inr ⟨w, hw, hns, hkey, hversion, by rw [← hactor, hall w hw, h w hw]⟩

end

namespace Memory

/-- A store that keeps the events it has published. -/
abbrev Journal := List SubscriptionEvent

namespace Journal
variable (j : Journal)

def versionsOf (ns : String) (key : Bytes) : List SubscriptionEvent :=
  j.filter fun e => e.ns = ns ∧ e.key = key

/-- The current version of a key, 0 for none, and whether it holds a value. -/
def current (ns : String) (key : Bytes) : UInt64 × Bool :=
  match (j.versionsOf ns key).getLast? with
  | none => (0, false)
  | some e => (e.version, e.event = .put)

def record (event : EventType) (ns : String) (key : Bytes) : UInt64 × Journal :=
  ((j.current ns key).1 + 1, j ++ [⟨event, ns, key, (j.current ns key).1 + 1, storeActor, 0⟩])

def keysUnder (ns : String) (keyPrefix : Bytes) : List Bytes :=
  ((j.filter fun e => e.ns = ns ∧ keyPrefix.isPrefixOf e.key).map (·.key)).dedup.filter fun key =>
    (j.current ns key).2

def info (e : SubscriptionEvent) : VersionInfo :=
  ⟨e.version, if e.event = .put then .active else .deleted, e.timestamp, e.actor⟩

def put (ns : String) (key : Bytes) : Except (StoreError Empty) UInt64 × Journal :=
  (.ok (j.record .put ns key).1, (j.record .put ns key).2)

def delete (ns : String) (key : Bytes) : Except (StoreError Empty) UInt64 × Journal :=
  if (j.current ns key).2 then (.ok (j.record .delete ns key).1, (j.record .delete ns key).2)
  else (.error .notFound, j)

def onVersion (ns : String) (key : Bytes) (expected : UInt64)
    (write : Except (StoreError Empty) UInt64 × Journal) :
    Except (StoreError Empty) UInt64 × Journal :=
  if (j.current ns key).1 = expected then write
  else (.error (.versionConflict (j.current ns key).1), j)

def deleteAll (ns : String) (keys : List Bytes) : Journal :=
  keys.foldl (fun j key => (j.record .delete ns key).2) j

end Journal

def performJournal : (c : Call crates) → Journal → c.Answer × Journal
  | .putWithOptions ns key _ _, j => j.put ns key
  | .delete ns key, j => j.delete ns key
  | .putIfVersion ns key _ _ expected, j => j.onVersion ns key expected (j.put ns key)
  | .deleteIfVersion ns key expected, j => j.onVersion ns key expected (j.delete ns key)
  | .deletePrefix ns keyPrefix, j =>
    (.ok (UInt64.ofNat (j.keysUnder ns keyPrefix).length),
      j.deleteAll ns (j.keysUnder ns keyPrefix))
  | .versions ns key limit _, j =>
    (.ok (((j.versionsOf ns key).reverse.take limit.toNat).map Journal.info), j)
  | c, j => ((perform c []).1, j)

theorem adds_record (j : Journal) (event : EventType) (ns : String) (key : Bytes) :
    Adds storeActor j (j.record event ns key).2 := by
  refine ⟨[_], rfl, fun e he => ?_⟩
  cases List.mem_singleton.mp he
  rfl

theorem adds_delete (j : Journal) (ns : String) (key : Bytes) :
    Adds storeActor j (j.delete ns key).2 := by
  rw [Journal.delete]
  split_ifs
  · exact adds_record j .delete ns key
  · exact .refl storeActor j

theorem adds_onVersion {j : Journal} {write : Except (StoreError Empty) UInt64 × Journal}
    (h : Adds storeActor j write.2) (ns : String) (key : Bytes) (expected : UInt64) :
    Adds storeActor j (j.onVersion ns key expected write).2 := by
  rw [Journal.onVersion]
  split_ifs
  · exact h
  · exact .refl storeActor j

theorem adds_deleteAll (ns : String) (keys : List Bytes) (j : Journal) :
    Adds storeActor j (j.deleteAll ns keys) := by
  induction keys generalizing j with
  | nil => exact .refl storeActor j
  | cons key keys ih => exact (adds_record j .delete ns key).trans (ih _)

def journal : Backend crates Journal where
  hasEngine := true
  perform := performJournal

theorem journal_attributes : journal.Attributes storeActor id where
  published c j := by
    cases c with
    | putWithOptions ns key value options => exact adds_record j .put ns key
    | delete ns key => exact adds_delete j ns key
    | putIfVersion ns key value metadata expected =>
      exact adds_onVersion (adds_record j .put ns key) ns key expected
    | deleteIfVersion ns key expected => exact adds_onVersion (adds_delete j ns key) ns key expected
    | deletePrefix ns keyPrefix => exact adds_deleteAll ns _ j
    | _ => exact Adds.refl storeActor j
  reported ns key limit fromVersion j infos h info hinfo := by
    cases h
    obtain ⟨e, he, rfl⟩ := List.mem_map.mp hinfo
    have hmem := List.mem_filter.mp (List.mem_reverse.mp (List.mem_of_mem_take he))
    obtain ⟨hns, hkey⟩ := of_decide_eq_true hmem.2
    exact ⟨e, hmem.1, hns, hkey, rfl, rfl⟩

def emptyJournal : Dispatcher crates Journal :=
  .new [] (Stream'.const 0) (Stream'.const (some 0))

/-- A `PUT` by a principal named `name`. -/
def putBy (name : String) : ContextCommand crates :=
  ⟨some ⟨"tenant-a", name, false, [("a", .write)], none⟩, .put "a" [107] [118] none none⟩

theorem wellAttributed_server :
    (writesOfRun journal id emptyJournal [putBy "server"]).length = 1 ∧
      WellAttributed journal id emptyJournal [putBy "server"] := by
  refine ⟨rfl, (wellAttributed_iff journal_attributes emptyJournal [putBy "server"]).mpr ?_⟩
  intro w hw
  cases List.mem_singleton.mp hw
  rfl

/-- Two principals write one key, and both versions and both events name the server. -/
theorem put_attributed_to_server :
    (writesOfRun journal id emptyJournal [putBy "writer", putBy "auditor"]).map
        (fun w => (w.event.version, w.event.actor, actorName w.auth)) =
      [(1, "server", "writer"), (2, "server", "auditor")] ∧
    ((dispatch true (.versions "a" [107] none none)).run (Dispatcher.answer journal)
      (Schedule.run (ContextCommand.after journal) emptyJournal
        [putBy "writer", putBy "auditor"])).1 =
      .ok (ResponseMap.ok.field "versions" (.array ([⟨2, .active, 0, "server"⟩,
        ⟨1, .active, 0, "server"⟩].map Handlers.versionEntry))) :=
  ⟨rfl, rfl⟩

end Memory

end Shroudb
