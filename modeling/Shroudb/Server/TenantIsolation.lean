import Shroudb.Protocol.AclCoverage
import Shroudb.Server.Connection

/-! Whether what one principal does can be seen by another. -/
namespace Shroudb
open Wire Effect

def Command.isRead : Command → Bool
  | .get .. | .list .. | .versions .. | .namespaceInfo _ | .namespaceValidate _ | .subscribe .. =>
    true
  | _ => false

variable {C : Crates} {σ V : Type}

/-- The commands of one principal, each admitted by its connection. -/
def afterCommands (B : Backend C σ) (m : Moment C) (ctx : C.AuthContext) :
    List Command → Dispatcher C σ → Dispatcher C σ
  | [], d => d
  | cmd :: cmds, d =>
    afterCommands B m ctx cmds
      (handleAdmitted B true m ⟨some ctx, none, .command⟩ d [] cmd).dispatcher

/-- What a principal is replied, command after command. -/
def repliesTo (B : Backend C σ) (m : Moment C) (ctx : C.AuthContext) :
    List Command → Dispatcher C σ → List (List Resp3Frame)
  | [], _ => []
  | cmd :: cmds, d =>
    let outcome := handleAdmitted B true m ⟨some ctx, none, .command⟩ d [] cmd
    outcome.written :: repliesTo B m ctx cmds outcome.dispatcher

/-- Nothing `a` does changes what `b` reads afterwards. -/
def Isolated (B : Backend C σ) (a b : C.AuthContext) : Prop :=
  ∀ (m : Moment C) (d : Dispatcher C σ) (cmds reads : List Command),
    (∀ cmd ∈ reads, cmd.isRead = true) →
    repliesTo B m b reads (afterCommands B m a cmds d) = repliesTo B m b reads d

/-- The store keeps its namespaces apart: `view s ns` is all that reads in `ns` depend on, and only
writes in `ns` and administrators change it. -/
structure Backend.ByNamespace (B : Backend C σ) (view : σ → String → V) : Prop where
  answers : ∀ (c : Call C) ns s s', c.requirement = .inNamespace ns .read none →
    view s ns = view s' ns → (B.perform c s).1 = (B.perform c s').1
  keeps : ∀ (c : Call C) ns s, c.requirement ≠ .admin →
    c.requirement ≠ .inNamespace ns .write none → view (B.perform c s).2 ns = view s ns

/-- Some state of the store does not have a key that a put then adds, in every namespace. -/
def Backend.PutsVisible (B : Backend C σ) : Prop :=
  ∀ ns, ∃ s key value entry,
    (B.perform (.get ns (utf8 key) none) s).1 = Except.error .notFound ∧
    (B.perform (.get ns (utf8 key) none)
      (B.perform (.putWithOptions ns (utf8 key) (utf8 value) ⟨none, none, none⟩) s).2).1 =
        Except.ok entry

def subscribeAnswer (B : Backend C σ) (ns : String) (filter : SubscriptionFilter) (s : σ) :
    Except (StoreError C.ValidationError) Unit :=
  (B.perform (.subscribe ns filter) s).1

section
variable {B : Backend C σ} {view : σ → String → V} {m : Moment C} {a b : C.AuthContext}
  {ns : String}

theorem handleAdmitted_subscribe_denied {d : Dispatcher C σ} {key : Option Bytes}
    {events : List String} {e : String} (h : C.check a (.inNamespace ns .read none) = .error e) :
    handleAdmitted B true m ⟨some a, none, .command⟩ d [] (.subscribe ns key events) =
      respond m ⟨some a, none, .command⟩ d [] (denied (C := C) e) := by
  simp only [handleAdmitted, handleSubscribe, Command.aclRequirement, h]

theorem handleAdmitted_subscribe_allowed {d : Dispatcher C σ} {key : Option Bytes}
    {events : List String} (h : C.check a (.inNamespace ns .read none) = .ok ()) :
    handleAdmitted B true m ⟨some a, none, .command⟩ d [] (.subscribe ns key events) =
      openSubscription m ⟨some a, none, .command⟩
        (Dispatcher.answer B (.call (.subscribe ns ⟨key, eventFilter events⟩)) d).2 [] ns
        (subscribeAnswer B ns ⟨key, eventFilter events⟩ d.store) := by
  simp only [handleAdmitted, handleSubscribe, Command.aclRequirement, h]
  rfl

theorem openSubscription_dispatcher {conn : Connection C} {d : Dispatcher C σ}
    {deeds : List (Deed C)} {opened : Except (StoreError C.ValidationError) Unit} :
    (openSubscription m conn d deeds ns opened).dispatcher = d := by
  cases opened <;> rfl

/-- The store after an admitted command, whatever it was, has seen authorised calls only. -/
theorem handleAdmitted_store_invariant {I : σ → Prop}
    (hcall : ∀ c s, Authorised (some a) c → I s → I (B.perform c s).2) (cmd : Command)
    {d : Dispatcher C σ} (h : I d.store) :
    I (handleAdmitted B true m ⟨some a, none, .command⟩ d [] cmd).dispatcher.store := by
  by_cases hsub : ∃ ns key events, cmd = .subscribe ns key events
  · obtain ⟨ns, key, events, rfl⟩ := hsub
    cases hok : C.check a (.inNamespace ns .read none) with
    | error e =>
      rw [handleAdmitted_subscribe_denied hok]
      exact h
    | ok u =>
      rw [handleAdmitted_subscribe_allowed hok, openSubscription_dispatcher]
      exact hcall (.subscribe ns ⟨key, eventFilter events⟩) _ (Or.inr ⟨a, rfl, hok⟩) h
  · rw [handleAdmitted.eq_2 _ _ _ _ _ _ _ fun ns key events h => hsub ⟨ns, key, events, h⟩]
    exact execute_store_invariant hcall cmd h

/-- `a`'s commands leave alone a namespace `a` may not write. -/
theorem afterCommands_view (hview : B.ByNamespace view) (hadmin : C.check a .admin ≠ .ok ())
    (hwrite : C.check a (.inNamespace ns .write none) ≠ .ok ()) (cmds : List Command)
    (d : Dispatcher C σ) : view (afterCommands B m a cmds d).store ns = view d.store ns := by
  have hcall : ∀ c s, Authorised (some a) c → view s ns = view d.store ns →
      view (B.perform c s).2 ns = view d.store ns := by
    intro c s hauth hs
    rw [hview.keeps c ns s ?_ ?_, hs]
    · intro hreq
      rcases hauth with hnone | ⟨ctx, hctx, hok⟩
      · rw [hreq] at hnone
        cases hnone
      · cases hctx
        exact hadmin (hreq ▸ hok)
    · intro hreq
      rcases hauth with hnone | ⟨ctx, hctx, hok⟩
      · rw [hreq] at hnone
        cases hnone
      · cases hctx
        exact hwrite (hreq ▸ hok)
  suffices ∀ d', view d'.store ns = view d.store ns →
      view (afterCommands B m a cmds d').store ns = view d.store ns from this d rfl
  induction cmds with
  | nil => exact fun d' h => h
  | cons cmd cmds ih =>
    intro d' h
    exact ih _ (handleAdmitted_store_invariant (I := fun s => view s ns = view d.store ns)
      hcall cmd h)

/-- The call a read makes, in its namespace. -/
theorem dispatch_read {cmd : Command} (hread : cmd.isRead = true) :
    ∃ ns, cmd.aclRequirement = .inNamespace ns .read none ∧
      (dispatch B.hasEngine cmd : Plan C).Uses
        fun op => ∃ c, op = .call c ∧ c.requirement = .inNamespace ns .read none := by
  cases cmd <;> first
    | exact ⟨_, rfl, ⟨_, rfl, rfl⟩, fun _ => trivial⟩
    | exact ⟨_, rfl, trivial⟩
    | cases hread

/-- Stores that look alike where `b` may read. -/
def SeenAlike (view : σ → String → V) (b : C.AuthContext) (d d' : Dispatcher C σ) : Prop :=
  ∀ ns, C.check b (.inNamespace ns .read none) = .ok () → view d.store ns = view d'.store ns

theorem SeenAlike.call (hview : B.ByNamespace view) {c : Call C}
    (hc : c.requirement = .inNamespace ns .read none) {d d' : Dispatcher C σ}
    (hb : C.check b (.inNamespace ns .read none) = .ok ()) (h : SeenAlike view b d d') :
    (Dispatcher.answer B (.call c) d).1 = (Dispatcher.answer B (.call c) d').1 ∧
      SeenAlike view b (Dispatcher.answer B (.call c) d).2 (Dispatcher.answer B (.call c) d').2 := by
  refine ⟨hview.answers c ns _ _ hc (h ns hb), ?_⟩
  intro ns' hb'
  have hadmin : c.requirement ≠ .admin := by simp [hc]
  have hwrite : c.requirement ≠ .inNamespace ns' .write none := by simp [hc]
  change view (B.perform c d.store).2 ns' = view (B.perform c d'.store).2 ns'
  rw [hview.keeps c ns' _ hadmin hwrite, hview.keeps c ns' _ hadmin hwrite, h ns' hb']

theorem executeLeaf_seenAlike (hview : B.ByNamespace view) {cmd : Command}
    (hread : cmd.isRead = true) {d d' : Dispatcher C σ} (h : SeenAlike view b d d') :
    (executeLeaf B (some b) cmd d).1 = (executeLeaf B (some b) cmd d').1 ∧
      SeenAlike view b (executeLeaf B (some b) cmd d).2 (executeLeaf B (some b) cmd d').2 := by
  obtain ⟨ns, hreq, huses⟩ := dispatch_read (B := B) hread
  rw [executeLeaf, executeLeaf, hreq]
  cases hb : C.check b (.inNamespace ns .read none) with
  | error e => simpa [aclCheck, hb] using h
  | ok u =>
    simp only [aclCheck, hb]
    obtain ⟨hres, hr⟩ := Program.run_related (R := SeenAlike view b)
      (fun op d d' hop hd => by
        obtain ⟨c, rfl, hc⟩ := hop
        exact SeenAlike.call hview hc hb hd) huses h
    exact ⟨congrArg toResponse hres, hr⟩

/-- A read of `b` is replied alike, and leaves the stores alike. -/
theorem handleAdmitted_seenAlike (hview : B.ByNamespace view) {cmd : Command}
    (hread : cmd.isRead = true) {d d' : Dispatcher C σ} (h : SeenAlike view b d d') :
    (handleAdmitted B true m ⟨some b, none, .command⟩ d [] cmd).written =
        (handleAdmitted B true m ⟨some b, none, .command⟩ d' [] cmd).written ∧
      SeenAlike view b (handleAdmitted B true m ⟨some b, none, .command⟩ d [] cmd).dispatcher
        (handleAdmitted B true m ⟨some b, none, .command⟩ d' [] cmd).dispatcher := by
  by_cases hsub : ∃ ns key events, cmd = .subscribe ns key events
  · obtain ⟨ns, key, events, rfl⟩ := hsub
    cases hok : C.check b (.inNamespace ns .read none) with
    | error e =>
      rw [handleAdmitted_subscribe_denied hok, handleAdmitted_subscribe_denied hok]
      exact ⟨rfl, h⟩
    | ok u =>
      obtain ⟨hsame, hstores⟩ := SeenAlike.call hview
        (c := .subscribe ns ⟨key, eventFilter events⟩) rfl hok h
      have hanswer : subscribeAnswer B ns ⟨key, eventFilter events⟩ d.store =
          subscribeAnswer B ns ⟨key, eventFilter events⟩ d'.store := hsame
      rw [handleAdmitted_subscribe_allowed hok, handleAdmitted_subscribe_allowed hok, hanswer,
        openSubscription_dispatcher, openSubscription_dispatcher]
      refine ⟨?_, hstores⟩
      cases subscribeAnswer B ns ⟨key, eventFilter events⟩ d'.store <;> rfl
  · have hne : ∀ ns key events, cmd = .subscribe ns key events → False :=
      fun ns key events h => hsub ⟨ns, key, events, h⟩
    have hleaf : cmd.isPipeline = false := by cases cmd <;> first | rfl | cases hread
    obtain ⟨hres, hstores⟩ := executeLeaf_seenAlike hview hread h
    rw [handleAdmitted.eq_2 _ _ _ _ _ _ _ hne, handleAdmitted.eq_2 _ _ _ _ _ _ _ hne,
      execute_leaf hleaf, execute_leaf hleaf]
    exact ⟨congrArg (fun r => [responseToFrame r]) hres, hstores⟩

theorem repliesTo_seenAlike (hview : B.ByNamespace view) (reads : List Command)
    (hreads : ∀ cmd ∈ reads, cmd.isRead = true) {d d' : Dispatcher C σ}
    (h : SeenAlike view b d d') : repliesTo B m b reads d = repliesTo B m b reads d' := by
  induction reads generalizing d d' with
  | nil => rfl
  | cons cmd reads ih =>
    obtain ⟨hreply, hstores⟩ := handleAdmitted_seenAlike (m := m) hview
      (hreads cmd List.mem_cons_self) h
    rw [repliesTo, repliesTo, hreply]
    exact congrArg _ (ih (fun cmd' h' => hreads cmd' (List.mem_cons_of_mem _ h')) hstores)

theorem handleAdmitted_put (ha : C.check a (.inNamespace ns .write none) = .ok ()) (key value : Bytes)
    (d : Dispatcher C σ) :
    (handleAdmitted B true m ⟨some a, none, .command⟩ d []
      (.put ns key value none none)).dispatcher.store =
        (B.perform (.putWithOptions ns key value ⟨none, none, none⟩) d.store).2 := by
  have hacl : aclCheck (some a) (Command.put ns key value none none).aclRequirement = none := by
    simp only [aclCheck, Command.aclRequirement, ha]
  simp only [handleAdmitted, execute, executeLeaf, hacl]
  rfl

/-- A read that finds a key and one that does not are told apart. -/
theorem handleAdmitted_get (hb : C.check b (.inNamespace ns .read none) = .ok ()) {key : Bytes}
    {d d' : Dispatcher C σ} {entry : Entry C}
    (hmissing : (B.perform (.get ns key none) d.store).1 = Except.error .notFound)
    (hfound : (B.perform (.get ns key none) d'.store).1 = Except.ok entry) :
    (handleAdmitted B true m ⟨some b, none, .command⟩ d' [] (.get ns key none false)).written ≠
      (handleAdmitted B true m ⟨some b, none, .command⟩ d [] (.get ns key none false)).written := by
  have hacl : aclCheck (some b) (Command.get ns key none false).aclRequirement = none := by
    simp only [aclCheck, Command.aclRequirement, hb]
  simp only [handleAdmitted, execute, executeLeaf, hacl]
  change [responseToFrame (toResponse ((Handlers.get ns key none false).run _ d').1)] ≠
    [responseToFrame (toResponse ((Handlers.get ns key none false).run _ d).1)]
  simp only [Handlers.get, Handlers.query, Program.run, Dispatcher.answer, hmissing, hfound]
  intro h
  cases h

/-- `b` sees nothing of `a` exactly when there is no namespace that `a` may write and `b` read. The
tenants of the two play no part. -/
theorem isolated_iff (hview : B.ByNamespace view) (hputs : B.PutsVisible)
    (hadmin : C.check a .admin ≠ .ok ()) :
    Isolated B a b ↔ ∀ ns, C.check a (.inNamespace ns .write none) = .ok () →
      C.check b (.inNamespace ns .read none) ≠ .ok () := by
  constructor
  · intro hiso ns ha hb
    obtain ⟨s, key, value, entry, hmissing, hfound⟩ := hputs ns
    let m : Moment C := ⟨0, none, fun _ => .error "", true⟩
    let d : Dispatcher C σ := .new s (Stream'.const 0) (Stream'.const none)
    have hsame := hiso m d [.put ns (utf8 key) (utf8 value) none none]
      [.get ns (utf8 key) none false] (by simp [Command.isRead])
    have hput := handleAdmitted_put (B := B) (m := m) ha (utf8 key) (utf8 value) d
    rw [show d.store = s from rfl] at hput
    rw [← hput] at hfound
    exact handleAdmitted_get hb hmissing hfound (List.cons.inj hsame).1
  · intro hdisjoint m d cmds reads hreads
    refine repliesTo_seenAlike hview reads hreads ?_
    intro ns hb
    exact afterCommands_view hview hadmin (fun ha => hdisjoint ns ha hb) cmds d

end

namespace Memory

def viewOf (s : State) (ns : String) : State := s.filter (·.ns == ns)

theorem find_viewOf (s : State) (ns : String) (key : Bytes) :
    find s ns key = (viewOf s ns).find? (·.key == key) := by
  rw [find, viewOf, List.find?_filter]
  congr 1
  funext r
  rw [Bool.eq_iff_iff]
  simp

theorem viewOf_filter {s : State} {ns : String} {keep : Record → Bool}
    (h : ∀ r : Record, r.ns = ns → keep r = true) : viewOf (s.filter keep) ns = viewOf s ns := by
  rw [viewOf, viewOf, List.filter_filter]
  refine List.filter_congr fun r _ => ?_
  by_cases hr : r.ns = ns <;> simp [hr, h]

theorem viewOf_put {s : State} {ns other : String} (h : other ≠ ns) (key value : Bytes) :
    viewOf (put s other key value).2 ns = viewOf s ns := by
  simp [put, viewOf, h]

theorem viewOf_delete {s : State} {ns other : String} (h : other ≠ ns) (key : Bytes) :
    viewOf (delete s other key).2 ns = viewOf s ns := by
  rw [delete]
  split
  · refine viewOf_filter fun r hr => ?_
    simp [hr, h.symm]
  · rfl

theorem viewOf_onVersion {s : State} {ns other : String} {key : Bytes} {expected : UInt64}
    {write : Except (StoreError Empty) UInt64 × State} (h : viewOf write.2 ns = viewOf s ns) :
    viewOf (onVersion s other key expected write).2 ns = viewOf s ns := by
  rw [onVersion]
  split
  · exact h
  · rfl

theorem backend_byNamespace : backend.ByNamespace viewOf where
  answers c ns s s' hc hv := by
    cases c <;> cases hc
    case get key version =>
      change get s ns key = get s' ns key
      rw [get, get, find_viewOf, find_viewOf, hv]
    case list keyPrefix cursor limit =>
      exact congrArg (fun v : State => (Except.ok
        ⟨(v.map (·.key)).eraseDups.take limit.toNat, none⟩ : Except (StoreError Empty) Page)) hv
    case versions key limit fromVersion =>
      have hfilter : ∀ s : State, (s.filter fun r => r.ns == ns && r.key == key) =
          (viewOf s ns).filter (·.key == key) := by
        intro s
        rw [viewOf, List.filter_filter]
        exact List.filter_congr fun r _ => Bool.and_comm _ _
      simp only [backend, perform, hfilter, hv]
      rfl
    case namespaceInfo =>
      have hcount : s.countP (·.ns == ns) = s'.countP (·.ns == ns) := by
        rw [List.countP_eq_length_filter, List.countP_eq_length_filter]
        exact congrArg List.length hv
      simp only [backend, perform, hcount]
      rfl
    case namespaceValidate => rfl
    case subscribe => rfl
  keeps c ns s hadmin hwrite := by
    cases c with
    | putWithOptions other key value options =>
      exact viewOf_put (fun h => hwrite (by rw [Call.requirement, h])) key value
    | delete other key => exact viewOf_delete (fun h => hwrite (by rw [Call.requirement, h])) key
    | putIfVersion other key value metadata expected =>
      exact viewOf_onVersion (viewOf_put (fun h => hwrite (by rw [Call.requirement, h])) key value)
    | deleteIfVersion other key expected =>
      exact viewOf_onVersion (viewOf_delete (fun h => hwrite (by rw [Call.requirement, h])) key)
    | deletePrefix other keyPrefix =>
      have hne : other ≠ ns := fun h => hwrite (by rw [Call.requirement, h])
      exact viewOf_filter fun r hr => by simp [hr, hne.symm]
    | namespaceDrop name force => exact absurd rfl hadmin
    | _ => rfl

theorem backend_putsVisible : backend.PutsVisible := by
  intro ns
  refine ⟨[], "k", "v", ⟨utf8 "k", utf8 "v", 1, (), 0, 0⟩, rfl, ?_⟩
  simp [backend, perform, put, get, find]
  rfl

def atZero : Moment crates := ⟨0, some 0, fun _ => .error "unknown token", true⟩

/-- Two tenants' contexts with grants on the same namespace: one reads what the other wrote. -/
theorem reader_sees_other_tenants_put :
    writer.tenant ≠ reader.tenant ∧ writer.isPlatform = false ∧ reader.isPlatform = false ∧
      repliesTo backend atZero reader [.get "a" [107] none false]
          (afterCommands backend atZero writer [.put "a" [107] [118] none none] (fresh [])) ≠
        repliesTo backend atZero reader [.get "a" [107] none false] (fresh []) := by
  refine ⟨by decide, rfl, rfl, ?_⟩
  intro h
  cases h

def neighbour : Principal := ⟨"tenant-a", "neighbour", false, [("b", .write)], none⟩

theorem reader_sees_nothing_of_neighbour : Isolated backend neighbour reader := by
  refine (isolated_iff backend_byNamespace backend_putsVisible ?_).mpr ?_
  · intro h
    cases h
  · intro ns ha hb
    simp [crates, Principal.check, neighbour, reader] at ha hb
    exact absurd (ha.symm.trans hb) (by decide)

end Memory

end Shroudb
