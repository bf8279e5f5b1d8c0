import Shroudb.Effect.Schedule
import Shroudb.Client.ProxyChain

/-! Operations performed through servers one behind the other, each the store of the one before. -/
namespace Shroudb
open Wire Resp3Frame Effect

variable {C : Crates} {σ τ : Type}

namespace StoreOp

/-- PUT asks its store for `put_with_options`, which `RemoteStore` leaves to the trait's default. -/
def Relayed : StoreOp C → Prop
  | .put .. => False
  | _ => True

/-- A result as the store's answer. -/
def toAnswer : (op : StoreOp C) → Except (StoreError C.ValidationError) op.Result → op.call.Answer
  | .put .., a => a
  | .get .., a => a
  | .delete .., a => a
  | .putIfVersion .., a => a
  | .deleteIfVersion .., a => a
  | .deletePrefix .., a => a
  | .list .., a => a
  | .versions .., a => a
  | .namespaceCreate .., a => a
  | .namespaceDrop .., a => a
  | .namespaceAlter .., a => a
  | .namespaceList .., a => a

/-- What has come back over the wire once comes back unchanged. -/
theorem returns_toAnswer {op : StoreOp C} {answer : op.call.Answer} {a : op.Result}
    (h : op.Returns answer a) : op.Returns (op.toAnswer (.ok a)) a := by
  cases op with
  | get ns key version =>
    obtain ⟨entry, -, hkey, hvalue, rfl⟩ := h
    exact ⟨_, rfl, hkey, hvalue, rfl⟩
  | list ns keyPrefix cursor limit => exact ⟨rfl, h.2⟩
  | namespaceList cursor limit => exact ⟨rfl, h.2⟩
  | _ => rfl

theorem perform_backend {op : StoreOp C} (h : op.Relayed)
    (other : (c : Call C) → τ → c.Answer × τ)
    (send : List String → τ → Except ReadFailure Response × τ) (s : τ) :
    (RemoteStore.backend other send).perform op.call s =
      (op.toAnswer (storeAnswer (op.method.run send s)).1,
        (storeAnswer (op.method.run send s)).2) := by
  cases op with
  | put ns key value metadata => exact h.elim
  | _ => rfl

end StoreOp

theorem storeAnswer_snd {α : Type} (outcome : Except (RemoteFailure C.ValidationError) α × τ) :
    (storeAnswer outcome).2 = outcome.2 := by
  obtain ⟨(e | a), s⟩ := outcome
  · cases e <;> rfl
  · rfl

theorem Method.run_fst_congr {α τ' : Type} {method : Method C α}
    {send : List String → τ → Except ReadFailure Response × τ}
    {send' : List String → τ' → Except ReadFailure Response × τ'} {s : τ} {s' : τ'}
    (h : (send method.args s).1 = (send' method.args s').1) :
    (method.run send s).1 = (method.run send' s').1 := by
  unfold Method.run
  generalize send method.args s = out at h ⊢
  generalize send' method.args s' = out' at h ⊢
  obtain ⟨answer, s⟩ := out
  obtain ⟨answer', s'⟩ := out'
  cases h
  cases answer <;> rfl

/-! ## Servers with their connections -/

/-- The state of `n` servers one behind the other, each the client of the next on a connection that
it keeps, and of the store behind the last. -/
@[reducible] def ProxyState (C : Crates) (σ : Type) : Nat → Type
  | 0 => σ
  | n + 1 => ClientConnection C (ProxyState C σ n)

/-- The store in front of `n` servers. It is what `chain` is, but for the connections. -/
def proxies (B : Backend C σ) (ctx : Nat → C.AuthContext)
    (other : ∀ n, (c : Call C) → ProxyState C σ (n + 1) → c.Answer × ProxyState C σ (n + 1)) :
    (n : Nat) → Backend C (ProxyState C σ n)
  | 0 => B
  | n + 1 =>
    RemoteStore.backend (other n) (ClientConnection.exchange (proxies B ctx other n) (some (ctx n)))

/-- The store behind the last server. -/
def endStore : (n : Nat) → ProxyState C σ n → σ
  | 0, s => s
  | n + 1, conn => endStore n conn.dispatcher.store

/-- The calls that each of the servers has made, the outermost first. -/
def proxyCalls : (n : Nat) → ProxyState C σ n → List (List (Call C))
  | 0, _ => []
  | n + 1, conn => conn.dispatcher.calls :: proxyCalls n conn.dispatcher.store

/-- Nothing is left on any of the connections. -/
def NothingUnread : (n : Nat) → ProxyState C σ n → Prop
  | 0, _ => True
  | n + 1, conn => conn.unread = [] ∧ NothingUnread n conn.dispatcher.store

/-- An operation that every one of the servers reads and lets its client perform. -/
structure Passes (ctx : Nat → C.AuthContext) (n : Nat) (op : StoreOp C) : Prop where
  relayed : op.Relayed
  roundTrips : op.RoundTrips
  limits : WithinLimits op.method.args
  authorised : ∀ k < n, Authorised (some (ctx k)) op.call

section
variable (B : Backend C σ) (ctx : Nat → C.AuthContext)
  (other : ∀ n, (c : Call C) → ProxyState C σ (n + 1) → c.Answer × ProxyState C σ (n + 1))

/-- Every client on the way can read the reply to the operation. -/
def Receivable : (n : Nat) → ProxyState C σ n → StoreOp C → Prop
  | 0, _, _ => True
  | n + 1, conn, op =>
    Legible (serveFrame (proxies B ctx other n) (some (ctx n)) (commandFrame op.method.args)
      conn.dispatcher).1 ∧ Receivable n conn.dispatcher.store op

/-- An operation through `n` servers. -/
def proxied (n : Nat) (s : ProxyState C σ n) (op : StoreOp C) : ProxyState C σ n :=
  ((proxies B ctx other n).perform op.call s).2

variable {ctx} {op : StoreOp C} {n : Nat}

theorem Passes.fewer (h : Passes ctx (n + 1) op) : Passes ctx n op :=
  ⟨h.relayed, h.roundTrips, h.limits, fun k hk => h.authorised k (Nat.lt_succ_of_lt hk)⟩

/-- What one more server does to an operation. -/
theorem proxies_hop (hpasses : Passes ctx (n + 1) op) (conn : ProxyState C σ (n + 1)) :
    (proxied B ctx other (n + 1) conn op).dispatcher =
        { conn.dispatcher with
          store := proxied B ctx other n conn.dispatcher.store op
          calls := conn.dispatcher.calls ++ [op.call] } ∧
      (conn.unread = [] → Receivable B ctx other (n + 1) conn op →
        (proxied B ctx other (n + 1) conn op).unread = [] ∧
        ∀ a, op.Returns ((proxies B ctx other n).perform op.call conn.dispatcher.store).1 a →
          ((proxies B ctx other (n + 1)).perform op.call conn).1 = op.toAnswer (.ok a)) := by
  have hauth := hpasses.authorised n (Nat.lt_succ_self n)
  have hread := readFrame_writeCommand hpasses.limits
  obtain ⟨cmd, finish, hserved⟩ := op.exists_served (proxies B ctx other n).hasEngine
    hpasses.roundTrips
  obtain ⟨hserve, -⟩ := hserved.exchange_eq (d := conn.dispatcher) hpasses.limits hauth
  have hafter : proxied B ctx other (n + 1) conn op =
      (ClientConnection.exchange (proxies B ctx other n) (some (ctx n)) op.method.args conn).2 := by
    rw [proxied, proxies, StoreOp.perform_backend hpasses.relayed]
    exact (storeAnswer_snd _).trans (Method.run_snd _ _ _)
  refine ⟨?_, fun hunread hlegible => ⟨?_, fun a ha => ?_⟩⟩
  · rw [hafter, ClientConnection.exchange, ClientConnection.submit_dispatcher hread, hserve]
    rfl
  · rw [hafter, ClientConnection.exchange, ClientConnection.submit_eq hread hunread hlegible.1]
  · have hsame : (ClientConnection.exchange (proxies B ctx other n) (some (ctx n)) op.method.args
        conn).1 = (exchange (proxies B ctx other n) (some (ctx n)) op.method.args
          conn.dispatcher).1 := by
      rw [ClientConnection.exchange, ClientConnection.submit_eq hread hunread hlegible.1,
        exchange_of_read hpasses.limits, receive_writeFrame hlegible.1.oneLine hlegible.1.held]
    have hresult := (Method.run_fst_congr hsame).trans
      (hserved.run_fst_eq hpasses.limits hauth ha hlegible.1.held)
    rw [proxies, StoreOp.perform_backend hpasses.relayed]
    generalize op.method.run (ClientConnection.exchange (proxies B ctx other n) (some (ctx n)))
      conn = outcome at hresult ⊢
    obtain ⟨result, conn'⟩ := outcome
    cases hresult
    rfl

/-- The store at the end is asked once, as is every store on the way. -/
theorem proxied_eq (n : Nat) (hpasses : Passes ctx n op) (s : ProxyState C σ n) :
    endStore n (proxied B ctx other n s op) = (B.perform op.call (endStore n s)).2 ∧
      proxyCalls n (proxied B ctx other n s op) = (proxyCalls n s).map (· ++ [op.call]) := by
  induction n with
  | zero => exact ⟨rfl, rfl⟩
  | succ n ih =>
    obtain ⟨hstore, hcalls⟩ := ih hpasses.fewer s.dispatcher.store
    obtain ⟨hserver, -⟩ := proxies_hop B other hpasses s
    rw [endStore, proxyCalls, hserver]
    exact ⟨hstore, congrArg _ hcalls⟩

/-- Where nothing was left on the connections nothing is left, and what the last store answers
comes back. -/
theorem proxied_unread (n : Nat) (hpasses : Passes ctx n op) {s : ProxyState C σ n}
    (hunread : NothingUnread n s) (hlegible : Receivable B ctx other n s op) :
    NothingUnread n (proxied B ctx other n s op) ∧
      ∀ a, op.Returns (B.perform op.call (endStore n s)).1 a →
        op.Returns ((proxies B ctx other n).perform op.call s).1 a := by
  induction n with
  | zero => exact ⟨trivial, fun a ha => ha⟩
  | succ n ih =>
    obtain ⟨hrest, hreturns⟩ := ih hpasses.fewer hunread.2 hlegible.2
    obtain ⟨hserver, hclient⟩ := proxies_hop B other hpasses s
    obtain ⟨hunread, hresult⟩ := hclient hunread.1 hlegible
    refine ⟨⟨hunread, ?_⟩, fun a ha => ?_⟩
    · rw [hserver]
      exact hrest
    · rw [hresult a (hreturns a ha)]
      exact StoreOp.returns_toAnswer ha

theorem run_proxied (n : Nat) {ops : List (StoreOp C)} (hops : ∀ op ∈ ops, Passes ctx n op)
    (s : ProxyState C σ n) :
    endStore n (Schedule.run (proxied B ctx other n) s ops) =
        (ops.map StoreOp.call).foldl (fun s c => (B.perform c s).2) (endStore n s) ∧
      proxyCalls n (Schedule.run (proxied B ctx other n) s ops) =
        (proxyCalls n s).map (· ++ ops.map StoreOp.call) := by
  induction ops generalizing s with
  | nil => simp [Schedule.run]
  | cons op ops ih =>
    obtain ⟨hstore, hcalls⟩ := proxied_eq B other n (hops op List.mem_cons_self) s
    obtain ⟨hrest, hlater⟩ := ih (fun op' hop => hops op' (List.mem_cons_of_mem op hop))
      (proxied B ctx other n s op)
    refine ⟨hrest.trans ?_, hlater.trans ?_⟩
    · rw [hstore]
      rfl
    · rw [hcalls, List.map_map]
      simp [Function.comp_def]

theorem run_unread (n : Nat) {ops : List (StoreOp C)} (hops : ∀ op ∈ ops, Passes ctx n op)
    {s : ProxyState C σ n} (hunread : NothingUnread n s)
    (hlegible : Schedule.Guarded (proxied B ctx other n) (Receivable B ctx other n) s ops) :
    NothingUnread n (Schedule.run (proxied B ctx other n) s ops) := by
  induction ops generalizing s with
  | nil => exact hunread
  | cons op ops ih =>
    exact ih (fun op' hop => hops op' (List.mem_cons_of_mem op hop))
      (proxied_unread B other n (hops op List.mem_cons_self) hunread hlegible.1).1 hlegible.2

end

/-- Operations through any number of servers, each the store of the one before, are those operations
on the store behind the last: after any run of them that store is as if it had been asked directly,
and every server has made exactly these calls in this order. If each client on the way could read
its replies, nothing is left on the connections, and the next operation that succeeds at the last
store brings back its result, if its replies can be read too. -/
theorem chain_simulates (B : Backend C σ) (ctx : Nat → C.AuthContext)
    (other : ∀ n, (c : Call C) → ProxyState C σ (n + 1) → c.Answer × ProxyState C σ (n + 1))
    (n : Nat) (s : ProxyState C σ (n + 1)) (ops : List (StoreOp C))
    (hops : ∀ op ∈ ops, Passes ctx (n + 1) op) :
    let t := Schedule.run (proxied B ctx other (n + 1)) s ops
    endStore (n + 1) t =
      (ops.map StoreOp.call).foldl (fun s c => (B.perform c s).2) (endStore (n + 1) s) ∧
    proxyCalls (n + 1) t = (proxyCalls (n + 1) s).map (· ++ ops.map StoreOp.call) ∧
    (NothingUnread (n + 1) s →
      Schedule.Guarded (proxied B ctx other (n + 1)) (Receivable B ctx other (n + 1)) s ops →
      NothingUnread (n + 1) t ∧
      ∀ op a, Passes ctx (n + 1) op → Receivable B ctx other (n + 1) t op →
        op.Returns (B.perform op.call (endStore (n + 1) t)).1 a →
        ((proxies B ctx other (n + 1)).perform op.call t).1 = op.toAnswer (.ok a)) := by
  intro t
  obtain ⟨hstore, hcalls⟩ := run_proxied B other (n + 1) hops s
  refine ⟨hstore, hcalls, fun hunread hlegible => ?_⟩
  have ht : NothingUnread (n + 1) t := run_unread B other (n + 1) hops hunread hlegible
  refine ⟨ht, fun op a hpasses hreceivable ha => ?_⟩
  -- the reply of the last hop is the answer itself, so the first server is taken apart
  obtain ⟨-, hreturns⟩ := proxied_unread B other n hpasses.fewer ht.2 hreceivable.2
  exact ((proxies_hop B other hpasses t).2 ht.1 hreceivable).2 a (hreturns a ha)

namespace Memory

def casPut (expected : UInt64) : StoreOp crates := .putIfVersion "a" "k" "v" none expected

/-- The other calls, answered from the store at the end. -/
def answerEnd (n : Nat) (c : Call crates) (s : ProxyState crates State (n + 1)) :
    c.Answer × ProxyState crates State (n + 1) :=
  ((perform c (endStore (n + 1) s)).1, s)

theorem passes_casPut {n : Nat} {expected : UInt64}
    (hlimits : WithinLimits (casPut expected).method.args) :
    Passes (fun _ => writer) n (casPut expected) :=
  ⟨trivial, by simp [StoreOp.RoundTrips, casPut], hlimits, fun _ _ => Or.inr ⟨writer, rfl, rfl⟩⟩

/-- A server replies the version that its store answers. -/
theorem legible_casPut {B : Backend crates τ} {d : Dispatcher crates τ} {expected v : UInt64}
    (hanswer : (B.perform (casPut expected).call d.store).1 = Except.ok v) :
    Legible (serveFrame B (some writer) (commandFrame (casPut expected).method.args) d).1 := by
  have hparse : parseCommand (C := crates) (commandFrame (casPut expected).method.args) = _ :=
    RemoteStore.parse_putIfVersion "a" "k" "v" none expected (by simp)
  obtain ⟨finish, hplan, hfinish⟩ :=
    dispatch_putIf B.hasEngine "a" (utf8 "k") (utf8 "v") none expected (by simp)
  have hexec : (execute B (some writer) (.putIf "a" (utf8 "k") (utf8 "v")
      (Option.map crates.metadataToJson none) expected) d).1 =
        toResponse (finish (B.perform (casPut expected).call d.store).1) := by
    rw [execute_leaf rfl, executeLeaf, hplan]
    rfl
  rw [hanswer, hfinish] at hexec
  have hreply : (serveFrame B (some writer) (commandFrame (casPut expected).method.args) d).1 =
      responseMapToFrame (C := crates) (Handlers.version v) := by
    simp only [serveFrame, hparse, hexec, toResponse, responseToFrame]
  rw [hreply]
  exact legible_version v

/-- Both clients can read the reply. -/
theorem receivable_casPut {t : ProxyState crates State 2} {expected v : UInt64}
    (hlimits : WithinLimits (casPut expected).method.args) (hunread : NothingUnread 2 t)
    (hlast : (backend.perform (casPut expected).call (endStore 2 t)).1 = Except.ok v) :
    Receivable backend (fun _ => writer) answerEnd 2 t (casPut expected) := by
  have hpasses : Passes (fun _ => writer) 1 (casPut expected) := passes_casPut hlimits
  have hinner : Receivable backend (fun _ => writer) answerEnd 1 t.dispatcher.store
      (casPut expected) := ⟨legible_casPut (d := t.dispatcher.store.dispatcher) hlast, trivial⟩
  refine ⟨legible_casPut (v := v) ?_, hinner⟩
  exact ((proxies_hop backend answerEnd hpasses t.dispatcher.store).2 hunread.2.1 hinner).2 v hlast

/-- The second of two conditional writes through two servers finds what the first left. -/
theorem second_write_through_two_servers :
    let s : ProxyState crates State 2 :=
      ⟨[], .new ⟨[], fresh []⟩ (Stream'.const 0) (Stream'.const none)⟩
    let t := Schedule.run (proxied backend (fun _ => writer) answerEnd 2) s [casPut 0]
    ((proxies backend (fun _ => writer) answerEnd 2).perform (casPut 1).call t).1 =
      Except.ok (2 : UInt64) := by
  intro s t
  have hunread : NothingUnread 2 s := ⟨rfl, rfl, trivial⟩
  have hfirst : ∀ op ∈ [casPut 0], Passes (fun _ => writer) 2 op :=
    List.forall_mem_singleton.mpr (passes_casPut ⟨by decide, by decide⟩)
  obtain ⟨hstore, -, hresult⟩ := chain_simulates backend (fun _ => writer) answerEnd 1 s
    [casPut 0] hfirst
  have hlast : (backend.perform (casPut 1).call (endStore 2 t)).1 = Except.ok (2 : UInt64) := by
    rw [hstore]
    rfl
  obtain ⟨ht, hnext⟩ := hresult hunread
    ⟨receivable_casPut (v := 1) ⟨by decide, by decide⟩ hunread rfl, trivial⟩
  exact hnext (casPut 1) (2 : UInt64) (passes_casPut ⟨by decide, by decide⟩)
    (receivable_casPut ⟨by decide, by decide⟩ ht hlast) hlast

end Memory

end Shroudb
