import Shroudb.Client.Exchange
import Shroudb.Client.Render
import Shroudb.Protocol.AclCoverage
import Shroudb.Protocol.ConcurrentReplay
import Shroudb.Resp3.Limits

/-! The size of a reply: what a pipeline answers, and what cached replies inside it make of it. -/
namespace Shroudb
open Wire Effect Resp3Frame

/-! ## Pipelines under ids of their own -/

/-- The reply has the shape of the command: an array with one reply for each sub-command of a
pipeline, in their order, and a map or an error for any other command. -/
inductive Mirrors : Command → Resp3Frame → Prop
  | map {cmd : Command} (hleaf : cmd.isPipeline = false) (pairs : List (Resp3Frame × Resp3Frame)) :
    Mirrors cmd (.map pairs)
  | error {cmd : Command} (hleaf : cmd.isPipeline = false) (text : String) :
    Mirrors cmd (.simpleError text)
  | array {commands : List Command} (requestId : Option String) {frames : List Resp3Frame}
    (hframes : List.Forall₂ Mirrors commands frames) :
    Mirrors (.pipeline commands requestId) (.array frames)

mutual
/-- The request ids in a command. -/
def Command.requestIds : Command → List String
  | .pipeline commands requestId => requestId.toList ++ Command.requestIdsAll commands
  | _ => []
def Command.requestIdsAll : List Command → List String
  | [] => []
  | c :: cs => c.requestIds ++ Command.requestIdsAll cs
end

theorem requestIdsAll_eq (cs : List Command) :
    Command.requestIdsAll cs = cs.flatMap Command.requestIds := by
  induction cs with
  | nil => rfl
  | cons c cs ih => simp [Command.requestIdsAll, ih]

section
variable {C : Crates} {σ : Type} {B : Backend C σ} {auth : Option C.AuthContext}
  {d : Dispatcher C σ}

theorem lookup_cache_ne {x : String} {id : Option String} (h : x ∉ id.toList) :
    (d.lookup id).2.idempotency x = d.idempotency x := by
  cases id with
  | none => rfl
  | some id =>
    have hne : x ≠ id := by simpa using h
    rw [Dispatcher.lookup_some, IdempotencyMap.get.eq_def]
    cases d.idempotency id with
    | none => rfl
    | some entry =>
      dsimp only
      split
      · exact Function.update_of_ne hne _ _
      · rfl

theorem remember_cache_ne {x : String} {id : Option String} {response : CommandResponse C}
    (h : x ∉ id.toList) : (d.remember id response).idempotency x = d.idempotency x := by
  cases id with
  | none => rfl
  | some id => exact Function.update_of_ne (by simpa using h) _ _

/-- A command touches the cache under its own ids only. -/
theorem execute_cache_ne {x : String} (cmd : Command) (h : x ∉ cmd.requestIds) :
    (execute B auth cmd d).2.idempotency x = d.idempotency x := by
  induction cmd generalizing d with
  | leaf cmd hleaf => rw [execute_leaf hleaf, (executeLeaf_cache B auth cmd).1]
  | pipeline cs id ih =>
    rw [Command.requestIds, List.mem_append, not_or] at h
    have hall : ∀ d, (executeAll B auth cs d).2.idempotency x = d.idempotency x := by
      replace h := h.2
      induction cs with
      | nil => exact fun d => rfl
      | cons c cs ihcs =>
        intro d
        rw [Command.requestIdsAll, List.mem_append, not_or] at h
        rw [executeAll]
        calc (executeAll B auth cs (execute B auth c d).2).2.idempotency x
            = (execute B auth c d).2.idempotency x :=
              ihcs (fun c' hc => ih c' (List.mem_cons_of_mem c hc)) h.2 _
          _ = d.idempotency x := ih c List.mem_cons_self h.1
    cases hl : (d.lookup id).1 with
    | some frame => rw [execute_pipeline_hit hl, lookup_cache_ne h.1]
    | none => rw [execute_pipeline_miss hl, remember_cache_ne h.1, hall, lookup_cache_ne h.1]

theorem executeAll_cache_ne {x : String} {cs : List Command}
    (h : x ∉ Command.requestIdsAll cs) :
    (executeAll B auth cs d).2.idempotency x = d.idempotency x := by
  have hpipeline : (execute B auth (.pipeline cs none) d).2.idempotency x = d.idempotency x :=
    execute_cache_ne _ (by simpa [Command.requestIds] using h)
  rwa [execute_pipeline_miss rfl] at hpipeline

theorem lookup_of_not_cached {id : Option String} (h : ∀ x ∈ id.toList, d.idempotency x = none) :
    (d.lookup id).1 = none := by
  cases id with
  | none => rfl
  | some id => rw [Dispatcher.lookup_some, IdempotencyMap.live, h id (by simp)]

/-- The sub-commands before one have ids other than its own, so that its ids are still new. -/
theorem executeAll_mirrors {cs : List Command}
    (h : ∀ c ∈ cs, ∀ d : Dispatcher C σ, c.requestIds.Nodup →
      (∀ id ∈ c.requestIds, d.idempotency id = none) →
      Mirrors c (responseToFrame (execute B auth c d).1))
    (hnodup : (Command.requestIdsAll cs).Nodup)
    (hnew : ∀ id ∈ Command.requestIdsAll cs, d.idempotency id = none) :
    List.Forall₂ Mirrors cs ((executeAll B auth cs d).1.map responseToFrame) := by
  induction cs generalizing d with
  | nil => exact .nil
  | cons c cs ih =>
    rw [Command.requestIdsAll] at hnodup hnew
    obtain ⟨hc, hcs, hdisjoint⟩ := List.nodup_append.mp hnodup
    have hafter : ∀ id ∈ Command.requestIdsAll cs,
        (execute B auth c d).2.idempotency id = none := by
      intro id hid
      rw [execute_cache_ne c fun hown => hdisjoint id hown id hid rfl]
      exact hnew id (List.mem_append_right _ hid)
    exact .cons (h c List.mem_cons_self d hc fun id hid => hnew id (List.mem_append_left _ hid))
      (ih (fun c' hc' => h c' (List.mem_cons_of_mem c hc')) hcs hafter)

/-- As long as no request id of a command is in the cache and none occurs in it twice, the reply
has the shape of the command, whatever its sub-commands do. -/
theorem reply_mirrors_command (B : Backend C σ) (auth : Option C.AuthContext) (cmd : Command)
    (d : Dispatcher C σ) (hnodup : cmd.requestIds.Nodup)
    (hnew : ∀ id ∈ cmd.requestIds, d.idempotency id = none) :
    Mirrors cmd (responseToFrame (execute B auth cmd d).1) := by
  induction cmd generalizing d with
  | leaf cmd hleaf =>
    rw [execute_leaf hleaf, executeLeaf]
    cases aclCheck auth cmd.aclRequirement with
    | some e => exact .error hleaf _
    | none =>
      dsimp only
      cases ((dispatch B.hasEngine cmd).run (Dispatcher.answer B) d).1 with
      | ok m => exact .map hleaf _
      | error e => exact .error hleaf _
  | pipeline cs id ih =>
    rw [Command.requestIds] at hnodup hnew
    obtain ⟨-, hcs, hdisjoint⟩ := List.nodup_append.mp hnodup
    have hmiss : (d.lookup id).1 = none :=
      lookup_of_not_cached fun x hx => hnew x (List.mem_append_left _ hx)
    rw [execute_pipeline_miss hmiss, responseToFrame, responsesToFrames_eq]
    refine .array id (executeAll_mirrors ih hcs fun x hx => ?_)
    rw [lookup_cache_ne fun hid => hdisjoint x hid x hx rfl]
    exact hnew x (List.mem_append_right _ hx)

namespace Memory

/-- A pipeline with an id of its own inside another. -/
theorem pipeline_in_pipeline_mirrored :
    let cmd : Command := .pipeline [.ping, .pipeline [.health] (some "inner")] (some "outer")
    Mirrors cmd (responseToFrame (execute backend (some reader) cmd (fresh [])).1) :=
  reply_mirrors_command backend (some reader) _ (fresh []) (by decide) fun _ _ => rfl

end Memory

/-! ## Cached replies inside pipelines -/

/-- The reply to `PING`. -/
def pong (C : Crates) : Resp3Frame :=
  responseMapToFrame (C := C) (ResponseMap.ok.field "message" (.string "PONG"))

/-- A request whose `width` sub-commands all have the id of the request before. -/
def nestedCommand (id : Nat → String) (width : Nat) : Nat → Command
  | 0 => .pipeline [.ping] (some (id 0))
  | k + 1 => .pipeline (List.replicate width (.pipeline [.ping] (some (id k)))) (some (id (k + 1)))

/-- The reply to it, when the server has answered the requests before. -/
def tower (C : Crates) (width : Nat) : Nat → Resp3Frame
  | 0 => .array [pong C]
  | k + 1 => .array (List.replicate width (tower C width k))

theorem elements_array (level : Nat) (fs : List Resp3Frame) :
    elements level (.array fs) = (level, .array fs) :: fs.flatMap (elements (level + 1)) := by
  rw [elements, elementsAll_eq]

theorem pow_le_elements_tower (width k level : Nat) :
    width ^ k ≤ (elements level (tower C width k)).length := by
  induction k generalizing level with
  | zero => simp [tower, elements_array]
  | succ k ih =>
    have hle : width * width ^ k ≤ width * (elements (level + 1) (tower C width k)).length :=
      Nat.mul_le_mul_left width (ih (level + 1))
    rw [tower, elements_array, List.length_cons, List.length_flatMap, List.map_replicate,
      List.sum_replicate_nat, pow_succ']
    omega

/-- A tower is as high as the number of requests that built it. -/
theorem exists_top_of_tower {width : Nat} (hwidth : 0 < width) (k level : Nat) :
    ∃ f, (level + k + 1, f) ∈ elements level (tower C width k) := by
  induction k generalizing level with
  | zero => exact ⟨pong C, by simp [tower, elements_array, pong, responseMapToFrame, elements]⟩
  | succ k ih =>
    obtain ⟨f, hf⟩ := ih (level + 1)
    refine ⟨f, ?_⟩
    rw [tower, elements_array]
    refine List.mem_cons_of_mem _ (List.mem_flatMap.mpr ⟨tower C width k, ?_, ?_⟩)
    · exact List.mem_replicate.mpr ⟨hwidth.ne', rfl⟩
    · rwa [show level + (k + 1) + 1 = level + 1 + k + 1 by omega]

/-- The cache holds `frame` under `id` and keeps it for as long as the clock is read. -/
def Holding (id : String) (frame : Resp3Frame) (d : Dispatcher C σ) : Prop :=
  ∃ entry, d.idempotency id = some entry ∧ entry.frame = frame ∧
    ∀ n, ¬ Aged entry.createdAt (d.instants.get n)

theorem Holding.tail {x : String} {frame : Resp3Frame} (h : Holding x frame d) :
    Holding x frame { d with instants := d.instants.tail } := by
  obtain ⟨entry, hentry, hframe, hfresh⟩ := h
  exact ⟨entry, hentry, hframe, fun n => hfresh (n + 1)⟩

theorem Holding.lookup {x : String} {frame : Resp3Frame} (h : Holding x frame d) :
    d.lookup (some x) = (some frame, { d with instants := d.instants.tail }) := by
  obtain ⟨entry, hentry, rfl, hfresh⟩ := h
  have hexp : entry.expired d.instants.head = false := by
    rw [← Bool.not_eq_true, CachedResponse.expired_iff]
    exact hfresh 0
  simp [Dispatcher.lookup, Dispatcher.tick, IdempotencyMap.get, hentry, hexp]

/-- Every copy of a pipeline is answered with the frame that is cached under its id. -/
theorem executeAll_copies {x : String} {frame : Resp3Frame} (cs : List Command) (width : Nat)
    (h : Holding x frame d) :
    executeAll B auth (List.replicate width (.pipeline cs (some x))) d =
      (List.replicate width (.cachedFrame frame),
        { d with instants := d.instants.drop width }) := by
  induction width generalizing d with
  | zero => rfl
  | succ width ih =>
    have hhit : execute B auth (.pipeline cs (some x)) d =
        (.cachedFrame frame, { d with instants := d.instants.tail }) := by
      rw [execute_pipeline_hit (congrArg Prod.fst h.lookup), h.lookup]
    rw [List.replicate_succ, executeAll, hhit]
    dsimp only
    rw [ih h.tail]
    rfl

theorem lookup_new {x : String} (h : d.idempotency x = none) :
    d.lookup (some x) = (none, { d with instants := d.instants.tail }) := by
  simp [Dispatcher.lookup, Dispatcher.tick, IdempotencyMap.get, h]

theorem executeAll_brief (cs : List Command) (h : Brief d.instants) :
    Brief (executeAll B auth cs d).2.instants := by
  have hpipeline : Brief (execute B auth (.pipeline cs none) d).2.instants :=
    execute_brief B _ h
  rwa [execute_pipeline_miss rfl] at hpipeline

/-- Before request `k` of `n`: the reply to the request before it is cached, and the ids from its
own on are new. -/
structure Prepared (id : Nat → String) (width n k : Nat) (d : Dispatcher C σ) : Prop where
  clock : Brief d.instants
  last : ∀ j, k = j + 1 → Holding (id j) (tower C width j) d
  new : ∀ j, k ≤ j → j ≤ n → d.idempotency (id j) = none

variable {id : Nat → String} {width n k : Nat}

/-- A pipeline under id `k` whose replies make up tower `k` prepares for the next request. -/
theorem Prepared.answer (h : Prepared id width n k d) (hk : k ≤ n)
    (hid : Set.InjOn id (Set.Iic n)) {cs : List Command} {fs : List Resp3Frame}
    (hids : ∀ j, k ≤ j → j ≤ n → id j ∉ Command.requestIdsAll cs)
    (hreply : (executeAll B auth cs { d with instants := d.instants.tail }).1.map responseToFrame =
      fs) (htower : tower C width k = .array fs) :
    responseToFrame (execute B auth (.pipeline cs (some (id k))) d).1 = tower C width k ∧
      Prepared id width n (k + 1) (execute B auth (.pipeline cs (some (id k))) d).2 := by
  have hlookup := lookup_new (h.new k le_rfl hk)
  have hmiss : (d.lookup (some (id k))).1 = none := congrArg Prod.fst hlookup
  rw [execute_pipeline_miss hmiss, hlookup]
  dsimp only
  have hframe : responseToFrame
      (.array (executeAll B auth cs { d with instants := d.instants.tail }).1) =
        tower C width k := by
    rw [responseToFrame, responsesToFrames_eq, hreply, htower]
  have hclock : Brief
      (executeAll B auth cs { d with instants := d.instants.tail }).2.instants :=
    executeAll_brief cs h.clock.tail
  refine ⟨hframe, hclock.tail, ?_, ?_⟩
  · rintro j hj
    obtain rfl : k = j := Nat.succ.inj hj
    exact ⟨⟨_, _⟩, IdempotencyMap.update_same, hframe, fun n => hclock 0 (n + 1)⟩
  · intro j hj hn
    have hother : id j ∉ (some (id k)).toList := by
      simp only [Option.toList_some, List.mem_singleton]
      intro hsame
      have := hid (Set.mem_Iic.mpr hn) (Set.mem_Iic.mpr hk) hsame
      omega
    rw [remember_cache_ne hother, executeAll_cache_ne (hids j (by omega) hn)]
    exact h.new j (by omega) hn

/-- Request `k` is answered with tower `k`. -/
theorem Prepared.step (h : Prepared id width n k d) (hk : k ≤ n)
    (hid : Set.InjOn id (Set.Iic n)) :
    responseToFrame (execute B auth (nestedCommand id width k) d).1 = tower C width k ∧
      Prepared id width n (k + 1) (execute B auth (nestedCommand id width k) d).2 := by
  cases k with
  | zero => exact h.answer hk hid (by simp [Command.requestIdsAll, Command.requestIds]) rfl rfl
  | succ k =>
    have hids : ∀ j, k + 1 ≤ j → j ≤ n → id j ∉ Command.requestIdsAll
        (List.replicate width (.pipeline [.ping] (some (id k)))) := by
      intro j hj hn hmem
      rw [requestIdsAll_eq] at hmem
      obtain ⟨c, hc, hx⟩ := List.mem_flatMap.mp hmem
      obtain rfl := List.eq_of_mem_replicate hc
      have hsame : id j = id k := by
        simpa [Command.requestIds, Command.requestIdsAll] using hx
      have := hid (Set.mem_Iic.mpr hn) (Set.mem_Iic.mpr (Nat.le_of_succ_le hk)) hsame
      omega
    refine h.answer hk hid hids ?_ rfl
    rw [executeAll_copies _ _ (h.last k rfl).tail, List.map_replicate]
    rfl

/-- The frame of a request. -/
def nestedRequest (C : Crates) (id : Nat → String) (width k : Nat) : Resp3Frame :=
  (nestedCommand id width k).render C

theorem parse_ping : parseCommand (C := C) (Command.render C .ping) = .ok .ping :=
  parse_words (fun _ => .ok .ping) "PING" [] rfl (by decide) rfl

theorem parse_nestedRequest (hwidth : 0 < width) :
    parseCommand (C := C) (nestedRequest C id width k) = .ok (nestedCommand id width k) := by
  have hinner : ∀ x, parseCommand (C := C) (Command.render C (.pipeline [.ping] (some x))) =
      .ok (.pipeline [.ping] (some x)) :=
    fun x => parse_render_pipeline (by simp) _ (by simpa using parse_ping)
  cases k with
  | zero => exact hinner (id 0)
  | succ k =>
    refine parse_render_pipeline (by simpa using hwidth.ne') _ fun c hc => ?_
    obtain rfl := List.eq_of_mem_replicate hc
    exact hinner (id k)

theorem render_named (cs : List Command) (x : String) :
    Command.render C (.pipeline cs (some x)) =
      .array (["PIPELINE", "REQUEST_ID", x].map (fun word => .bulkString (utf8 word)) ++
        cs.map (Command.render C)) := by
  simp [Command.render, renderAll_eq, Command.words, textWords, optionWords]

theorem elements_named (level : Nat) (cs : List Command) (x : String) :
    (elements level (Command.render C (.pipeline cs (some x)))).length =
      (cs.map fun c => (elements (level + 1) (c.render C)).length).sum + 4 := by
  simp [render_named, elements_array, elements, List.length_flatMap, Function.comp_def]

theorem representableAt_named {level : Nat} {cs : List Command} {x : String}
    (hlevel : level + 1 ≤ maxDepth) (hcount : cs.length + 3 ≤ maxCollectionSize)
    (hsize : (utf8 x).length ≤ maxBulkSize)
    (hcs : ∀ c ∈ cs, RepresentableAt (level + 1) (c.render C)) :
    RepresentableAt level (Command.render C (.pipeline cs (some x))) := by
  have hwords : WithinLimits ["PIPELINE", "REQUEST_ID", x] := by
    refine ⟨Nat.le_trans (Nat.le_add_left 3 cs.length) hcount, ?_⟩
    simp only [List.forall_mem_cons]
    exact ⟨by decide, by decide, hsize, by simp⟩
  rw [render_named, representableAt_array]
  refine ⟨by omega, ?_, fun f hf => ?_⟩
  · rw [List.length_append, List.length_map, List.length_map, Nat.add_comm]
    exact hcount
  rcases List.mem_append.mp hf with hf | hf
  · exact (representableAt_array.mp (representableAt_commandFrame hwords hlevel)).2.2 f hf
  · obtain ⟨c, hc, rfl⟩ := List.mem_map.mp hf
    exact hcs c hc

theorem elements_ping (level : Nat) :
    elements level (Command.render C .ping) =
      [(level, .array [.bulkString (utf8 "PING")]), (level + 1, .bulkString (utf8 "PING"))] := by
  simp [Command.render, Command.words, elements, elementsAll]

theorem elements_nestedRequest (hwidth : 0 < width) :
    (elements 0 (nestedRequest C id width k)).length ≤ 6 * width + 4 := by
  cases k with
  | zero =>
    simp only [nestedRequest, nestedCommand, elements_named, List.map_singleton, elements_ping]
    simp
    omega
  | succ k =>
    simp [nestedRequest, nestedCommand, elements_named, elements_ping]
    omega

theorem representableAt_inner {level : Nat} {x : String} (hlevel : level + 2 ≤ maxDepth)
    (hsize : (utf8 x).length ≤ maxBulkSize) :
    RepresentableAt level (Command.render C (.pipeline [.ping] (some x))) := by
  refine representableAt_named (by omega) (by decide) hsize ?_
  intro c hc
  obtain rfl := List.mem_singleton.mp hc
  have hwords : WithinLimits ["PING"] := ⟨by decide, by decide⟩
  exact representableAt_commandFrame hwords hlevel

theorem representable_nestedRequest (hmax : width + 3 ≤ maxCollectionSize)
    (hsize : ∀ j ≤ k, (utf8 (id j)).length ≤ maxBulkSize) :
    Representable (nestedRequest C id width k) := by
  cases k with
  | zero => exact representableAt_inner (by decide) (hsize 0 le_rfl)
  | succ k =>
    refine representableAt_named (by decide) (by simpa using hmax) (hsize (k + 1) le_rfl) ?_
    intro c hc
    obtain rfl := List.eq_of_mem_replicate hc
    exact representableAt_inner (by decide) (hsize k (Nat.le_succ k))

/-- Requests with the same few sub-commands each, every one of which asks for the reply before, sent
one after the other within the life of a cache entry: the reply after `n` of them has at least
`width ^ n` elements, and after eight it nests deeper than the server's own reader accepts. -/
theorem nested_replies_grow (B : Backend C σ) (auth : Option C.AuthContext) {id : Nat → String}
    {width n : Nat} (hid : Set.InjOn id (Set.Iic n))
    (hsize : ∀ k ≤ n, (utf8 (id k)).length ≤ maxBulkSize) (hwidth : 0 < width)
    (hmax : width + 3 ≤ maxCollectionSize) (d : Dispatcher C σ) (hclock : Brief d.instants)
    (hnew : ∀ k ≤ n, d.idempotency (id k) = none) :
    let request := nestedRequest C id width
    let answered := Schedule.execution (fun d frame => (serveFrame B auth frame d).2) d request n
    let reply := (serveFrame B auth (request n) answered).1
    (∀ k ≤ n, Representable (request k) ∧ (elements 0 (request k)).length ≤ 6 * width + 4) ∧
      width ^ n ≤ (elements 0 reply).length ∧ (maxDepth ≤ n → ¬ Representable reply) := by
  intro request answered reply
  have hserve : ∀ k (d : Dispatcher C σ), serveFrame B auth (request k) d =
      (responseToFrame (execute B auth (nestedCommand id width k) d).1,
        (execute B auth (nestedCommand id width k) d).2) := by
    intro k d
    simp only [request, serveFrame, parse_nestedRequest hwidth]
  have hprepared : ∀ k ≤ n, Prepared id width n k (Schedule.execution
      (fun d frame => (serveFrame B auth frame d).2) d request k) := by
    intro k hk
    induction k with
    | zero => exact ⟨hclock, fun j hj => absurd hj (by omega), fun j _ hj => hnew j hj⟩
    | succ k ih =>
      rw [Schedule.execution, hserve]
      exact ((ih (by omega)).step (by omega) hid).2
  have hreply : reply = tower C width n := by
    simp only [reply, hserve]
    exact ((hprepared n le_rfl).step le_rfl hid).1
  rw [hreply]
  refine ⟨fun k hk => ⟨?_, elements_nestedRequest hwidth⟩, pow_le_elements_tower width n 0, ?_⟩
  · exact representable_nestedRequest hmax fun j hj => hsize j (hj.trans hk)
  · intro hdeep hrep
    obtain ⟨f, hf⟩ := exists_top_of_tower (C := C) hwidth n 0
    have hlevel : 0 + n + 1 ≤ maxDepth := (hrep _ hf).1
    omega

end

namespace Memory

/-- Thirty pipelines of two, on a server without a single namespace. -/
theorem thirty_pipelines_of_two :
    let request := nestedRequest crates longText 2
    let answered := Schedule.execution (fun d frame => (serveFrame backend none frame d).2)
      (fresh []) request 30
    2 ^ 30 ≤ (elements 0 (serveFrame backend none (request 30) answered).1).length := by
  have hlength : ∀ k, (utf8 (longText k)).length = k := fun k => by simp [utf8_longText]
  have hid : Set.InjOn longText (Set.Iic 30) := by
    intro i _ j _ h
    rw [← hlength i, h, hlength]
  have hsize : ∀ k ≤ 30, (utf8 (longText k)).length ≤ maxBulkSize := by
    intro k hk
    rw [hlength]
    exact hk.trans (by decide)
  have hclock : Brief (fresh []).instants := by
    intro i j
    change ¬ Aged 0 0
    simp [Aged, defaultTtlSecs]
  exact (nested_replies_grow backend none hid hsize (by decide) (by decide) (fresh []) hclock
    fun _ _ => rfl).2.1

end Memory

end Shroudb
