import Shroudb.Effect.Schedule
import Shroudb.Protocol.CacheIsolation

/-! Tasks that share the cache of pipeline responses, and the entries they lose. -/
namespace Shroudb

/-- The time to live of an entry ends here. -/
def CachedResponse.expires (entry : CachedResponse) : Instant :=
  entry.createdAt + defaultTtlSecs * 10 ^ 9

theorem not_aged_iff {t now : Nat} : ¬ Aged t now ↔ now < t + defaultTtlSecs * 10 ^ 9 := by
  unfold Aged defaultTtlSecs
  omega

theorem CachedResponse.expired_eq_false_iff {entry : CachedResponse} {now : Instant} :
    entry.expired now = false ↔ now < entry.expires := by
  rw [← Bool.not_eq_true, expired_iff]
  exact not_aged_iff

namespace IdempotencyMap
open Effect

/-! ## Tasks -/

/-- `retain` comes to the keys in an order that depends on the map. -/
inductive Call where
  | get (id : String)
  | insert (id : String) (frame : Resp3Frame)
  | prune (order : List String)

/-- What a task does next: `removing` is a `get` that has found an expired entry and released it,
`stamping` an `insert` that has not read the clock. -/
inductive Task where
  | idle
  | got (result : Option Resp3Frame)
  | looking (id : String)
  | removing (id : String)
  | stamping (id : String) (frame : Resp3Frame)
  | storing (id : String) (entry : CachedResponse)
  | pruning (todo : List String)

def Task.free : Task → Bool
  | .idle | .got _ => true
  | _ => false

def Call.task : Call → Task
  | .get id => .looking id
  | .insert id frame => .stamping id frame
  | .prune order => .pruning order

/-- The next operation of a task. The guard of a lookup is held while the clock is read and the
frame cloned, so these are one operation; it is dropped before the entry is removed. -/
def turn (m : IdempotencyMap) (now : Instant) : Task → IdempotencyMap × Task
  | .idle => (m, .idle)
  | .got result => (m, .got result)
  | .looking id =>
    match m id with
    | none => (m, .got none)
    | some entry => (m, if entry.expired now then .removing id else .got (some entry.frame))
  | .removing id => (Function.update m id none, .got none)
  | .stamping id frame => (m, .storing id ⟨frame, now⟩)
  | .storing id entry => (Function.update m id (some entry), .idle)
  | .pruning [] => (m, .idle)
  | .pruning (id :: todo) =>
    (Function.update m id ((m id).filter fun entry => !entry.expired now), .pruning todo)

structure Shared (ι : Type) where
  map : IdempotencyMap
  now : Instant
  task : ι → Task

/-- Time passes, a task that is in no call makes one, or a task goes on with its call. -/
inductive Move (ι : Type) where
  | tick (nanos : Nat)
  | call (i : ι) (c : Call)
  | go (i : ι)

namespace Shared
variable {ι : Type} [DecidableEq ι]

def start (now : Instant) : Shared ι := ⟨new, now, fun _ => .idle⟩

def step (s : Shared ι) : Move ι → Shared ι
  | .tick nanos => { s with now := s.now + nanos }
  | .call i c => if (s.task i).free then { s with task := Function.update s.task i c.task } else s
  | .go i =>
    let (map, task) := turn s.map s.now (s.task i)
    { s with map := map, task := Function.update s.task i task }

/-- The move puts an entry of its own under the id. -/
def Replaces (id : String) (s : Shared ι) (a : Move ι) : Prop :=
  ∃ i entry, a = .go i ∧ s.task i = .storing id entry

/-- Every `get` of the id that starts after `s` and returns in the time to live of the entry
returns it, unless the entry is replaced. -/
def Served (s : Shared ι) (id : String) (entry : CachedResponse) : Prop :=
  ∀ before i during result,
    let called := Schedule.run step s before
    let returned := Schedule.run step (called.step (.call i (.get id))) during
    Schedule.Guarded step (fun s a => ¬ Replaces id s a) s before →
    (called.task i).free →
    -- the task calls nothing else, so what it has got is the result of this `get`
    Schedule.Guarded step (fun s a => ¬ Replaces id s a ∧ ∀ c, a ≠ .call i c)
      (called.step (.call i (.get id))) during →
    returned.task i = .got result →
    returned.now < entry.expires →
    result = some entry.frame

end Shared

/-! ## One task -/

section
variable {m : IdempotencyMap} {now : Instant} {id : String} {entry : CachedResponse}

theorem turn_looking_live (hm : m id = some entry) (hlive : now < entry.expires) :
    turn m now (.looking id) = (m, .got (some entry.frame)) := by
  simp [turn, hm, CachedResponse.expired_eq_false_iff.mpr hlive]

/-- Nothing but a removal that is under way, or another entry, takes a live entry away. -/
theorem turn_keeps {task : Task} (hm : m id = some entry) (hlive : now < entry.expires)
    (hstore : ∀ entry', task ≠ .storing id entry') (hremove : task ≠ .removing id) :
    (turn m now task).1 id = some entry ∧ (turn m now task).2 ≠ .removing id := by
  have hother {id' : String} {value : Option CachedResponse} (h : id' ≠ id) :
      (Function.update m id' value : IdempotencyMap) id = some entry :=
    (Function.update_of_ne h.symm value m).trans hm
  cases task with
  | idle => exact ⟨hm, nofun⟩
  | got result => exact ⟨hm, nofun⟩
  | looking id' =>
    by_cases hid : id' = id
    · subst hid
      rw [turn_looking_live hm hlive]
      exact ⟨hm, nofun⟩
    · rw [turn]
      cases m id' with
      | none => exact ⟨hm, nofun⟩
      | some entry' =>
        refine ⟨hm, ?_⟩
        dsimp only
        split_ifs
        · simpa using hid
        · exact nofun
  | removing id' => exact ⟨hother fun hid => hremove (hid ▸ rfl), nofun⟩
  | stamping id' frame => exact ⟨hm, nofun⟩
  | storing id' entry' => exact ⟨hother fun hid => hstore entry' (hid ▸ rfl), nofun⟩
  | pruning todo =>
    cases todo with
    | nil => exact ⟨hm, nofun⟩
    | cons id' todo =>
      refine ⟨?_, nofun⟩
      by_cases hid : id' = id
      · subst hid
        have hkept : (m id').filter (fun entry => !entry.expired now) = some entry := by
          simp [hm, CachedResponse.expired_eq_false_iff.mpr hlive]
        exact (Function.update_self id' _ m).trans hkept
      · exact hother hid

end

namespace Shared
variable {ι : Type} [DecidableEq ι] {s : Shared ι} {a : Move ι} {i : ι} {id : String}
  {entry : CachedResponse}

/-! ## Calls that nothing interrupts do what the operations do -/

theorem step_call {c : Call} (hfree : (s.task i).free) :
    s.step (.call i c) = { s with task := Function.update s.task i c.task } := by
  rw [step, if_pos hfree]

theorem step_go (m : IdempotencyMap) (task : Task) :
    ({ s with map := m, task := Function.update s.task i task } : Shared ι).step (.go i) =
      { s with
        map := (turn m s.now task).1
        task := Function.update s.task i (turn m s.now task).2 } := by
  simp [step]

theorem get_alone (hfree : (s.task i).free) (id : String) :
    Schedule.run step s [.call i (.get id), .go i, .go i] = { s with
      map := (s.map.get id s.now).2
      task := Function.update s.task i (.got (s.map.get id s.now).1) } := by
  simp only [Schedule.run, List.foldl_cons, List.foldl_nil, step_call hfree]
  rw [step_go, step_go]
  cases hm : s.map id with
  | none => simp [Call.task, turn, get, hm]
  | some entry =>
    cases hexp : entry.expired s.now with
    | true => simp [Call.task, turn, get, hm, hexp]
    | false => simp [Call.task, turn, get, hm, hexp]

theorem insert_alone (hfree : (s.task i).free) (id : String) (frame : Resp3Frame) :
    Schedule.run step s [.call i (.insert id frame), .go i, .go i] = { s with
      map := s.map.insert id frame s.now
      task := Function.update s.task i .idle } := by
  simp only [Schedule.run, List.foldl_cons, List.foldl_nil, step_call hfree]
  rw [step_go, step_go]
  rfl

theorem prune_rest (m : IdempotencyMap) {todo : List String}
    (hm : ∀ id, m id = s.map id ∨ m id = s.map.prune s.now id)
    (htodo : ∀ id ∉ todo, m id = s.map.prune s.now id) :
    Schedule.run step { s with map := m, task := Function.update s.task i (.pruning todo) }
      (List.replicate (todo.length + 1) (.go i)) = { s with
        map := s.map.prune s.now
        task := Function.update s.task i .idle } := by
  induction todo generalizing m with
  | nil =>
    have hall : m = s.map.prune s.now := funext fun id => htodo id List.not_mem_nil
    simp [Schedule.run, step_go, turn, hall]
  | cons id todo ih =>
    rw [List.length_cons, List.replicate_succ, Schedule.run, List.foldl_cons, step_go]
    have hsame : (turn m s.now (.pruning (id :: todo))).1 id = s.map.prune s.now id := by
      refine update_same.trans ?_
      rcases hm id with h | h
      · rw [h, prune]
      · rw [h, prune, Option.filter_filter]
        simp
    have hother {id' : String} (h : id' ≠ id) :
        (turn m s.now (.pruning (id :: todo))).1 id' = m id' := Function.update_of_ne h _ m
    refine ih (turn m s.now (.pruning (id :: todo))).1 (fun id' => ?_) fun id' hid' => ?_
    · by_cases h : id' = id
      · exact Or.inr (h ▸ hsame)
      · rw [hother h]
        exact hm id'
    · by_cases h : id' = id
      · exact h ▸ hsame
      · rw [hother h]
        exact htodo id' (by simp [h, hid'])

theorem prune_alone (hfree : (s.task i).free) {order : List String}
    (horder : ∀ id, s.map id ≠ none → id ∈ order) :
    Schedule.run step s (.call i (.prune order) :: List.replicate (order.length + 1) (.go i)) =
      { s with map := s.map.prune s.now, task := Function.update s.task i .idle } := by
  rw [Schedule.run, List.foldl_cons, step_call hfree]
  refine prune_rest s.map (fun _ => Or.inl rfl) fun id hid => ?_
  have hnone : s.map id = none := not_not.mp fun h => hid (horder id h)
  rw [prune, hnone, Option.filter_none]

/-! ## Any interleaving -/

theorem step_go_same (s : Shared ι) (i : ι) :
    (s.step (.go i)).task i = (turn s.map s.now (s.task i)).2 :=
  Function.update_self i _ s.task

theorem step_go_other {k : ι} (h : k ≠ i) : (s.step (.go i)).task k = s.task k :=
  Function.update_of_ne h _ s.task

/-- The clock does not go back. -/
theorem now_le_step (s : Shared ι) (a : Move ι) : s.now ≤ (s.step a).now := by
  cases a with
  | tick nanos => exact Nat.le_add_right _ _
  | call i c =>
    rw [step]
    split_ifs
    · exact le_rfl
    · exact le_rfl
  | go i => exact le_rfl

/-- As long as the entry is live it is in the map, and no `get` is about to remove it. -/
def Kept (id : String) (entry : CachedResponse) (s : Shared ι) : Prop :=
  s.now < entry.expires → s.map id = some entry ∧ ∀ k, s.task k ≠ .removing id

theorem kept_step (ha : ¬ Replaces id s a) (hs : Kept id entry s) : Kept id entry (s.step a) := by
  intro hlive
  obtain ⟨hm, htasks⟩ := hs ((now_le_step s a).trans_lt hlive)
  cases a with
  | tick nanos => exact ⟨hm, htasks⟩
  | call i c =>
    rw [step]
    split_ifs
    · refine ⟨hm, fun k => ?_⟩
      by_cases hk : k = i
      · subst hk
        simp only [Function.update_self]
        cases c <;> exact nofun
      · simp only [ne_eq, hk, not_false_eq_true, Function.update_of_ne]
        exact htasks k
    · exact ⟨hm, htasks⟩
  | go i =>
    have hkeeps := turn_keeps hm hlive (fun entry' h => ha ⟨i, entry', rfl, h⟩) (htasks i)
    refine ⟨hkeeps.1, fun k => ?_⟩
    by_cases hk : k = i
    · subst hk
      rw [step_go_same]
      exact hkeeps.2
    · rw [step_go_other hk]
      exact htasks k

/-- A `get` of a live entry that is kept has not looked yet, or has got it. -/
def Asks (id : String) (entry : CachedResponse) (i : ι) (s : Shared ι) : Prop :=
  s.now < entry.expires → s.task i = .looking id ∨ s.task i = .got (some entry.frame)

theorem asks_step (ha : ∀ c, a ≠ .call i c) (hkept : Kept id entry s) (hs : Asks id entry i s) :
    Asks id entry i (s.step a) := by
  intro hlive
  have hbefore := (now_le_step s a).trans_lt hlive
  cases a with
  | tick nanos => exact hs hbefore
  | call k c =>
    have hk : i ≠ k := fun h => ha c (h ▸ rfl)
    have hsame : (s.step (.call k c)).task i = s.task i := by
      rw [step]
      split_ifs
      · exact Function.update_of_ne hk _ s.task
      · rfl
    rw [hsame]
    exact hs hbefore
  | go k =>
    by_cases hk : i = k
    · subst hk
      rw [step_go_same]
      rcases hs hbefore with hlooking | hgot
      · rw [hlooking, turn_looking_live (hkept hbefore).1 hbefore]
        exact Or.inr rfl
      · rw [hgot]
        exact Or.inr rfl
    · rw [step_go_other hk]
      exact hs hbefore

theorem served_of_kept (hs : Kept id entry s) : Served s id entry := by
  intro before i during result called returned hbefore hfree hduring hresult hlive
  have hcalled : Kept id entry called :=
    Schedule.run_invariant (fun _ _ => kept_step) hbefore hs
  have hstart : (called.step (.call i (.get id))).task i = .looking id := by
    rw [step_call hfree]
    exact Function.update_self i _ called.task
  have hboth : Kept id entry returned ∧ Asks id entry i returned := by
    refine Schedule.run_invariant (I := fun s => Kept id entry s ∧ Asks id entry i s)
      (fun _ _ ha h => ⟨kept_step ha.1 h.1, asks_step ha.2 h.1 h.2⟩) hduring ⟨?_, ?_⟩
    · exact kept_step (by rintro ⟨_, _, ⟨⟩, -⟩) hcalled
    · exact fun _ => Or.inl hstart
  rcases hboth.2 hlive with hlooking | hgot
  · rw [hlooking] at hresult
    cases hresult
  · rw [hgot] at hresult
    cases hresult
    rfl

/-- A removal that is under way takes the entry from the next `get`. -/
theorem not_served_of_removing {k : ι} (hk : s.task k = .removing id)
    (hlive : s.now < entry.expires) : ¬ Served s id entry := by
  intro hserved
  have hremoved : s.step (.go k) = { s with
      map := Function.update s.map id none
      task := Function.update s.task k (.got none) } := by
    rw [step, hk]
    rfl
  have hcalled : (s.step (.go k)).step (.call k (.get id)) = { s with
      map := Function.update s.map id none
      task := Function.update s.task k (.looking id) } := by
    rw [hremoved, step, if_pos (by simp [Task.free])]
    simp [Call.task]
  have hmissed : (((s.step (.go k)).step (.call k (.get id))).step (.go k)).task k = .got none := by
    have hempty : (Function.update s.map id none : IdempotencyMap) id = none := update_same
    rw [step_go_same, hcalled]
    simp [turn, hempty]
  have hresult := hserved [.go k] k [.go k] none ⟨?_, trivial⟩ ?_ ⟨⟨?_, nofun⟩, trivial⟩ hmissed ?_
  · cases hresult
  · rintro ⟨_, entry', ⟨⟩, hstoring⟩
    rw [hk] at hstoring
    cases hstoring
  · change ((s.step (.go k)).task k).free = true
    rw [step_go_same, hk]
    rfl
  · rintro ⟨_, entry', ⟨⟩, hstoring⟩
    change ((s.step (.go k)).step (.call k (.get id))).task k = _ at hstoring
    rw [hcalled] at hstoring
    simp at hstoring
  · change (((s.step (.go k)).step (.call k (.get id))).step (.go k)).now < _
    rw [hcalled]
    exact hlive

/-- An entry is returned for its whole time to live exactly when no `get` that found an earlier
entry of the id expired is, as the entry is stored, still about to remove what is there. -/
theorem served_iff_no_removal_pending (now : Instant) (moves : List (Move ι)) (i : ι)
    (id : String) (entry : CachedResponse)
    (h : (Schedule.run step (start now) moves).task i = .storing id entry) :
    let s := Schedule.run step (start now) moves
    Served (s.step (.go i)) id entry ↔
      (s.now < entry.expires → ∀ k, s.task k ≠ .removing id) := by
  intro s
  have hstored : (s.step (.go i)).map id = some entry := by
    have hturn : (s.step (.go i)).map = (turn s.map s.now (s.task i)).1 := rfl
    rw [hturn, h]
    exact update_same
  have hidle : (s.step (.go i)).task i = .idle := by
    rw [step_go_same, h, turn]
  constructor
  · intro hserved hlive k hk
    have hki : k ≠ i := by
      rintro rfl
      cases hk.symm.trans h
    exact not_served_of_removing ((step_go_other hki).trans hk) hlive hserved
  · intro hnone
    refine served_of_kept fun hlive => ⟨hstored, fun k => ?_⟩
    by_cases hki : k = i
    · subst hki
      rw [hidle]
      exact nofun
    · rw [step_go_other hki]
      exact hnone hlive k

/-- The first entry of an id is kept while another task prunes. -/
theorem first_entry_served :
    let s := Schedule.run step (start 0 : Shared Bool)
      [.call false (.insert "r" (.simpleString "OK")), .go false, .call true (.prune ["r"])]
    Served (s.step (.go false)) "r" ⟨.simpleString "OK", 0⟩ :=
  (served_iff_no_removal_pending 0 _ false "r" ⟨.simpleString "OK", 0⟩ rfl).mpr (by
    rintro - (_ | _)
    · exact nofun
    · exact nofun)

/-- Two tasks find the entry of a request expired. The first removes it and stores its own
response; the second then removes this one, of which a `get` in the same second knows nothing. -/
theorem fresh_entry_removed :
    let fresh : CachedResponse := ⟨.simpleString "OK", 300 * 10 ^ 9⟩
    let s := Schedule.run step (start 0 : Shared Bool)
      [.call false (.insert "r" (.simpleString "OLD")), .go false, .go false, .tick (300 * 10 ^ 9),
        .call false (.get "r"), .call true (.get "r"), .go false, .go true, .go false,
        .call false (.insert "r" (.simpleString "OK")), .go false]
    let lost := Schedule.run step s [.go false, .go true, .call false (.get "r"), .go false]
    s.task false = .storing "r" fresh ∧ lost.task false = .got none ∧ lost.now < fresh.expires ∧
      ¬ Served (s.step (.go false)) "r" fresh := by
  intro fresh s lost
  have hlive : (s.step (.go false)).now < fresh.expires := by decide
  have hremoving : (s.step (.go false)).task true = .removing "r" := by rfl
  refine ⟨?_, ?_, ?_, ?_⟩
  · rfl
  · rfl
  · decide
  · exact not_served_of_removing hremoving hlive

end Shared

end IdempotencyMap

end Shroudb
