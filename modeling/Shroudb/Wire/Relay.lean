import Shroudb.Effect.Schedule
import Shroudb.Wire.Stream

/-! A task that reads messages off a stream and passes them on through a bounded channel. -/
namespace Wire
open Effect

/-- What the task does with a message it has read. -/
inductive Verdict (β : Type) where
  | forward (b : β)
  | skip
  | stop
deriving DecidableEq, Repr

/-- What the task passes on of a list of messages. -/
def relayed {α β : Type} (verdict : α → Verdict β) : List α → List β
  | [] => []
  | a :: as =>
    match verdict a with
    | .forward b => b :: relayed verdict as
    | .skip => relayed verdict as
    | .stop => []

/-- The bytes are messages one after the other. -/
inductive Carries {ε α : Type} (r : Reader ε α) : Bytes → List α → Prop
  | nil : Carries r [] []
  | cons {bs rest : Bytes} {a : α} {as : List α} :
      Reader.Reads r bs a → Carries r rest as → Carries r (bs ++ rest) (a :: as)

/-- The task and its channel. `wire` is still on the way, and the connection ends after it if it
`ends`. `held` waits for room in the channel, and `received` is what the receiver has taken out. -/
structure Relay (β : Type) where
  wire : Bytes
  ends : Bool
  inbox : Inbox
  running : Bool
  held : Option β
  queue : List β
  listening : Bool
  received : List β

inductive RelayMove where
  | deliver (n : Nat)
  | poll
  | send
  | recv
  | hangUp
deriving DecidableEq, Repr

namespace Relay
variable {ε α β : Type}

def start (wire : Bytes) (ends : Bool) : Relay β :=
  ⟨wire, ends, ⟨[], []⟩, true, none, [], true, []⟩

/-- What the task makes of the result of a read. A failed read ends it. -/
def judge (verdict : α → Verdict β) (s : Relay β) (inbox : Inbox) : Except ε α → Relay β
  | .error _ => { s with inbox, running := false }
  | .ok a =>
    match verdict a with
    | .forward b => { s with inbox, held := some b }
    | .skip => { s with inbox }
    | .stop => { s with inbox, running := false }

/-- Moves that do not apply change nothing. A task that waits for room does not read, and one whose
receiver is gone ends when it sends. -/
def move (r : Reader ε α) (verdict : α → Verdict β) (capacity : Nat) (s : Relay β) :
    RelayMove → Relay β
  | .deliver n => { s with wire := s.wire.drop n, inbox := s.inbox.arrive (s.wire.take n) }
  | .poll =>
    if s.running ∧ s.held.isNone then
      match s.inbox.poll r (s.ends && s.wire.isEmpty) with
      | (none, inbox) => { s with inbox }
      | (some result, inbox) => s.judge verdict inbox result
    else s
  | .send =>
    match s.held with
    | none => s
    | some b =>
      if s.listening then
        if s.queue.length < capacity then { s with held := none, queue := s.queue ++ [b] } else s
      else { s with held := none, running := false }
  | .recv =>
    match s.queue with
    | [] => s
    | b :: queue => { s with queue, received := s.received ++ [b] }
  | .hangUp => { s with listening := false, queue := [] }

/-- The bytes the task has yet to make a message of. -/
def unread (s : Relay β) : Bytes := s.inbox.contents ++ s.wire

/-- What the task has passed on or is about to. -/
def passed (s : Relay β) : List β := s.received ++ s.queue ++ s.held.toList

/-- While the receiver listens, all of `out` is received, on its way or still to be read. -/
structure Accounted (r : Reader ε α) (verdict : α → Verdict β) (out : List β) (s : Relay β) :
    Prop where
  delivered : s.received <+: out
  reading : s.listening → s.running →
    ∃ as, Carries r s.unread as ∧ s.passed ++ relayed verdict as = out
  stopped : s.listening → ¬ s.running → s.passed = out
  dropped : ¬ s.listening → s.queue = []

variable {r : Reader ε α} {verdict : α → Verdict β} {capacity : Nat} {out : List β} {s : Relay β}

theorem accounted_start {wire : Bytes} {as : List α} (ends : Bool) (h : Carries r wire as)
    (hout : relayed verdict as = out) : Accounted r verdict out (start wire ends) where
  delivered := List.nil_prefix
  reading _ _ := ⟨as, h, hout⟩
  stopped _ hstopped := absurd rfl hstopped
  dropped hgone := absurd rfl hgone

theorem Accounted.passed_prefix (h : Accounted r verdict out s) (hl : s.listening) :
    s.passed <+: out := by
  by_cases hrunning : s.running
  · obtain ⟨as, -, hout⟩ := h.reading hl hrunning
    exact ⟨_, hout⟩
  · exact h.stopped hl hrunning ▸ List.prefix_rfl

/-- A read of a stream that carries messages is pending, or has the next of them, or has met the
end. -/
theorem poll_cases (hr : Lawful r) (hnil : ∀ {ended a rest}, r ended [] ≠ .done a rest)
    {as : List α} (h : Carries r s.unread as) :
    s.inbox.poll r (s.ends && s.wire.isEmpty) = (none, ⟨s.inbox.contents, []⟩) ∨
    (∃ a as' rest, as = a :: as' ∧ Carries r (rest ++ s.wire) as' ∧
      s.inbox.poll r (s.ends && s.wire.isEmpty) = (some (.ok a), ⟨[], rest⟩)) ∨
    (∃ e rest, as = [] ∧
      s.inbox.poll r (s.ends && s.wire.isEmpty) = (some (.error e), ⟨[], rest⟩)) := by
  generalize hended : (s.ends && s.wire.isEmpty) = ended
  -- what the read says of the bytes at hand, it says of the whole stream
  have hwhole : ∀ p, r ended s.inbox.contents = p → p ≠ .more →
      r ended s.unread = p.append s.wire := by
    rintro p hp hmore
    cases ended with
    | true =>
      have hwire : s.wire = [] := by simpa using (Bool.and_eq_true_iff.mp hended).2
      rw [unread, hwire, List.append_nil, hp]
      cases p <;> simp [Poll.append]
    | false =>
      rcases hr.stable false s.inbox.contents s.wire with hpending | hsame
      · exact absurd (hp.symm.trans hpending) hmore
      · rw [unread, hsame, hp]
  unfold Inbox.poll
  cases hread : r ended s.inbox.contents with
  | more => exact Or.inl rfl
  | done a rest =>
    have hdone := hwhole _ hread (by simp)
    right; left
    generalize s.unread = bytes at h hdone
    cases h with
    | nil => exact absurd hdone hnil
    | cons hreads hrest =>
      rw [hreads ended, Poll.append] at hdone
      cases hdone
      exact ⟨a, _, rest, rfl, hrest, rfl⟩
  | fail e rest =>
    have hfail := hwhole _ hread (by simp)
    right; right
    generalize s.unread = bytes at h hfail
    cases h with
    | nil => exact ⟨e, rest, rfl, rfl⟩
    | cons hreads hrest =>
      rw [hreads ended, Poll.append] at hfail
      cases hfail

theorem accounted_poll (hr : Lawful r) (hnil : ∀ {ended a rest}, r ended [] ≠ .done a rest)
    (h : Accounted r verdict out s) :
    Accounted r verdict out (s.move r verdict capacity .poll) := by
  rw [move]
  split_ifs with hready
  · by_cases hlistening : s.listening
    · obtain ⟨as, hcarries, hout⟩ := h.reading hlistening hready.1
      have hheld : s.held = none := Option.isNone_iff_eq_none.mp hready.2
      rcases poll_cases hr hnil hcarries with hpoll | ⟨a, as', rest, rfl, hrest, hpoll⟩ |
        ⟨e, rest, rfl, hpoll⟩
      · rw [hpoll]
        refine ⟨h.delivered, fun _ _ => ⟨as, ?_, hout⟩, h.stopped, h.dropped⟩
        simpa [unread, Inbox.contents] using hcarries
      · rw [hpoll]
        unfold judge
        dsimp only
        cases hverdict : verdict a with
        | forward b =>
          rw [relayed, hverdict] at hout
          refine ⟨h.delivered, fun _ _ => ⟨as', hrest, ?_⟩, fun _ hstopped => ?_, h.dropped⟩
          · simpa [passed, hheld] using hout
          · exact absurd hready.1 hstopped
        | skip =>
          rw [relayed, hverdict] at hout
          exact ⟨h.delivered, fun _ _ => ⟨as', hrest, hout⟩, h.stopped, h.dropped⟩
        | stop =>
          rw [relayed, hverdict, List.append_nil] at hout
          refine ⟨h.delivered, fun _ hrunning => ?_, fun _ _ => hout, h.dropped⟩
          cases hrunning
      · rw [hpoll]
        rw [relayed, List.append_nil] at hout
        refine ⟨h.delivered, fun _ hrunning => ?_, fun _ _ => hout, h.dropped⟩
        cases hrunning
    · -- nobody takes what the task reads now
      have hsame : ∀ s' : Relay β, s'.received = s.received → s'.queue = s.queue →
          s'.listening = s.listening → Accounted r verdict out s' := by
        intro s' hreceived hqueue hl
        refine ⟨hreceived ▸ h.delivered, fun hl' => ?_, fun hl' => ?_, fun _ => ?_⟩
        · exact absurd (hl ▸ hl') hlistening
        · exact absurd (hl ▸ hl') hlistening
        · exact hqueue.trans (h.dropped hlistening)
      split
      · exact hsame _ rfl rfl rfl
      · unfold judge
        split
        · exact hsame _ rfl rfl rfl
        · split <;> exact hsame _ rfl rfl rfl
  · exact h

/-- What one move keeps. -/
theorem accounted_move (hr : Lawful r) (hnil : ∀ {ended a rest}, r ended [] ≠ .done a rest)
    (mv : RelayMove) (h : Accounted r verdict out s) :
    Accounted r verdict out (s.move r verdict capacity mv) := by
  cases mv with
  | deliver n =>
    refine ⟨h.delivered, fun hl hrunning => ?_, h.stopped, h.dropped⟩
    obtain ⟨as, hcarries, hout⟩ := h.reading hl hrunning
    exact ⟨as, by simpa [move, unread] using hcarries, hout⟩
  | poll => exact accounted_poll hr hnil h
  | send =>
    rw [move]
    split
    · exact h
    · rename_i b hheld
      split_ifs with hl hroom
      · have hpassed : { s with held := none, queue := s.queue ++ [b] }.passed = s.passed := by
          simp [passed, hheld]
        refine ⟨h.delivered, fun _ hrunning => ?_, fun _ hstopped => ?_, fun hgone => ?_⟩
        · obtain ⟨as, hcarries, hout⟩ := h.reading hl hrunning
          exact ⟨as, hcarries, hpassed ▸ hout⟩
        · exact hpassed.trans (h.stopped hl hstopped)
        · exact absurd hl hgone
      · exact h
      · refine ⟨h.delivered, fun hl' => ?_, fun hl' => ?_, h.dropped⟩
        · exact absurd hl' hl
        · exact absurd hl' hl
  | recv =>
    rw [move]
    split
    · exact h
    · rename_i b queue hqueue
      have hpassed : { s with queue, received := s.received ++ [b] }.passed = s.passed := by
        simp [passed, hqueue]
      have hl : s.listening := by
        by_contra hgone
        rw [h.dropped hgone] at hqueue
        cases hqueue
      have hprefix : s.received ++ [b] <+: s.passed := by simp [passed, hqueue]
      refine ⟨?_, fun _ hrunning => ?_, fun _ hstopped => ?_, fun hgone => absurd hl hgone⟩
      · exact hprefix.trans (h.passed_prefix hl)
      · obtain ⟨as, hcarries, hout⟩ := h.reading hl hrunning
        exact ⟨as, hcarries, hpassed ▸ hout⟩
      · exact hpassed.trans (h.stopped hl hstopped)
  | hangUp =>
    refine ⟨h.delivered, fun hl => ?_, fun hl => ?_, fun _ => rfl⟩
    · cases hl
    · cases hl

theorem accounted_run (hr : Lawful r) (hnil : ∀ {ended a rest}, r ended [] ≠ .done a rest)
    {moves : List RelayMove} (h : Accounted r verdict out s) :
    Accounted r verdict out (Schedule.run (move r verdict capacity) s moves) :=
  Schedule.run_keeps (fun _ mv h => accounted_move hr hnil mv h) h

/-! ## Everything can still be delivered -/

/-- How much work is left. A message becomes one that is held, then one that is queued. -/
def distance (s : Relay β) : Nat :=
  (if s.running then 3 * s.unread.length else 0) + 2 * s.held.toList.length + s.queue.length

theorem length_lt_of_reads (hnil : ∀ {ended a rest}, r ended [] ≠ .done a rest) {bs rest : Bytes}
    {a : α} (h : Reader.Reads r bs a) : rest.length < (bs ++ rest).length := by
  cases bs with
  | nil => exact absurd (h true []) hnil
  | cons b bs =>
    rw [List.length_append, List.length_cons]
    omega

theorem distance_judge {rest : Bytes} {a : α} (hwire : s.wire = []) (hheld : s.held = none) :
    (s.judge (ε := ε) verdict ⟨[], rest⟩ (.ok a)).distance ≤
      3 * rest.length + 2 + s.queue.length := by
  unfold judge
  dsimp only
  split <;> simp only [distance, unread, Inbox.contents, hwire, hheld, Option.toList_none,
    Option.toList_some, List.length_nil, List.length_singleton, List.nil_append, List.append_nil]
  all_goals split_ifs <;> omega

theorem listening_judge {inbox : Inbox} {result : Except ε α} :
    (s.judge verdict inbox result).listening = s.listening := by
  unfold judge
  split
  · rfl
  · split <;> rfl

/-- With all bytes at hand the task reads the next message. -/
theorem distance_read (hnil : ∀ {ended a rest}, r ended [] ≠ .done a rest) {bs rest : Bytes}
    {a : α} (hrunning : s.running) (hheld : s.held = none) (hunread : s.unread = bs ++ rest)
    (hreads : Reader.Reads r bs a) :
    let s' := Schedule.run (move r verdict capacity) s [.deliver s.wire.length, .poll]
    s'.listening = s.listening ∧ s'.distance < s.distance := by
  intro s'
  have hcontents : (s.inbox.arrive s.wire).contents = bs ++ rest := by
    rw [Inbox.contents_arrive]
    exact hunread
  have hs' : s' = { s with wire := [], inbox := s.inbox.arrive s.wire }.judge (ε := ε) verdict
      ⟨[], rest⟩ (.ok a) := by
    simp [s', Schedule.run, move, hrunning, hheld, Inbox.poll, hcontents, hreads _ rest]
  have hlt : rest.length < s.unread.length := by
    rw [hunread]
    exact length_lt_of_reads hnil hreads
  refine ⟨hs' ▸ listening_judge, ?_⟩
  calc s'.distance ≤ 3 * rest.length + 2 + s.queue.length := hs' ▸ distance_judge rfl hheld
    _ < s.distance := by
      simp only [distance, hrunning, hheld, if_true, Option.toList_none, List.length_nil]
      omega

/-- Whatever the run so far, a receiver that still listens can get all of `out`. -/
theorem exists_delivery (hr : Lawful r) (hnil : ∀ {ended a rest}, r ended [] ≠ .done a rest)
    (hcapacity : 0 < capacity) (h : Accounted r verdict out s) (hl : s.listening) :
    ∃ moves, (Schedule.run (move r verdict capacity) s moves).received = out := by
  refine Schedule.exists_run (I := fun s => Accounted r verdict out s ∧ s.listening)
    (G := fun s => s.received = out) distance ?_ ⟨h, hl⟩
  rintro s ⟨h, hl⟩ hgoal
  suffices hnear : ∃ moves, (Schedule.run (move r verdict capacity) s moves).listening =
      s.listening ∧ (Schedule.run (move r verdict capacity) s moves).distance < s.distance by
    obtain ⟨moves, hlistening, hlt⟩ := hnear
    exact ⟨moves, ⟨accounted_run hr hnil h, hlistening ▸ hl⟩, hlt⟩
  cases hqueue : s.queue with
  | cons b queue =>
    refine ⟨[.recv], ?_, ?_⟩
    · simp [Schedule.run, move, hqueue]
    · simp [Schedule.run, move, hqueue, distance, unread]
  | nil =>
    cases hheld : s.held with
    | some b =>
      refine ⟨[.send], ?_, ?_⟩
      · simp [Schedule.run, move, hqueue, hheld, hl, hcapacity]
      · simp [Schedule.run, move, hqueue, hheld, hl, hcapacity, distance, unread]
    | none =>
      have hpassed : s.passed = s.received := by simp [passed, hqueue, hheld]
      by_cases hrunning : s.running
      · obtain ⟨as, hcarries, hout⟩ := h.reading hl hrunning
        generalize hunread : s.unread = bytes at hcarries
        cases hcarries with
        | nil => exact absurd (by simpa [hpassed, relayed] using hout) hgoal
        | cons hreads _ => exact ⟨_, distance_read hnil hrunning hheld hunread hreads⟩
      · exact absurd (hpassed.symm.trans (h.stopped hl hrunning)) hgoal

end Relay

end Wire
