import Shroudb.Effect.Schedule
import Shroudb.Wire.Stream
import Shroudb.Client.Decoder

/-! Calls on one client connection: which reply each of them returns. -/
namespace Shroudb
open Wire Effect

namespace Response

variable {inner inner' : Reader ReadFailure Response} {k : Nat}

theorem lawful_parseLength (what payload : String) : Lawful (parseLength what payload) := by
  unfold parseLength
  cases parseInt64 payload with
  | ok n => exact .pure _
  | error e => exact .fail _

theorem lawful_withCapacity (count : Int64) (size : Nat) : Lawful (withCapacity count size) := by
  unfold withCapacity
  split_ifs
  · exact .pure _
  · exact .fail _

theorem lawful_readItems (hi : Lawful inner) (count : Int64) : Lawful (readItems inner count) :=
  (lawful_withCapacity _ _).bind fun n => (hi.times n).bind fun _ => .pure _

theorem lawful_readEntry (hi : Lawful inner) : Lawful (readEntry inner) :=
  hi.bind fun _ => hi.bind fun _ => .pure _

theorem lawful_readBody (hi : Lawful inner) (c : Char) (payload : String) :
    Lawful (readBody inner c payload) := by
  unfold readBody
  split
  · exact .pure _
  · exact .pure _
  · cases parseInt64 payload with
    | ok n => exact .pure _
    | error e => exact .fail _
  · exact .pure _
  · refine (lawful_parseLength _ _).bind fun len => ?_
    split_ifs
    · exact .pure _
    · exact (lawful_withCapacity _ _).bind fun size => (Lawful.exactly size _).bind fun _ => .pure _
  · refine (lawful_parseLength _ _).bind fun count => ?_
    split_ifs
    · exact .pure _
    · exact lawful_readItems hi _
  · exact (lawful_parseLength _ _).bind fun _ => (lawful_withCapacity _ _).bind fun n =>
      ((lawful_readEntry hi).times n).bind fun _ => .pure _
  · split
    · exact .pure _
    · exact .pure _
    · exact .fail _
  · exact .pure _
  · exact (lawful_parseLength _ _).bind fun _ => lawful_readItems hi _
  · exact (lawful_parseLength _ _).bind fun _ => lawful_readItems hi _
  · exact .fail _

theorem lawful_readLineBody (hi : Lawful inner) (line : String) :
    Lawful (readLineBody inner line) := by
  unfold readLineBody
  split_ifs
  · exact .fail _
  · split
    · exact .fail _
    · split_ifs
      · exact lawful_readBody hi _ _
      · exact .fail _

theorem lawful_readValueAt (levels : Nat) : Lawful (readValueAt levels) := by
  induction levels with
  | zero =>
    refine ⟨fun h => ?_, fun _ _ _ => Or.inl rfl⟩
    cases h
  | succ levels ih => exact (Lawful.line _).bind fun line => lawful_readLineBody ih line

theorem agree_readItems (hl : Lawful inner) (hi : Agree k inner inner') (count : Int64) :
    Agree k (readItems inner count) (readItems inner' count) :=
  .bind (lawful_withCapacity _ _) (.rfl _) fun n => .bind (hl.times n) (.times hl hi n) fun _ => .rfl _

theorem agree_readBody (hl : Lawful inner) (hi : Agree k inner inner') (c : Char)
    (payload : String) : Agree k (readBody inner c payload) (readBody inner' c payload) := by
  unfold readBody
  split
  · exact .rfl _
  · exact .rfl _
  · exact .rfl _
  · exact .rfl _
  · exact .rfl _
  · refine .bind (lawful_parseLength _ _) (.rfl _) fun count => ?_
    split_ifs
    · exact .rfl _
    · exact agree_readItems hl hi _
  · refine .bind (lawful_parseLength _ _) (.rfl _) fun count =>
      .bind (lawful_withCapacity _ _) (.rfl _) fun n => ?_
    have hentry : Agree k (readEntry inner) (readEntry inner') :=
      .bind hl hi fun _ => .bind hl hi fun _ => .rfl _
    exact .bind ((lawful_readEntry hl).times n) (.times (lawful_readEntry hl) hentry n)
      fun _ => .rfl _
  · exact .rfl _
  · exact .rfl _
  · exact .bind (lawful_parseLength _ _) (.rfl _) fun _ => agree_readItems hl hi _
  · exact .bind (lawful_parseLength _ _) (.rfl _) fun _ => agree_readItems hl hi _
  · exact .rfl _

theorem agree_readLineBody (hl : Lawful inner) (hi : Agree k inner inner') (line : String) :
    Agree k (readLineBody inner line) (readLineBody inner' line) := by
  unfold readLineBody
  split_ifs
  · exact .rfl _
  · split
    · exact .rfl _
    · split_ifs
      · exact agree_readBody hl hi _ _
      · exact .rfl _

/-- What follows the first line has fewer bytes, so only there the two readers have to agree. -/
theorem line_readLineBody_congr {ended : Bool} {bs : Bytes} (hl : Lawful inner)
    (hi : Agree bs.length inner inner') :
    (Reader.line (.error (.connection "stream did not contain valid UTF-8")) >>=
        readLineBody inner) ended bs =
      (Reader.line (.error (.connection "stream did not contain valid UTF-8")) >>=
        readLineBody inner') ended bs := by
  cases hline : Reader.line (ReadFailure.error (.connection "stream did not contain valid UTF-8"))
    ended bs with
  | fail e rest => rw [Reader.bind_fail hline, Reader.bind_fail hline]
  | more => rw [Reader.bind_more hline, Reader.bind_more hline]
  | done line rest =>
    rw [Reader.bind_done hline, Reader.bind_done hline]
    by_cases hempty : line = ""
    · simp [readLineBody, hempty]
    · exact agree_readLineBody hl hi line ended rest (Reader.line_takes hline hempty)

/-- As many levels as there are bytes are enough. -/
theorem readValueAt_enough {n m : Nat} {ended : Bool} {bs : Bytes} (hn : bs.length < n)
    (hm : bs.length < m) : readValueAt n ended bs = readValueAt m ended bs := by
  induction n generalizing m ended bs with
  | zero => omega
  | succ n ih =>
    obtain ⟨m, rfl⟩ := Nat.exists_eq_succ_of_ne_zero (Nat.ne_of_gt (Nat.zero_lt_of_lt hm))
    have hinner : Agree bs.length (readValueAt n) (readValueAt m) :=
      fun ended bs' hlt => ih (by omega) (by omega)
    exact line_readLineBody_congr (lawful_readValueAt n) hinner

/-- The decoder calls itself on what follows the first line. -/
theorem readValue_eq (ended : Bool) (bs : Bytes) :
    readValue ended bs = (do
      let line ← Reader.line (.error (.connection "stream did not contain valid UTF-8"))
      readLineBody readValue line : Reader ReadFailure Response) ended bs := by
  have hinner : Agree bs.length (readValueAt bs.length) readValue :=
    fun ended bs' hlt => readValueAt_enough hlt (Nat.lt_succ_self _)
  exact line_readLineBody_congr (lawful_readValueAt _) hinner

theorem lawful_readValue : Lawful readValue where
  suffix h := (lawful_readValueAt _).suffix h
  stable ended bs ext := by
    have henough : readValue false bs = readValueAt ((bs ++ ext).length + 1) false bs := by
      apply readValueAt_enough
      · omega
      · rw [List.length_append]
        omega
    rw [henough]
    exact (lawful_readValueAt _).stable ended bs ext

end Response

/-! ## Calls, timeouts and replies -/

/-- What the connection is doing. While it is `writing`, nothing of the command is in the write
buffer yet. -/
inductive Activity where
  | idle
  | writing
  | flushing
  | reading
deriving DecidableEq, Repr

/-- A client connection and the network. `unsent` holds the commands in the write buffer, by the
number of their call, `wire` the replies still on the way, and `results` what the calls so far
have returned. -/
structure Link where
  activity : Activity
  unsent : List Nat
  wire : Bytes
  inbox : Inbox
  results : List (Except ReadFailure Response)

inductive LinkMove where
  | call
  | write
  | send
  | flushed
  | deliver (n : Nat)
  | poll
  | timeout
deriving DecidableEq, Repr

def timedOut : Except ReadFailure Response := .error (.error .timeout)

namespace Link

def new : Link := ⟨.idle, [], [], ⟨[], []⟩, []⟩

/-- The call in progress returns. -/
def finish (l : Link) (inbox : Inbox) (result : Except ReadFailure Response) : Link :=
  { l with activity := .idle, inbox, results := l.results ++ [result] }

/-- `answer k` is what the server sends for the command of call `k`, as soon as it has it.
A timeout drops whatever the call was doing. Moves that do not apply change nothing. -/
def move (answer : Nat → Bytes) (l : Link) : LinkMove → Link
  | .call => if l.activity = .idle then { l with activity := .writing } else l
  | .write =>
    if l.activity = .writing then
      { l with activity := .flushing, unsent := l.unsent ++ [l.results.length] }
    else l
  | .send =>
    if l.activity = .flushing then
      { l with unsent := [], wire := l.wire ++ l.unsent.flatMap answer }
    else l
  | .flushed =>
    if l.activity = .flushing ∧ l.unsent = [] then { l with activity := .reading } else l
  | .deliver n => { l with wire := l.wire.drop n, inbox := l.inbox.arrive (l.wire.take n) }
  | .poll =>
    if l.activity = .reading then
      match l.inbox.poll Response.readValue false with
      | (none, inbox) => { l with inbox }
      | (some result, inbox) => l.finish inbox result
    else l
  | .timeout =>
    if l.activity = .idle then l else l.finish l.inbox.abandon timedOut

variable {answer : Nat → Bytes} {value : Nat → Response} {l : Link}

/-- The bytes the call in progress is owed. -/
def due (answer : Nat → Bytes) (l : Link) : Bytes :=
  match l.activity with
  | .idle | .writing => []
  | .flushing | .reading => answer l.results.length

/-- Every value returned so far is the call's own reply, and all that is under way belongs to the
call in progress. -/
structure InOrder (answer : Nat → Bytes) (value : Nat → Response) (l : Link) : Prop where
  results : ∀ i r, l.results[i]? = some (.ok r) → r = value i
  unsent : l.activity ≠ .flushing → l.unsent = []
  stream : l.inbox.contents ++ l.wire ++ l.unsent.flatMap answer = l.due answer

/-- A timeout finds nothing of its call's command written. -/
def Unwritten (l : Link) (mv : LinkMove) : Prop :=
  mv = .timeout → l.activity = .idle ∨ l.activity = .writing

/-- One more result keeps the results in order when it is no value but the call's own reply. -/
theorem results_finish {inbox : Inbox} {result : Except ReadFailure Response}
    (h : ∀ i r, l.results[i]? = some (.ok r) → r = value i)
    (hown : ∀ r, result = .ok r → r = value l.results.length) :
    ∀ i r, (l.finish inbox result).results[i]? = some (.ok r) → r = value i := by
  intro i r hi
  simp only [finish] at hi
  rcases Nat.lt_trichotomy i l.results.length with hlt | rfl | hgt
  · rw [List.getElem?_append_left hlt] at hi
    exact h i r hi
  · rw [List.getElem?_concat_length] at hi
    exact hown r (Option.some.inj hi)
  · have hnone : (l.results ++ [result])[i]? = none := by
      apply List.getElem?_eq_none
      rw [List.length_append, List.length_singleton]
      omega
    rw [hnone] at hi
    cases hi

/-- The only value a call can read is its own reply, and the reply is all there is. -/
theorem inOrder_poll (hserver : ∀ k, Reader.Reads Response.readValue (answer k) (value k))
    (h : InOrder answer value l) (hr : l.activity = .reading) :
    InOrder answer value (l.move answer .poll) := by
  have hunsent : l.unsent = [] := h.unsent (by simp [hr])
  have hstream : l.inbox.contents ++ l.wire = answer l.results.length := by
    simpa [due, hr, hunsent] using h.stream
  have hreply := hserver l.results.length false []
  rw [List.append_nil, ← hstream] at hreply
  rw [move, if_pos hr]
  unfold Inbox.poll
  cases hread : Response.readValue false l.inbox.contents with
  | more =>
    refine ⟨h.results, h.unsent, ?_⟩
    simpa [Inbox.contents, due] using h.stream
  | fail e rest =>
    rw [Response.lawful_readValue.fail_append hread false l.wire] at hreply
    cases hreply
  | done v rest =>
    rw [Response.lawful_readValue.done_append hread false l.wire] at hreply
    simp only [Poll.done.injEq, List.append_eq_nil_iff] at hreply
    obtain ⟨rfl, rfl, hwire⟩ := hreply
    refine ⟨results_finish h.results fun r hr => ?_, fun _ => hunsent,
      by simp [finish, Inbox.contents, due, hwire, hunsent]⟩
    exact (Except.ok.inj hr).symm

/-- What one move keeps. -/
theorem inOrder_move (hserver : ∀ k, Reader.Reads Response.readValue (answer k) (value k))
    {mv : LinkMove} (hunwritten : Unwritten l mv) (h : InOrder answer value l) :
    InOrder answer value (l.move answer mv) := by
  cases mv with
  | call =>
    rw [move]
    split_ifs with hidle
    · exact ⟨h.results, fun _ => h.unsent (by simp [hidle]), by simpa [due, hidle] using h.stream⟩
    · exact h
  | write =>
    rw [move]
    split_ifs with hw
    · have hunsent : l.unsent = [] := h.unsent (by simp [hw])
      have hempty : l.inbox.contents ++ l.wire = [] := by simpa [due, hw, hunsent] using h.stream
      exact ⟨h.results, fun hne => absurd rfl hne, by simp [due, hunsent, hempty]⟩
    · exact h
  | send =>
    rw [move]
    split_ifs with hf
    · exact ⟨h.results, fun _ => rfl, by simpa [due, hf] using h.stream⟩
    · exact h
  | flushed =>
    rw [move]
    split_ifs with hf
    · exact ⟨h.results, fun _ => hf.2, by simpa [due, hf.1] using h.stream⟩
    · exact h
  | deliver n =>
    refine ⟨h.results, h.unsent, ?_⟩
    have hsplit : (l.inbox.arrive (l.wire.take n)).contents ++ l.wire.drop n =
        l.inbox.contents ++ l.wire := by
      simp
    rw [move, hsplit]
    exact h.stream
  | poll =>
    by_cases hr : l.activity = .reading
    · exact inOrder_poll hserver h hr
    · rw [move, if_neg hr]
      exact h
  | timeout =>
    rw [move]
    split_ifs with hidle
    · exact h
    have hw : l.activity = .writing := (hunwritten rfl).resolve_left hidle
    have hunsent : l.unsent = [] := h.unsent (by simp [hw])
    obtain ⟨hcontents, hwire⟩ : l.inbox.contents = [] ∧ l.wire = [] := by
      simpa [due, hw, hunsent] using h.stream
    obtain ⟨-, hbuffer⟩ : l.inbox.consumed = [] ∧ l.inbox.buffer = [] := by
      simpa [Inbox.contents] using hcontents
    refine ⟨results_finish h.results fun r hr => ?_, fun _ => hunsent, ?_⟩
    · cases hr
    · simp [finish, Inbox.contents, Inbox.abandon, hbuffer, hwire, hunsent, due]

/-- In every run whose timeouts come before their command is written, a call that returns a value
returns the reply to its own command. -/
theorem returns_own_reply (answer : Nat → Bytes) (value : Nat → Response)
    (hserver : ∀ k, Reader.Reads Response.readValue (answer k) (value k)) (moves : List LinkMove)
    (hunwritten : Schedule.Guarded (move answer) Unwritten new moves) (k : Nat) (r : Response)
    (hok : (Schedule.run (move answer) new moves).results[k]? = some (.ok r)) :
    r = value k := by
  have hinit : InOrder answer value new := ⟨by simp [new], fun _ => rfl, rfl⟩
  have horder : InOrder answer value (Schedule.run (move answer) new moves) :=
    Schedule.run_invariant (fun _ _ hu h => inOrder_move hserver hu h) hunwritten hinit
  exact horder.results k r hok

/-- A server that answers the first command with `a` and the others with `b`. -/
def twoReplies (k : Nat) : Resp3Frame := if k = 0 then .simpleString "a" else .simpleString "b"

/-- A call up to its read. -/
def request : List LinkMove := [.call, .write, .send, .flushed]

theorem reads_twoReplies (k : Nat) :
    Reader.Reads Response.readValue (Resp3Frame.writeFrame (twoReplies k))
      (Resp3Frame.img (twoReplies k)) := by
  unfold twoReplies
  split_ifs <;> exact Resp3Frame.reads_readValue
    (by simp [Resp3Frame.LineSafe, Resp3Frame.lineTexts]) (by simp [Resp3Frame.InMemory])

/-- A call that times out before it has written anything does no harm. -/
theorem call_after_early_timeout_returns_own_reply :
    (Schedule.run (move fun k => Resp3Frame.writeFrame (twoReplies k)) new
      ([.call, .timeout] ++ request ++ [.deliver 4, .poll])).results =
        [timedOut, .ok (.string "b")] ∧
    Response.string "b" = Resp3Frame.img (twoReplies 1) := by
  refine ⟨rfl, returns_own_reply _ (fun k => Resp3Frame.img (twoReplies k)) reads_twoReplies
    ([.call, .timeout] ++ request ++ [.deliver 4, .poll]) ?_ 1 _ rfl⟩
  refine ⟨?_, fun _ => Or.inr rfl, ?_, ?_, ?_, ?_, ?_, ?_, trivial⟩
  all_goals exact fun h => by cases h

/-- The first call times out, and the second returns the reply to the first. -/
theorem call_after_timeout_returns_stale_reply :
    (Schedule.run (move fun k => Resp3Frame.writeFrame (twoReplies k)) new
      (request ++ [.timeout, .deliver 4] ++ request ++ [.poll])).results =
        [timedOut, .ok (Resp3Frame.img (twoReplies 0))] ∧
    Resp3Frame.img (twoReplies 0) ≠ Resp3Frame.img (twoReplies 1) := by
  refine ⟨rfl, ?_⟩
  simp [twoReplies, Resp3Frame.img]

end Link

end Shroudb
