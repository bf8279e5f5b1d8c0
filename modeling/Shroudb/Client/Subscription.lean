import Shroudb.Wire.Relay
import Shroudb.Client.Connection
import Shroudb.Client.Fidelity

/-! `RemoteStore::subscribe`: the filter it asks for, and the events it passes on. -/
namespace Shroudb
open Wire Effect Resp3Frame

/-! ## Events -/

/-- Further items are ignored. The numbers are read as signed and cast back. -/
def parsePushFrame : Response → Option SubscriptionEvent
  | .array (label :: event :: ns :: key :: version :: actor :: timestamp :: _) => do
    let label ← label.asStr
    if label ≠ "subscribe" then none
    let event ← match ← event.asStr with
      | "put" => some EventType.put
      | "delete" => some EventType.delete
      | _ => none
    let ns ← ns.asStr
    let key ← key.asStr
    let version ← version.asInt
    let actor ← actor.asStr
    let timestamp ← timestamp.asInt
    return ⟨event, ns, utf8 key, version.toUInt64, actor, timestamp.toUInt64⟩
  | _ => none

/-- The message by which the server ends a subscription. -/
def isSubscriptionClosed : Response → Bool
  | .array (first :: second :: _) =>
    first.asStr = some "subscription" && second.asStr = some "closed"
  | _ => false

namespace RemoteSubscription

/-- The body of the reader loop. A message that is no event is passed over. -/
def verdict (resp : Response) : Verdict SubscriptionEvent :=
  if isSubscriptionClosed resp then .stop
  else
    match parsePushFrame resp with
    | some event => .forward event
    | none => .skip

/-- The room in the channel from the reader task to the subscription. -/
def capacity : Nat := 1024

/-- One move of the reader task, its connection or its receiver. -/
def move : Relay SubscriptionEvent → RelayMove → Relay SubscriptionEvent :=
  Relay.move Response.readValue verdict capacity

/-- What the server writes for the events, and for the end of the subscription if it ends. -/
def stream (events : List SubscriptionEvent) (closed : Bool) : Bytes :=
  events.flatMap (fun ev => writeFrame (subscriptionEventToPushFrame ev)) ++
    if closed then writeFrame subscriptionClosedFrame else []

end RemoteSubscription

section
variable {ev : SubscriptionEvent}

theorem img_subscriptionEventToPushFrame (ev : SubscriptionEvent) :
    img (subscriptionEventToPushFrame ev) =
      .array [.string "subscribe", .string (eventText ev.event), .string ev.ns,
        .string (fromUtf8Lossy ev.key), .integer ev.version.toInt64, .string ev.actor,
        .integer ev.timestamp.toInt64] := by
  simp [subscriptionEventToPushFrame, img, imgAll]

theorem reads_event (hm : InMemory (subscriptionEventToPushFrame ev)) :
    Reader.Reads Response.readValue (writeFrame (subscriptionEventToPushFrame ev))
      (img (subscriptionEventToPushFrame ev)) := by
  refine reads_readValue ?_ hm
  cases hevent : ev.event <;>
    simp [LineSafe, subscriptionEventToPushFrame, lineTexts, lineTextsAll, hevent, eventText]

theorem parsePushFrame_img (hkey : Textual ev.key) :
    parsePushFrame (img (subscriptionEventToPushFrame ev)) = some ev := by
  obtain ⟨key, hkey⟩ := hkey
  obtain ⟨event, ns, _, version, actor, timestamp⟩ := ev
  subst hkey
  rw [img_subscriptionEventToPushFrame]
  cases event <;> simp [parsePushFrame, Response.asStr, Response.asInt, eventText]

theorem isSubscriptionClosed_img (ev : SubscriptionEvent) :
    isSubscriptionClosed (img (subscriptionEventToPushFrame ev)) = false := by
  simp [img_subscriptionEventToPushFrame, isSubscriptionClosed, Response.asStr]

theorem verdict_event (hkey : Textual ev.key) :
    RemoteSubscription.verdict (img (subscriptionEventToPushFrame ev)) = .forward ev := by
  simp [RemoteSubscription.verdict, isSubscriptionClosed_img, parsePushFrame_img hkey]

theorem readValue_nil {ended : Bool} {resp : Response} {rest : Bytes} :
    Response.readValue ended [] ≠ .done resp rest := by
  intro h
  cases ended with
  | false => cases h
  | true => cases h

end

/-- The key is UTF-8, and no text of the event is too long for a buffer of the client. -/
structure Deliverable (ev : SubscriptionEvent) : Prop where
  key : Textual ev.key
  memory : InMemory (subscriptionEventToPushFrame ev)

namespace RemoteSubscription
variable {events : List SubscriptionEvent}

/-- The messages that the client reads off the stream. -/
def messages (events : List SubscriptionEvent) (closed : Bool) : List Response :=
  events.map (fun ev => img (subscriptionEventToPushFrame ev)) ++
    if closed then [img subscriptionClosedFrame] else []

theorem carries_stream (h : ∀ ev ∈ events, Deliverable ev) (closed : Bool) :
    Carries Response.readValue (stream events closed) (messages events closed) := by
  induction events with
  | nil =>
    cases closed with
    | false => exact .nil
    | true =>
      have hreads : Reader.Reads Response.readValue (writeFrame subscriptionClosedFrame)
          (img subscriptionClosedFrame) :=
        reads_readValue (by simp [LineSafe, subscriptionClosedFrame, lineTexts, lineTextsAll])
          (by simp [InMemory, InMemoryAll, subscriptionClosedFrame, Response.responseSize,
            Response.maxAllocation])
      simpa [stream, messages] using Carries.cons hreads .nil
  | cons ev events ih =>
    have hev := reads_event (h ev (by simp)).memory
    simpa [stream, messages] using Carries.cons hev (ih fun ev' hev' => h ev' (by simp [hev']))

theorem relayed_messages (h : ∀ ev ∈ events, Deliverable ev) (closed : Bool) :
    relayed verdict (messages events closed) = events := by
  induction events with
  | nil => cases closed <;> rfl
  | cons ev events ih =>
    have hrest := ih fun ev' hev' => h ev' (by simp [hev'])
    simp only [messages, List.map_cons, List.cons_append, relayed,
      verdict_event (h ev (by simp)).key]
    exact congrArg _ hrest

end RemoteSubscription

/-- Every event is read back as it was, and is never taken for the end of the subscription. Whatever
the timing of bytes, reads and receives, the receiver has got the first of the events in order, and
as long as it listens it can still get all of them. -/
theorem events_arrive_in_order (events : List SubscriptionEvent)
    (h : ∀ ev ∈ events, Deliverable ev) (closed ends : Bool) (moves : List RelayMove) :
    (∀ ev ∈ events, ∃ resp,
      Reader.Reads Response.readValue (writeFrame (subscriptionEventToPushFrame ev)) resp ∧
        parsePushFrame resp = some ev ∧ isSubscriptionClosed resp = false) ∧
    let s := Schedule.run RemoteSubscription.move
      (.start (RemoteSubscription.stream events closed) ends) moves
    s.received <+: events ∧
      (s.listening → s.passed <+: events ∧
        ∃ more, (Schedule.run RemoteSubscription.move s more).received = events) := by
  refine ⟨fun ev hev => ⟨_, reads_event (h ev hev).memory, parsePushFrame_img (h ev hev).key,
    isSubscriptionClosed_img ev⟩, ?_⟩
  intro s
  have hstart : Relay.Accounted Response.readValue RemoteSubscription.verdict events
      (.start (RemoteSubscription.stream events closed) ends) :=
    Relay.accounted_start ends (RemoteSubscription.carries_stream h closed)
      (RemoteSubscription.relayed_messages h closed)
  have hs : Relay.Accounted Response.readValue RemoteSubscription.verdict events s :=
    Relay.accounted_run Response.lawful_readValue readValue_nil hstart
  refine ⟨hs.delivered, fun hl => ⟨hs.passed_prefix hl, ?_⟩⟩
  exact Relay.exists_delivery Response.lawful_readValue readValue_nil (by decide) hs hl

/-- An event with a version and a time above `i64::MAX`. -/
theorem large_numbers_arrive :
    let ev : SubscriptionEvent :=
      ⟨.put, "a", [107], 18446744073709551615, "writer", 9223372036854775808⟩
    (∃ resp,
      Reader.Reads Response.readValue (writeFrame (subscriptionEventToPushFrame ev)) resp ∧
        parsePushFrame resp = some ev) ∧
    ∃ moves, (Schedule.run RemoteSubscription.move
      (.start (RemoteSubscription.stream [ev] true) true) moves).received = [ev] := by
  intro ev
  have hframe : Representable (subscriptionEventToPushFrame ev) := by decide
  have h : ∀ ev' ∈ [ev], Deliverable ev' := by
    intro ev' hev'
    obtain rfl := List.mem_singleton.mp hev'
    exact ⟨⟨"k", by decide⟩, hframe.inMemory⟩
  obtain ⟨hread, hrun⟩ := events_arrive_in_order [ev] h true true []
  obtain ⟨resp, hresp, hparse, -⟩ := hread ev (by simp)
  exact ⟨⟨resp, hresp, hparse⟩, (hrun.2 rfl).2⟩

/-! ## The filter -/

/-- The arguments of the request. The events are joined into one of them. -/
def RemoteStore.subscribeArgs (ns : String) (filter : SubscriptionFilter) : List String :=
  ["SUBSCRIBE", ns] ++
    (match filter.key with
    | some key => ["KEY", fromUtf8Lossy key]
    | none => []) ++
    if filter.events = [] then [] else ["EVENTS", "|".intercalate (filter.events.map eventText)]

/-- An empty list selects every type. -/
def SubscriptionFilter.Selects (filter : SubscriptionFilter) (event : EventType) : Prop :=
  filter.events = [] ∨ event ∈ filter.events

/-- The connection asks its store for a filter with the same key that selects the same events. -/
def FilterKept (C : Crates) (ns : String) (filter : SubscriptionFilter) : Prop :=
  ∃ key events, Delivered C (RemoteStore.subscribeArgs ns filter) (.subscribe ns key events) ∧
    key = filter.key ∧
    ∀ event, SubscriptionFilter.Selects ⟨key, eventFilter events⟩ event ↔ filter.Selects event

/-- The event words of the command that the server parses. -/
def sentEvents (events : List EventType) : List String :=
  if events = [] then [] else [toAsciiUppercase ("|".intercalate (events.map eventText))]

section
variable {C : Crates} {events : List EventType}

/-- Several events are joined to a word with a bar, which no case mapping removes. -/
theorem bar_mem_joined (e e' : EventType) (rest : List EventType) :
    '|' ∈ ("|".intercalate ((e :: e' :: rest).map eventText)).toList := by
  rw [List.map_cons, List.map_cons, String.intercalate_cons_cons]
  simp

theorem bar_mem_toAsciiUppercase {s : String} (h : '|' ∈ s.toList) :
    '|' ∈ (toAsciiUppercase s).toList := by
  rw [toAsciiUppercase, String.toList_ofList]
  exact List.mem_map.mpr ⟨'|', h, by decide⟩

theorem bar_mem_toAsciiLowercase {s : String} (h : '|' ∈ s.toList) :
    '|' ∈ (toAsciiLowercase s).toList := by
  rw [toAsciiLowercase, String.toList_ofList]
  exact List.mem_map.mpr ⟨'|', h, by decide⟩

theorem joined_ne_key (events : List EventType) :
    toAsciiUppercase ("|".intercalate (events.map eventText)) ≠ "KEY" := by
  match events with
  | [] => decide
  | [.put] => decide
  | [.delete] => decide
  | e :: e' :: rest =>
    intro h
    have hbar := bar_mem_toAsciiUppercase (bar_mem_joined e e' rest)
    rw [h] at hbar
    exact absurd hbar (by decide)

/-- The server drops a word of several events, as it drops any unknown one. -/
theorem eventFilter_sentEvents (events : List EventType) :
    eventFilter (sentEvents events) = if events.length ≤ 1 then events else [] := by
  match events with
  | [] => rfl
  | [.put] => decide
  | [.delete] => decide
  | e :: e' :: rest =>
    have hbar := bar_mem_toAsciiLowercase (bar_mem_toAsciiUppercase (bar_mem_joined e e' rest))
    rw [if_neg (by simp), sentEvents, if_neg (by simp)]
    generalize toAsciiUppercase _ = word at hbar
    unfold eventFilter
    rw [List.filterMap_cons_none, List.filterMap_nil]
    split
    case h_1 hput =>
      rw [hput] at hbar
      exact absurd hbar (by decide)
    case h_2 hdelete =>
      rw [hdelete] at hbar
      exact absurd hbar (by decide)
    case h_3 => rfl

theorem selects_sentEvents_iff (key : Option Bytes) :
    (∀ event, SubscriptionFilter.Selects ⟨key, eventFilter (sentEvents events)⟩ event ↔
        SubscriptionFilter.Selects ⟨key, events⟩ event) ↔
      events.length ≤ 1 ∨ .put ∈ events ∧ .delete ∈ events := by
  unfold SubscriptionFilter.Selects
  dsimp only
  rw [eventFilter_sentEvents]
  by_cases hshort : events.length ≤ 1
  · rw [if_pos hshort]
    exact iff_of_true (fun _ => Iff.rfl) (Or.inl hshort)
  · have hne : events ≠ [] := by
      rintro rfl
      exact hshort (by simp)
    rw [if_neg hshort]
    constructor
    · intro h
      have hmem : ∀ event, event ∈ events := fun event =>
        ((h event).mp (Or.inl rfl)).resolve_left hne
      exact Or.inr ⟨hmem .put, hmem .delete⟩
    · rintro (hlen | ⟨hput, hdelete⟩) event
      · exact absurd hlen hshort
      · refine iff_of_true (Or.inl rfl) (Or.inr ?_)
        cases event with
        | put => exact hput
        | delete => exact hdelete

theorem scanSubscribe_sent (key : Option Bytes) (events : List EventType) :
    scanSubscribe false (if events = [] then [] else
      ["EVENTS", "|".intercalate (events.map eventText)]) (key, []) = (key, sentEvents events) := by
  unfold sentEvents
  split_ifs with hnil
  · rfl
  · rw [scanSubscribe_other (by decide), if_neg (by decide)]
    exact scanSubscribe_other (joined_ne_key events)

theorem parse_subscribeArgs (ns : String) (key : Option String) (events : List EventType) :
    parseCommand (C := C) (commandFrame (RemoteStore.subscribeArgs ns ⟨key.map utf8, events⟩)) =
      .ok (.subscribe ns (key.map utf8) (sentEvents events)) := by
  have hverb : ∀ args, parseCommand (C := C) (commandFrame ("SUBSCRIBE" :: args)) =
      parseSubscribe args := fun args => parseCommand_commandFrame parseSubscribe (by decide) rfl
  let sent := if events = [] then [] else ["EVENTS", "|".intercalate (events.map eventText)]
  cases key with
  | none =>
    refine (hverb (ns :: sent)).trans ?_
    simp only [parseSubscribe, sent, scanSubscribe_sent, Option.map_none]
  | some key =>
    have hkey : scanSubscribe false ("KEY" :: key :: sent) (none, []) =
        scanSubscribe false sent (some (utf8 key), []) := by
      rw [scanSubscribe, if_pos (by decide)]
    have hargs : RemoteStore.subscribeArgs ns ⟨some (utf8 key), events⟩ =
        "SUBSCRIBE" :: ns :: "KEY" :: key :: sent := by
      simp [RemoteStore.subscribeArgs, sent]
    rw [Option.map_some, hargs, hverb]
    simp only [parseSubscribe, hkey, sent, scanSubscribe_sent]

end

/-- The filter of a subscription is kept exactly when its request is within the limits of the server
and its events are none, one, or both types. -/
theorem filter_kept_iff (C : Crates) (ns : String) (key : Option String)
    (events : List EventType) :
    let filter : SubscriptionFilter := ⟨key.map utf8, events⟩
    FilterKept C ns filter ↔ WithinLimits (RemoteStore.subscribeArgs ns filter) ∧
      (events.length ≤ 1 ∨ .put ∈ events ∧ .delete ∈ events) := by
  intro filter
  have hparse := parse_subscribeArgs (C := C) ns key events
  rw [← selects_sentEvents_iff (key.map utf8)]
  constructor
  · rintro ⟨key', events', hdelivered, -, hselects⟩
    obtain ⟨hlimits, hparse'⟩ := delivered_iff.mp hdelivered
    rw [hparse] at hparse'
    cases hparse'
    exact ⟨hlimits, hselects⟩
  · rintro ⟨hlimits, hselects⟩
    exact ⟨_, _, delivered_iff.mpr ⟨hlimits, hparse⟩, rfl, hselects⟩

namespace Memory

/-- A client asks for the puts of a namespace and names them twice. It gets the deletes as well. -/
theorem repeated_put_selects_delete :
    let filter : SubscriptionFilter := ⟨none, [.put, .put]⟩
    Delivered crates (RemoteStore.subscribeArgs "a" filter) (.subscribe "a" none ["PUT|PUT"]) ∧
      SubscriptionFilter.Selects ⟨none, eventFilter ["PUT|PUT"]⟩ .delete ∧
      ¬ filter.Selects .delete ∧ ¬ FilterKept crates "a" filter := by
  intro filter
  have hlimits : WithinLimits (RemoteStore.subscribeArgs "a" filter) := ⟨by decide, by decide⟩
  have hparse : parseCommand (C := crates) (commandFrame (RemoteStore.subscribeArgs "a" filter)) =
      .ok (.subscribe "a" none ["PUT|PUT"]) := parse_subscribeArgs "a" none [.put, .put]
  have hdelete : SubscriptionFilter.Selects ⟨none, eventFilter ["PUT|PUT"]⟩ .delete :=
    Or.inl (by decide)
  have hnot : ¬ filter.Selects .delete := by simp [SubscriptionFilter.Selects, filter]
  refine ⟨delivered_of_parse hlimits hparse, hdelete, hnot, ?_⟩
  rintro ⟨key, events, hdelivered, -, hselects⟩
  obtain ⟨-, hparse'⟩ := delivered_iff.mp hdelivered
  rw [hparse] at hparse'
  cases hparse'
  exact hnot ((hselects .delete).mp hdelete)

end Memory

end Shroudb
