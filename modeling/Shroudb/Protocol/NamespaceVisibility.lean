import Shroudb.Protocol.AclCoverage

/-! What NAMESPACE LIST returns, against the grants of its caller. -/
namespace Shroudb
open Wire Effect

variable {C : Crates} {σ : Type}

/-- Some scope on the namespace passes the access check. -/
def Granted (ctx : C.AuthContext) (ns : String) : Prop :=
  ∃ scope, C.check ctx (.inNamespace ns scope none) = .ok ()

def ResponseValue.text? : ResponseValue C → Option String
  | .string s => some s
  | _ => none

/-- The names in the `namespaces` field of a reply. -/
def CommandResponse.namespaces : CommandResponse C → List String
  | .success m =>
    match m.lookup "namespaces" with
    | some (.array items) => items.filterMap ResponseValue.text?
    | _ => []
  | _ => []

mutual
/-- The names that the NAMESPACE LISTs executed for a command return, in pipelines of any depth.
A replayed frame executes nothing. -/
def returned : Command → CommandResponse C → List String
  | .namespaceList .., r => r.namespaces
  | .pipeline commands _, .array results => returnedAll commands results
  | _, _ => []
def returnedAll : List Command → List (CommandResponse C) → List String
  | c :: cs, r :: rs => returned c r ++ returnedAll cs rs
  | _, _ => []
end

/-- The page of namespaces in the store, as text. -/
def Dispatcher.listing (B : Backend C σ) (cursor : Option String) (limit : Option UInt64)
    (d : Dispatcher C σ) : Except (StoreError C.ValidationError) (List String × Option String) :=
  match (B.perform (.namespaceList cursor (limit.getD 100)) d.store).1 with
  | .error e => .error e
  | .ok page => .ok (page.keys.map fromUtf8Lossy, page.cursor)

mutual
/-- The namespaces on the store's pages when the NAMESPACE LISTs of a command come to them. -/
def listed (B : Backend C σ) (auth : Option C.AuthContext) :
    Command → Dispatcher C σ → List String
  | .namespaceList cursor limit, d =>
    match d.listing B cursor limit with
    | .error _ => []
    | .ok (names, _) => names
  | .pipeline commands requestId, d =>
    match d.lookup requestId with
    | (some _, _) => []
    | (none, d) => listedAll B auth commands d
  | _, _ => []
def listedAll (B : Backend C σ) (auth : Option C.AuthContext) :
    List Command → Dispatcher C σ → List String
  | [], _ => []
  | c :: cs, d => listed B auth c d ++ listedAll B auth cs (execute B auth c d).2
end

section
variable {B : Backend C σ} {auth : Option C.AuthContext} {d : Dispatcher C σ}

/-- The reply to a NAMESPACE LIST is the store's page, whoever asks. -/
theorem execute_namespaceList (cursor : Option String) (limit : Option UInt64) :
    (execute B auth (.namespaceList cursor limit) d).1 =
      match d.listing B cursor limit with
      | .error e => .error (.store e)
      | .ok (names, next) =>
        .success (Handlers.pageFields "namespaces" (names.map .string) next) := by
  have hrun : (execute B auth (.namespaceList cursor limit) d).1 = toResponse
      ((Handlers.namespaceList cursor (limit.getD 100)).run (Dispatcher.answer B) d).1 := rfl
  rw [hrun, Handlers.namespaceList, run_query, Dispatcher.listing]
  cases (B.perform (.namespaceList cursor (limit.getD 100)) d.store).1 with
  | error e => rfl
  | ok page => simp [toResponse, Function.comp_def]

theorem namespaces_page (names : List String) (next : Option String) :
    CommandResponse.namespaces (C := C)
      (.success (Handlers.pageFields "namespaces" (names.map .string) next)) = names := by
  cases next <;>
    simp [CommandResponse.namespaces, Handlers.pageFields, ResponseMap.ok, ResponseMap.field,
      List.lookup_cons, List.filterMap_map, Function.comp_def, ResponseValue.text?]

theorem listed_hit {cs : List Command} {id : Option String} {frame : Resp3Frame}
    (h : (d.lookup id).1 = some frame) : listed B auth (.pipeline cs id) d = [] := by
  rw [listed]
  split <;> simp_all

theorem listed_miss {cs : List Command} {id : Option String} (h : (d.lookup id).1 = none) :
    listed B auth (.pipeline cs id) d = listedAll B auth cs (d.lookup id).2 := by
  rw [listed]
  split <;> simp_all

theorem returned_leaf (c : Command) (hc : c.isPipeline = false) :
    returned c (execute B auth c d).1 = listed B auth c d := by
  cases c with
  | namespaceList cursor limit =>
    rw [execute_namespaceList, returned, listed]
    cases d.listing B cursor limit with
    | error e => rfl
    | ok page => exact namespaces_page page.1 page.2
  | pipeline cs id => cases hc
  | _ => rfl

theorem returnedAll_executeAll {cs : List Command}
    (hcs : ∀ c ∈ cs, ∀ d, returned c (execute B auth c d).1 = listed B auth c d) :
    returnedAll cs (executeAll B auth cs d).1 = listedAll B auth cs d := by
  induction cs generalizing d with
  | nil => rfl
  | cons c cs ih =>
    have hc := hcs c (by simp) d
    have hrest := ih (fun c' hc' => hcs c' (by simp [hc'])) (d := (execute B auth c d).2)
    exact congrArg₂ (· ++ ·) hc hrest

/-- Nothing is filtered on the way. -/
theorem returned_execute (cmd : Command) :
    returned cmd (execute B auth cmd d).1 = listed B auth cmd d := by
  induction cmd generalizing d with
  | leaf c hc => exact returned_leaf c hc
  | pipeline cs id ih =>
    cases hl : (d.lookup id).1 with
    | some frame =>
      rw [execute_pipeline_hit hl, listed_hit hl]
      rfl
    | none =>
      rw [execute_pipeline_miss hl, listed_miss hl]
      exact returnedAll_executeAll fun c hc d => ih c hc

/-- Two pages with one reply are one page. -/
theorem pageFields_injective {names names' : List String} {next next' : Option String}
    (h : Handlers.pageFields (C := C) "namespaces" (names.map .string) next =
      Handlers.pageFields "namespaces" (names'.map .string) next') :
    names = names' ∧ next = next' := by
  have hnames := congrArg (fun m => CommandResponse.namespaces (.success m)) h
  simp only [namespaces_page] at hnames
  refine ⟨hnames, ?_⟩
  cases next <;> cases next' <;>
    simp_all [Handlers.pageFields, ResponseMap.ok, ResponseMap.field]

theorem namespaceList_reply_eq_iff {d d' : Dispatcher C σ} (cursor : Option String)
    (limit : Option UInt64) :
    (execute B auth (.namespaceList cursor limit) d).1 =
        (execute B auth (.namespaceList cursor limit) d').1 ↔
      d.listing B cursor limit = d'.listing B cursor limit := by
  rw [execute_namespaceList, execute_namespaceList]
  rcases d.listing B cursor limit with e | ⟨names, next⟩ <;>
    rcases d'.listing B cursor limit with e' | ⟨names', next'⟩
  · simp
  · simp
  · simp
  · constructor
    · intro h
      obtain ⟨rfl, rfl⟩ := pageFields_injective (CommandResponse.success.inj h)
      rfl
    · intro h
      cases h
      rfl

end

/-- A caller is shown only namespaces it has a grant on exactly when the store's pages hold no
others, and two contents of the store get one reply exactly when they have one page. -/
theorem namespaces_visible_iff (B : Backend C σ) (ctx : C.AuthContext) :
    (∀ cmd d, (∀ ns ∈ returned cmd (execute B (some ctx) cmd d).1, Granted ctx ns) ↔
      ∀ ns ∈ listed B (some ctx) cmd d, Granted ctx ns) ∧
    ∀ cursor limit (d d' : Dispatcher C σ),
      (execute B (some ctx) (.namespaceList cursor limit) d).1 =
          (execute B (some ctx) (.namespaceList cursor limit) d').1 ↔
        d.listing B cursor limit = d'.listing B cursor limit := by
  constructor
  · intro cmd d
    rw [returned_execute]
  · intro cursor limit d d'
    exact namespaceList_reply_eq_iff cursor limit

namespace Memory

/-- The reader, with a grant on `a` alone, sees that there is a namespace `b`. -/
theorem reader_sees_ungranted_namespace :
    reader.isPlatform = false ∧ ¬ Granted (C := crates) reader "b" ∧
      "b" ∈ returned (.pipeline [.namespaceList none none] none)
        (execute backend (some reader) (.pipeline [.namespaceList none none] none)
          (fresh [⟨"a", [107], [118], 1⟩, ⟨"b", [107], [118], 1⟩])).1 ∧
      (execute backend (some reader) (.namespaceList none none)
          (fresh [⟨"a", [107], [118], 1⟩, ⟨"b", [107], [118], 1⟩])).1.namespaces = ["a", "b"] ∧
      (execute backend (some reader) (.namespaceList none none)
          (fresh [⟨"a", [107], [118], 1⟩])).1.namespaces = ["a"] := by
  refine ⟨rfl, ?_, by decide, by decide, by decide⟩
  rintro ⟨_ | _, h⟩ <;> cases h

end Memory

end Shroudb
