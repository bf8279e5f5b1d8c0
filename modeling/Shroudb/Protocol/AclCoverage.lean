import Shroudb.MemoryStore
import Shroudb.Protocol.Dispatch

/-! Every store and engine call is covered by an access check. -/
namespace Shroudb
open Wire Effect

variable {C : Crates} {σ : Type}

/-- The access a call needs: reads and writes in their namespace, and everything that changes
namespaces, configuration or keys as an administrator. -/
def Call.requirement : Call C → AclRequirement
  | .get ns .. | .list ns .. | .versions ns .. | .namespaceInfo ns | .namespaceValidate ns
  | .subscribe ns .. => .inNamespace ns .read none
  | .putWithOptions ns .. | .delete ns .. | .putIfVersion ns .. | .deleteIfVersion ns ..
  | .deletePrefix ns .. => .inNamespace ns .write none
  | .namespaceCreate .. | .namespaceDrop .. | .namespaceAlter .. | .configValidate ..
  | .configApply .. | .configStore .. | .beginRekey .. => .admin
  | .namespaceList .. | .configGet .. | .rekeyStatus => .none

/-- The listing of namespaces, the reading of configuration and the rekey status are open. -/
def Authorised (auth : Option C.AuthContext) (c : Call C) : Prop :=
  c.requirement = .none ∨ ∃ ctx, auth = some ctx ∧ C.check ctx c.requirement = .ok ()

/-- Calls that need exactly `requirement`. -/
def Op.Needs (requirement : AclRequirement) : Op C → Prop
  | .call c => c.requirement = requirement
  | .systemTime => True

theorem query_uses {c : Call C} {finish : c.Answer → Except (CommandError C) (ResponseMap C)} :
    (Handlers.query c finish).Uses (Op.Needs c.requirement) :=
  ⟨rfl, fun _ => trivial⟩

theorem configSet_uses (key value : String) :
    (Handlers.configSet key value : Plan C).Uses (Op.Needs .admin) := by
  refine ⟨trivial, ?_⟩
  rintro (_ | timestamp)
  · trivial
  refine ⟨rfl, ?_⟩
  rintro (_ | _)
  · trivial
  refine ⟨rfl, ?_⟩
  rintro (_ | _)
  · trivial
  · exact query_uses

/-- The handlers' calls need the access the command was checked for. -/
theorem dispatch_uses (hasEngine : Bool) (cmd : Command) :
    (dispatch hasEngine cmd : Plan C).Uses (Op.Needs cmd.aclRequirement) := by
  cases cmd with
  | put ns key value metadata ttlMs =>
    simp only [dispatch, Handlers.put]
    split
    · trivial
    · exact query_uses
  | putIf ns key value metadata expected =>
    simp only [dispatch, Handlers.putIf]
    split
    · trivial
    · exact query_uses
  | namespaceCreate name schema maxVersions retention =>
    simp only [dispatch, Handlers.namespaceCreate]
    split
    · trivial
    · exact query_uses
  | namespaceAlter name schema maxVersions retention =>
    simp only [dispatch, Handlers.namespaceAlter]
    split
    · trivial
    · exact query_uses
  | configGet key => cases hasEngine <;> first | trivial | exact query_uses
  | configSet key value => cases hasEngine <;> first | trivial | exact configSet_uses key value
  | rekey newKeyHex =>
    simp only [dispatch, Handlers.rekey]
    split_ifs
    · split
      · trivial
      · split_ifs
        · trivial
        · exact query_uses
    · trivial
  | rekeyStatus => cases hasEngine <;> first | trivial | exact query_uses
  | _ => first | trivial | exact query_uses

theorem aclCheck_eq_none {auth : Option C.AuthContext} {requirement : AclRequirement}
    (h : aclCheck auth requirement = none) :
    requirement = .none ∨ ∃ ctx, auth = some ctx ∧ C.check ctx requirement = .ok () := by
  unfold aclCheck at h
  split at h
  · exact Or.inl rfl
  · cases h
  · split at h
    · exact Or.inr ⟨_, rfl, by assumption⟩
    · cases h

theorem executeLeaf_store_invariant {B : Backend C σ} {auth : Option C.AuthContext} {I : σ → Prop}
    (hcall : ∀ c s, Authorised auth c → I s → I (B.perform c s).2) (cmd : Command)
    {d : Dispatcher C σ} (h : I d.store) : I (executeLeaf B auth cmd d).2.store := by
  rw [executeLeaf]
  split
  case h_1 => exact h
  case h_2 hacl =>
    refine Program.run_invariant (I := fun d : Dispatcher C σ => I d.store) ?_
      (dispatch_uses B.hasEngine cmd) h
    rintro (c | _) d' hc hd
    · have hneeds : c.requirement = cmd.aclRequirement := hc
      exact hcall c _ (by rw [Authorised, hneeds]; exact aclCheck_eq_none hacl) hd
    · exact hd

/-- What every authorised call keeps of the store, `execute` keeps. -/
theorem execute_store_invariant {B : Backend C σ} {auth : Option C.AuthContext} {I : σ → Prop}
    (hcall : ∀ c s, Authorised auth c → I s → I (B.perform c s).2) (cmd : Command)
    {d : Dispatcher C σ} (h : I d.store) : I (execute B auth cmd d).2.store :=
  execute_invariant (I := fun d => I d.store) (fun _ _ _ hd => hd)
    (fun cmd _ hd => executeLeaf_store_invariant hcall cmd hd) cmd h

/-- The calls after `d` extend those before by authorised ones. -/
def CallsAuthorised (auth : Option C.AuthContext) (before : List (Call C)) (d : Dispatcher C σ) :
    Prop :=
  ∃ made, d.calls = before ++ made ∧ ∀ c ∈ made, Authorised auth c

theorem executeLeaf_authorised {B : Backend C σ} {auth : Option C.AuthContext}
    {before : List (Call C)} (cmd : Command) {d : Dispatcher C σ}
    (h : CallsAuthorised auth before d) :
    CallsAuthorised auth before (executeLeaf B auth cmd d).2 := by
  rw [executeLeaf]
  split
  case h_1 => exact h
  case h_2 hacl =>
    refine Program.run_invariant ?_ (dispatch_uses B.hasEngine cmd) h
    rintro (c | _) d' hc ⟨made, hm, ha⟩
    · refine ⟨made ++ [c], by simp [Dispatcher.answer, hm], fun c' hc' => ?_⟩
      rcases List.mem_append.mp hc' with hc' | hc'
      · exact ha c' hc'
      · obtain rfl := List.mem_singleton.mp hc'
        have hn : c'.requirement = cmd.aclRequirement := hc
        rw [Authorised, hn]
        exact aclCheck_eq_none hacl
    · exact ⟨made, hm, ha⟩

/-- Every call `execute` makes, in pipelines of any depth, is authorised; and a leaf command that
fails its check makes no call and leaves the store as it was. -/
theorem execute_calls_authorised (B : Backend C σ) (auth : Option C.AuthContext) (cmd : Command)
    (d : Dispatcher C σ) :
    (∃ made, (execute B auth cmd d).2.calls = d.calls ++ made ∧ ∀ c ∈ made, Authorised auth c) ∧
    (cmd.isPipeline = false → cmd.aclRequirement ≠ .none →
      (∀ ctx, auth = some ctx → C.check ctx cmd.aclRequirement ≠ .ok ()) →
      (execute B auth cmd d).2.calls = d.calls ∧ (execute B auth cmd d).2.store = d.store) := by
  constructor
  · refine execute_invariant (I := CallsAuthorised auth d.calls) ?_ ?_ cmd ?_
    · exact fun d' m i h => h
    · exact fun cmd d' h => executeLeaf_authorised cmd h
    · exact ⟨[], by simp, by simp⟩
  · intro hleaf hne hfail
    rw [execute_leaf hleaf, executeLeaf]
    cases hacl : aclCheck auth cmd.aclRequirement with
    | some e => exact ⟨rfl, rfl⟩
    | none =>
      obtain hnone | ⟨ctx, hctx, hok⟩ := aclCheck_eq_none hacl
      · exact absurd hnone hne
      · exact absurd hok (hfail ctx hctx)

namespace Memory

def fresh (s : State) : Dispatcher crates State := .new s (Stream'.const 0) (Stream'.const (some 0))

theorem reader_put_makes_no_call :
    crates.check reader (.inNamespace "a" .write none) ≠ .ok () ∧
    (execute backend (some reader) (.put "a" [107] [118] none none) (fresh [])).2.calls = [] ∧
    (execute backend (some reader) (.put "a" [107] [118] none none) (fresh [])).2.store = [] := by
  have hdenied : crates.check reader (.inNamespace "a" .write none) ≠ .ok () := by
    intro h
    cases h
  refine ⟨hdenied, (execute_calls_authorised backend (some reader)
    (.put "a" [107] [118] none none) (fresh [])).2 rfl ?_ ?_⟩
  · exact AclRequirement.noConfusion
  · rintro ctx hctx
    cases hctx
    exact hdenied

end Memory

end Shroudb
