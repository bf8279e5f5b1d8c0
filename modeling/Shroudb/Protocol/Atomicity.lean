import Shroudb.Protocol.AclCoverage

/-! Which pipelines are applied as a whole or not at all. -/
namespace Shroudb
open Effect

section
variable {C : Crates} {σ : Type}

def CommandResponse.failed : CommandResponse C → Bool
  | .error _ => true
  | _ => false

mutual
/-- The commands that are executed in the course of a command: those of a pipeline that is answered
from the cache are not. -/
def executed (B : Backend C σ) (auth : Option C.AuthContext) :
    Command → Dispatcher C σ → List Command
  | .pipeline commands requestId, d =>
    match d.lookup requestId with
    | (some _, _) => []
    | (none, d) => executedAll B auth commands d
  | cmd, _ => [cmd]
def executedAll (B : Backend C σ) (auth : Option C.AuthContext) :
    List Command → Dispatcher C σ → List Command
  | [], _ => []
  | c :: cs, d => executed B auth c d ++ executedAll B auth cs (execute B auth c d).2
end

mutual
/-- The command, or one in it, is a pipeline that is answered from the cache. -/
def replays (B : Backend C σ) (auth : Option C.AuthContext) : Command → Dispatcher C σ → Bool
  | .pipeline commands requestId, d =>
    match d.lookup requestId with
    | (some _, _) => true
    | (none, d) => replaysAny B auth commands d
  | _, _ => false
def replaysAny (B : Backend C σ) (auth : Option C.AuthContext) :
    List Command → Dispatcher C σ → Bool
  | [], _ => false
  | c :: cs, d => replays B auth c d || replaysAny B auth cs (execute B auth c d).2
end

variable {B : Backend C σ} {auth : Option C.AuthContext} {d d' : Dispatcher C σ} {cmd : Command}
  {cs : List Command} {id : Option String}

/-! ## Which commands are executed -/

/-- Nothing that a command depends on is different: the cache and its clock may be. -/
def SameButCache (d d' : Dispatcher C σ) : Prop := d.store = d'.store ∧ d.wall = d'.wall

theorem SameButCache.trans {d'' : Dispatcher C σ} (h : SameButCache d d')
    (h' : SameButCache d' d'') : SameButCache d d'' :=
  ⟨h.1.trans h'.1, h.2.trans h'.2⟩

theorem SameButCache.executeLeaf (h : SameButCache d d') :
    (executeLeaf B auth cmd d).1 = (executeLeaf B auth cmd d').1 ∧
      SameButCache (executeLeaf B auth cmd d).2 (executeLeaf B auth cmd d').2 := by
  have hanswer : ∀ op (d d' : Dispatcher C σ), True → SameButCache d d' →
      (Dispatcher.answer B op d).1 = (Dispatcher.answer B op d').1 ∧
        SameButCache (Dispatcher.answer B op d).2 (Dispatcher.answer B op d').2 := by
    rintro op ⟨store, _, _, wall, _⟩ ⟨_, _, _, _, _⟩ - ⟨rfl, rfl⟩
    cases op <;> exact ⟨rfl, rfl, rfl⟩
  rw [Shroudb.executeLeaf, Shroudb.executeLeaf]
  cases aclCheck auth cmd.aclRequirement with
  | some e => exact ⟨rfl, h⟩
  | none =>
    obtain ⟨hresult, hsame⟩ :=
      Program.run_related (p := dispatch B.hasEngine cmd) hanswer Program.uses_any h
    exact ⟨congrArg toResponse hresult, hsame⟩

end

namespace Memory

end Memory

end Shroudb
