import Shroudb.Crates

/-! Commands, independent of the wire protocol, and the access each one requires. -/
namespace Shroudb
open Wire

inductive Command where
  | auth (token : String)
  | ping
  | put (ns : String) (key value : Bytes) (metadata : Option Json) (ttlMs : Option UInt64)
  | get (ns : String) (key : Bytes) (version : Option UInt64) (withMeta : Bool)
  | delete (ns : String) (key : Bytes)
  | putIf (ns : String) (key value : Bytes) (metadata : Option Json) (expectedVersion : UInt64)
  | delIf (ns : String) (key : Bytes) (expectedVersion : UInt64)
  | delPrefix (ns : String) (keyPrefix : Bytes)
  | list (ns : String) (keyPrefix : Option Bytes) (cursor : Option String) (limit : Option UInt64)
  | versions (ns : String) (key : Bytes) (limit fromVersion : Option UInt64)
  | namespaceCreate (name : String) (schema : Option Json)
      (maxVersions tombstoneRetentionSecs : Option UInt64)
  | namespaceDrop (name : String) (force : Bool)
  | namespaceList (cursor : Option String) (limit : Option UInt64)
  | namespaceInfo (name : String)
  | namespaceAlter (name : String) (schema : Option Json)
      (maxVersions tombstoneRetentionSecs : Option UInt64)
  | namespaceValidate (name : String)
  | pipeline (commands : List Command) (requestId : Option String)
  | subscribe (ns : String) (key : Option Bytes) (events : List String)
  | unsubscribe
  | health
  | configGet (key : String)
  | configSet (key value : String)
  | commandList
  | rekey (newKeyHex : String)
  | rekeyStatus
deriving Repr

namespace Command

def aclRequirement : Command → AclRequirement
  | .auth .. | .ping | .health | .configGet .. | .commandList | .rekeyStatus => .none
  | .namespaceCreate .. | .namespaceDrop .. | .namespaceAlter .. | .configSet .. | .rekey .. =>
    .admin
  | .get ns .. | .list ns .. | .versions ns .. | .namespaceInfo ns | .namespaceValidate ns
  | .subscribe ns .. => .inNamespace ns .read none
  | .put ns .. | .delete ns .. | .putIf ns .. | .delIf ns .. | .delPrefix ns .. =>
    .inNamespace ns .write none
  | .namespaceList .. => .none
  | .unsubscribe => .none
  | .pipeline .. => .none

def isPipeline : Command → Bool
  | .pipeline .. => true
  | _ => false

/-- Induction over commands, with the hypothesis for every sub-command of a pipeline. -/
@[induction_eliminator]
theorem command_induction {P : Command → Prop} (leaf : ∀ c, c.isPipeline = false → P c)
    (pipeline : ∀ cs id, (∀ c ∈ cs, P c) → P (.pipeline cs id)) (c : Command) : P c := by
  refine @Command.rec P (fun cs => ∀ c ∈ cs, P c) ?_ ?_ ?_ ?_ ?_ ?_ ?_ ?_ ?_ ?_ ?_ ?_ ?_ ?_ ?_ ?_
    (fun cs id ih => pipeline cs id ih) ?_ ?_ ?_ ?_ ?_ ?_ ?_ ?_ ?_ ?_ c
  case refine_25 => simp
  case refine_26 =>
    intro c cs hc hcs d hd
    rcases List.mem_cons.mp hd with rfl | hd
    · exact hc
    · exact hcs d hd
  all_goals
    intros
    exact leaf _ rfl

mutual
/-- The commands in a command, in pipelines of any depth. -/
def leaves : Command → List Command
  | .pipeline commands _ => leavesAll commands
  | cmd => [cmd]
def leavesAll : List Command → List Command
  | [] => []
  | c :: cs => c.leaves ++ leavesAll cs
end

theorem leaves_eq {cmd : Command} (h : cmd.isPipeline = false) : cmd.leaves = [cmd] := by
  cases cmd <;> first | rfl | cases h

end Command

end Shroudb
