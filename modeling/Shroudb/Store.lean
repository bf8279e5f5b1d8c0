import Shroudb.Crates

/-! The calls the server makes on its `Store` and `StorageEngine`. -/
namespace Shroudb
open Wire

structure PutOptions (C : Crates) where
  metadata : Option C.Metadata
  ttlMs : Option UInt64
  expectedVersion : Option UInt64

structure NamespaceConfig (C : Crates) where
  metaSchema : Option C.MetaSchema
  maxVersions : Option UInt64
  tombstoneRetentionSecs : Option UInt64

structure Entry (C : Crates) where
  key : Bytes
  value : Bytes
  version : UInt64
  metadata : C.Metadata
  createdAt : UInt64
  updatedAt : UInt64

structure Page where
  keys : List Bytes
  cursor : Option String

inductive EntryState where
  | active
  | deleted
deriving DecidableEq, Repr

structure VersionInfo where
  version : UInt64
  state : EntryState
  updatedAt : UInt64
  actor : String

structure NamespaceInfo (C : Crates) where
  name : String
  keyCount : UInt64
  createdAt : UInt64
  config : NamespaceConfig C

structure ValidationReport (C : Crates) where
  key : Bytes
  version : UInt64
  errors : List C.ValidationError

/-- `source` is what `ConfigSource` displays. -/
structure ConfigEntry where
  value : String
  source : String

structure RekeyProgress (C : Crates) where
  inProgress : Bool
  progress : C.F64
  segmentsCompleted : UInt64
  totalSegments : UInt64
  startedAt : UInt64

inductive EventType where
  | put
  | delete
deriving DecidableEq, Repr

structure SubscriptionFilter where
  key : Option Bytes
  events : List EventType

structure SubscriptionEvent where
  event : EventType
  ns : String
  key : Bytes
  version : UInt64
  actor : String
  timestamp : UInt64

/-- One call of the store or of the engine. `configValidate`, `configApply` and `configStore` are
the three engine calls of `CONFIG SET`. -/
inductive Call (C : Crates) where
  | putWithOptions (ns : String) (key value : Bytes) (options : PutOptions C)
  | get (ns : String) (key : Bytes) (version : Option UInt64)
  | delete (ns : String) (key : Bytes)
  | putIfVersion (ns : String) (key value : Bytes) (metadata : Option C.Metadata)
      (expectedVersion : UInt64)
  | deleteIfVersion (ns : String) (key : Bytes) (expectedVersion : UInt64)
  | deletePrefix (ns : String) (keyPrefix : Bytes)
  | list (ns : String) (keyPrefix : Option Bytes) (cursor : Option String) (limit : UInt64)
  | versions (ns : String) (key : Bytes) (limit : UInt64) (fromVersion : Option UInt64)
  | namespaceCreate (name : String) (config : NamespaceConfig C)
  | namespaceDrop (name : String) (force : Bool)
  | namespaceList (cursor : Option String) (limit : UInt64)
  | namespaceInfo (name : String)
  | namespaceAlter (name : String) (config : NamespaceConfig C)
  | namespaceValidate (name : String)
  | subscribe (ns : String) (filter : SubscriptionFilter)
  | configGet (key : String)
  | configValidate (key value : String)
  | configApply (key value : String)
  | configStore (key value : String) (timestamp : UInt64)
  | beginRekey (key : Bytes)
  | rekeyStatus

/-- What a call returns. Engine errors are given by the text they display. -/
def Call.Answer {C : Crates} : Call C → Type
  | .putWithOptions .. => Except (StoreError C.ValidationError) UInt64
  | .get .. => Except (StoreError C.ValidationError) (Entry C)
  | .delete .. => Except (StoreError C.ValidationError) UInt64
  | .putIfVersion .. => Except (StoreError C.ValidationError) UInt64
  | .deleteIfVersion .. => Except (StoreError C.ValidationError) UInt64
  | .deletePrefix .. => Except (StoreError C.ValidationError) UInt64
  | .list .. => Except (StoreError C.ValidationError) Page
  | .versions .. => Except (StoreError C.ValidationError) (List VersionInfo)
  | .namespaceCreate .. => Except (StoreError C.ValidationError) Unit
  | .namespaceDrop .. => Except (StoreError C.ValidationError) Unit
  | .namespaceList .. => Except (StoreError C.ValidationError) Page
  | .namespaceInfo .. => Except (StoreError C.ValidationError) (NamespaceInfo C)
  | .namespaceAlter .. => Except (StoreError C.ValidationError) Unit
  | .namespaceValidate .. => Except (StoreError C.ValidationError) (List (ValidationReport C))
  | .subscribe .. => Except (StoreError C.ValidationError) Unit
  | .configGet .. => Option ConfigEntry
  | .configValidate .. => Except String Unit
  | .configApply .. => Except String Unit
  | .configStore .. => Except String Unit
  | .beginRekey .. => Except String Unit
  | .rekeyStatus => Option (RekeyProgress C)

/-- The store and engine behind a dispatcher, as a machine whose state is `σ`. Without an engine
(remote store mode) the dispatcher makes store calls only. -/
structure Backend (C : Crates) (σ : Type) where
  hasEngine : Bool
  perform : (c : Call C) → σ → c.Answer × σ

end Shroudb
