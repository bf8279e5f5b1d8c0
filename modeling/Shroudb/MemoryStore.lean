import Shroudb.Store

/-! A small store in memory, and crates small enough to run. Metadata and schemas carry nothing. -/
namespace Shroudb.Memory
open Wire

/-- A principal is the platform or holds grants on namespaces. -/
structure Principal where
  tenant : String
  name : String
  isPlatform : Bool
  grants : List (String × Scope)
  expiresAt : Option UInt64

def Principal.check (p : Principal) : AclRequirement → Except String Unit
  | .none => .ok ()
  | .admin => if p.isPlatform then .ok () else .error "admin required"
  | .inNamespace ns scope _ =>
    if p.isPlatform || p.grants.contains (ns, scope) then .ok () else .error "no grant"

def reader : Principal := ⟨"tenant-b", "reader", false, [("a", .read)], none⟩

def writer : Principal := ⟨"tenant-a", "writer", false, [("a", .write)], none⟩

def admin : Principal := ⟨"platform", "admin", true, [], some 20⟩

def storeErrorText : StoreError Empty → String
  | .notFound => "not found"
  | .namespaceNotFound ns => "namespace not found: " ++ ns
  | .namespaceExists ns => "namespace already exists: " ++ ns
  | .namespaceNotEmpty ns => "namespace not empty: " ++ ns
  | .validationFailed _ => "validation failed"
  | .invalidCursor message => "invalid cursor: " ++ message
  | .versionConflict _ => "version conflict"
  | .prefixTooLarge .. => "prefix too large"
  | .storage message => message
  | .connection message => message
  | .other message => message

def crates : Crates where
  Metadata := Unit
  MetaSchema := Unit
  ValidationError := Empty
  AuthContext := Principal
  F64 := Unit
  jsonFromStr s := if s = "null" then .ok .null else .error "expected value"
  jsonToString _ := "null"
  jsonObject := .object
  metadataFromJson _ := .ok ()
  metadataToJson _ := .null
  metadataFromValue _ := .ok ()
  metadataDefault := ()
  schemaFromValue _ := .ok ()
  schemaToString _ := "null"
  validationErrorText := Empty.elim
  validationErrorsDebug _ := "[]"
  storeErrorText := storeErrorText
  check := Principal.check
  isExpired p now := p.expiresAt.any (· ≤ now)
  actor p := p.name
  platform tenant actor := ⟨tenant, actor, true, [], none⟩
  f64Text _ := "0"
  percentText _ := "0.0%"

structure Record where
  ns : String
  key : Bytes
  value : Bytes
  version : UInt64
deriving DecidableEq, Repr

abbrev State := List Record

/-- The newest record of a key comes first. -/
def find (s : State) (ns : String) (key : Bytes) : Option Record :=
  s.find? fun r => r.ns == ns && r.key == key

def put (s : State) (ns : String) (key value : Bytes) : Except (StoreError Empty) UInt64 × State :=
  let version := ((find s ns key).map (·.version)).getD 0 + 1
  (.ok version, ⟨ns, key, value, version⟩ :: s)

def get (s : State) (ns : String) (key : Bytes) : Except (StoreError Empty) (Entry crates) :=
  match find s ns key with
  | some r => .ok ⟨r.key, r.value, r.version, (), 0, 0⟩
  | none => .error .notFound

def delete (s : State) (ns : String) (key : Bytes) : Except (StoreError Empty) UInt64 × State :=
  match find s ns key with
  | some r => (.ok r.version, s.filter fun r => !(r.ns == ns && r.key == key))
  | none => (.error .notFound, s)

/-- A conditional write goes through when the current version, 0 for none, is the expected one. -/
def onVersion (s : State) (ns : String) (key : Bytes) (expected : UInt64)
    (write : Except (StoreError Empty) UInt64 × State) : Except (StoreError Empty) UInt64 × State :=
  let current := ((find s ns key).map (·.version)).getD 0
  if current = expected then write else (.error (.versionConflict current), s)

def perform : (c : Call crates) → State → c.Answer × State
  | .putWithOptions ns key value _, s => put s ns key value
  | .get ns key _, s => (get s ns key, s)
  | .delete ns key, s => delete s ns key
  | .putIfVersion ns key value _ expected, s => onVersion s ns key expected (put s ns key value)
  | .deleteIfVersion ns key expected, s => onVersion s ns key expected (delete s ns key)
  | .deletePrefix ns keyPrefix, s =>
    let doomed := fun r : Record => r.ns == ns && keyPrefix.isPrefixOf r.key
    (.ok (UInt64.ofNat (s.countP doomed)), s.filter fun r => !doomed r)
  | .list ns _ _ limit, s =>
    (.ok ⟨((s.filter (·.ns == ns)).map (·.key)).eraseDups.take limit.toNat, none⟩, s)
  | .versions ns key limit _, s =>
    (.ok (((s.filter fun r => r.ns == ns && r.key == key).take limit.toNat).map fun r =>
      ⟨r.version, .active, 0, "memory"⟩), s)
  | .namespaceCreate .., s => (.ok (), s)
  | .namespaceDrop name _, s => (.ok (), s.filter (·.ns != name))
  | .namespaceList _ limit, s =>
    (.ok ⟨((s.map fun r => utf8 r.ns).eraseDups).take limit.toNat, none⟩, s)
  | .namespaceInfo name, s =>
    (.ok ⟨name, UInt64.ofNat (s.countP (·.ns == name)), 0, ⟨none, none, none⟩⟩, s)
  | .namespaceAlter .., s => (.ok (), s)
  | .namespaceValidate .., s => (.ok [], s)
  | .subscribe .., s => (.ok (), s)
  | .configGet .., s => (none, s)
  | .configValidate .., s => (.ok (), s)
  | .configApply .., s => (.ok (), s)
  | .configStore .., s => (.ok (), s)
  | .beginRekey .., s => (.error "not available", s)
  | .rekeyStatus, s => (none, s)

def backend : Backend crates State where
  hasEngine := true
  perform := perform

end Shroudb.Memory
