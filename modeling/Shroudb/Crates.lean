import Shroudb.Wire.Utf8

/-! What the code takes from the crates outside the repository. -/
namespace Shroudb
open Wire

inductive JsonNumber where
  | unsigned (n : UInt64)
  | signed (n : Int64)
  | float (bits : UInt64)
deriving DecidableEq, Repr

/-- `serde_json::Value`. -/
inductive Json where
  | null
  | bool (b : Bool)
  | number (n : JsonNumber)
  | string (s : String)
  | array (items : List Json)
  | object (fields : List (String × Json))
deriving BEq, Repr

inductive Scope where
  | read
  | write
deriving DecidableEq, Repr

/-- `shroudb_acl::AclRequirement`. -/
inductive AclRequirement where
  | none
  | admin
  | inNamespace (ns : String) (scope : Scope) (tenantOverride : Option String)
deriving DecidableEq, Repr

/-- The variants of `shroudb_store::StoreError` the code tells apart, and the others. -/
inductive StoreError (ValidationError : Type) where
  | notFound
  | namespaceNotFound (ns : String)
  | namespaceExists (ns : String)
  | namespaceNotEmpty (ns : String)
  | validationFailed (errors : List ValidationError)
  | invalidCursor (message : String)
  | versionConflict (current : UInt64)
  | prefixTooLarge (matched limit : UInt64)
  | storage (message : String)
  | connection (message : String)
  | other (message : String)

/-- Types and pure functions of `serde_json`, `shroudb_store` and `shroudb_acl`, and the printing
of floats. An error is given by the text it displays. -/
structure Crates where
  Metadata : Type
  MetaSchema : Type
  ValidationError : Type
  AuthContext : Type
  F64 : Type
  jsonFromStr : String → Except String Json
  jsonToString : Json → String
  jsonObject : List (String × Json) → Json
  metadataFromJson : Json → Except String Metadata
  metadataToJson : Metadata → Json
  metadataFromValue : Json → Except String Metadata
  metadataDefault : Metadata
  schemaFromValue : Json → Except String MetaSchema
  schemaToString : MetaSchema → String
  validationErrorText : ValidationError → String
  validationErrorsDebug : List ValidationError → String
  storeErrorText : StoreError ValidationError → String
  check : AuthContext → AclRequirement → Except String Unit
  isExpired : AuthContext → UInt64 → Bool
  actor : AuthContext → String
  platform : String → String → AuthContext
  f64Text : F64 → String
  percentText : F64 → String

end Shroudb
