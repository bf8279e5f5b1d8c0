import Mathlib.Data.List.Nodup
import Shroudb.Protocol.ParseCommand

/-! The tokens of a configuration file, and the validator that is built from them. -/
namespace Shroudb
open Wire

structure GrantConfig where
  ns : String
  scopes : List String

structure TokenConfig where
  tenant : String
  actor : String
  platform : Bool
  grants : List GrantConfig

/-- The `[auth]` section. Its tokens are the keys of a map. -/
structure ServerAuthConfig where
  method : Option String
  tokens : List (String × TokenConfig)
  nodup : (tokens.map (·.1)).Nodup

/-- What of a configuration can be reloaded. -/
structure Settings where
  auth : Option ServerAuthConfig
  rateLimitPerSecond : Option UInt32

structure TokenGrant where
  ns : String
  scopes : List Scope
deriving DecidableEq, Repr

structure Token where
  tenant : String
  actor : String
  isPlatform : Bool
  grants : List TokenGrant
  expiresAt : Option UInt64
deriving DecidableEq, Repr

/-- What the code takes of `StaticTokenValidator` from `shroudb_acl`. -/
structure TokenCrate where
  Validator : Type
  new : Validator
  register : Validator → String → Token → Validator
  validate : Validator → String → Except String Token

/-- Validators accept nothing but what was registered with them. -/
structure TokenCrate.Registers (K : TokenCrate) : Prop where
  new : ∀ raw token, K.validate K.new raw ≠ .ok token
  register : ∀ v raw token raw' token', K.validate (K.register v raw token) raw' = .ok token' →
    raw' = raw ∧ token' = token ∨ K.validate v raw' = .ok token'

/-- Scopes other than these two are ignored. No letter outside ASCII has an `r`, `w` or any other
letter of theirs as its lower case. -/
def parseScope (s : String) : Option Scope :=
  match toAsciiLowercase s with
  | "read" => some .read
  | "write" => some .write
  | _ => none

/-- Configured tokens do not expire. -/
def TokenConfig.token (tc : TokenConfig) : Token where
  tenant := tc.tenant
  actor := tc.actor
  isPlatform := tc.platform
  grants := tc.grants.map fun g => ⟨g.ns, g.scopes.filterMap parseScope⟩
  expiresAt := none

def buildTokenValidator (K : TokenCrate) (config : Settings) : K.Validator :=
  match config.auth with
  | none => K.new
  | some auth => auth.tokens.foldl (fun v t => K.register v t.1 t.2.token) K.new

def authRequired (config : Settings) : Bool :=
  match config.auth with
  | none => false
  | some auth => auth.method = some "token" && !auth.tokens.isEmpty

/-- A configuration has a token for what is presented. -/
def Settings.Grants (config : Settings) (raw : String) (token : Token) : Prop :=
  ∃ auth, config.auth = some auth ∧ ∃ tc, (raw, tc) ∈ auth.tokens ∧ token = tc.token

/-! ## The validator of a configuration -/

section
variable {K : TokenCrate} {raw : String} {token : Token}

theorem mem_of_validate_foldl (hK : K.Registers) {tokens : List (String × TokenConfig)}
    {v : K.Validator}
    (h : K.validate (tokens.foldl (fun v t => K.register v t.1 t.2.token) v) raw = .ok token) :
    K.validate v raw = .ok token ∨ ∃ tc, (raw, tc) ∈ tokens ∧ token = tc.token := by
  induction tokens generalizing v with
  | nil => exact Or.inl h
  | cons t tokens ih =>
    rcases ih h with hv | ⟨tc, htc, rfl⟩
    · rcases hK.register v t.1 t.2.token raw token hv with ⟨rfl, rfl⟩ | hv
      · exact Or.inr ⟨t.2, List.mem_cons_self, rfl⟩
      · exact Or.inl hv
    · exact Or.inr ⟨tc, List.mem_cons_of_mem t htc, rfl⟩

/-- The validator of a configuration accepts its tokens only, each with its own grants. -/
theorem grants_of_validate (hK : K.Registers) {config : Settings}
    (h : K.validate (buildTokenValidator K config) raw = .ok token) : config.Grants raw token := by
  unfold buildTokenValidator at h
  split at h
  case h_1 => exact absurd h (hK.new raw token)
  case h_2 auth hauth =>
    rcases mem_of_validate_foldl hK h with hnew | htoken
    · exact absurd hnew (hK.new raw token)
    · exact ⟨auth, hauth, htoken⟩

end

namespace Memory

/-- Tokens in a list, the last that was registered first. -/
def validateListed (tokens : List (String × Token)) (raw : String) : Except String Token :=
  match tokens.lookup raw with
  | some token => .ok token
  | none => .error "unknown token"

def tokenCrate : TokenCrate where
  Validator := List (String × Token)
  new := []
  register v raw token := (raw, token) :: v
  validate := validateListed

theorem validateListed_cons {tokens : List (String × Token)} {raw raw' : String}
    {token token' : Token} (h : validateListed ((raw, token) :: tokens) raw' = .ok token') :
    raw' = raw ∧ token' = token ∨ validateListed tokens raw' = .ok token' := by
  by_cases hraw : raw' = raw
  · rw [hraw, validateListed, List.lookup_cons_self] at h
    cases h
    exact Or.inl ⟨hraw, rfl⟩
  · rw [validateListed, List.lookup_cons, beq_eq_false_iff_ne.mpr hraw] at h
    exact Or.inr h

theorem tokenCrate_registers : tokenCrate.Registers where
  new _ _ h := by cases h
  register _ _ _ _ _ := validateListed_cons

end Memory

end Shroudb
