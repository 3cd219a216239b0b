/-
The **zero-trust gateway**: capability tokens, their revocation, and the decision of Gate 1.0.

`evaluate_token` decides about a token in the order the source makes its checks;
`validate_lateral_movement` puts the sharded cache of verdicts in front of it.

Base64, `serde_json`, UTF-8 and Ed25519 come from outside the crate and are parameters, with
nothing assumed of them. Clock readings, and the claims they are compared with, are exact
rationals, and a call reads the clock once. The shards of the revocation map, which only
spread its lock, are one table; those of the token cache, each with its own capacity, are kept.
-/
import Saacp.Errors
import Saacp.Hashes
import Saacp.Json
import Saacp.Table
import Mathlib.Algebra.Order.Ring.Rat
import Mathlib.Logic.Function.Basic

set_option autoImplicit false

open ByteCodec

namespace Saacp

structure Crates where
  base64_decode : List UInt8 → Option (List UInt8)
  json_from_slice : List UInt8 → Option Json
  json_to_string : Json → Text
  is_utf8 : List UInt8 → Bool
  from_utf8_lossy : List UInt8 → Text
  trim_is_empty : Text → Bool
  ed25519_key_ok : List UInt8 → Bool
  ed25519_verify : List UInt8 → List UInt8 → List UInt8 → Bool

def TOKEN_CACHE_MAX : ℕ := 10000
abbrev TOKEN_CACHE_SHARDS : ℕ := 16
def TOKEN_CACHE_PER_SHARD_MAX : ℕ := TOKEN_CACHE_MAX / TOKEN_CACHE_SHARDS
def TOKEN_CACHE_TTL : ℚ := 30
def MAX_TRUSTED_ISSUERS : ℕ := 10000
def REVOKED_TOKENS_MAX : ℕ := 100000
def REVOKED_TOKENS_FALLBACK_TTL : ℚ := 30 * 24 * 3600
def ACSVAF_MAX_DELEGATION_DEPTH : UInt32 := 3

def FNV_OFFSET_BASIS : UInt64 := 0xcbf29ce484222325
def FNV_PRIME : UInt64 := 0x100000001b3

/-- `fnv1a_shard`: every byte is mixed in, then the hash is reduced. -/
def fnv1a_shard (key : Text) (n_shards : ℕ) [NeZero n_shards] : Fin n_shards :=
  Fin.ofNat n_shards
    (key.foldl (fun hash b => (hash ^^^ b.toUInt64) * FNV_PRIME) FNV_OFFSET_BASIS).toNat

/-! ## Tokens -/

structure TokenValidationResult where
  is_valid : Bool
  source_agent : Text
  root_intent_hash : Option Text
  max_action_class : UInt8
  delegation_depth : UInt32
  token_sig_hash : Text

section

variable (H : Hashes)

def sha256_hex (data : List UInt8) : Text := hexText (H.sha256 data)

/-- `hmac_sha256`: a key below 32 bytes is replaced by its hash. -/
def hmac_sha256 (key data : List UInt8) : List UInt8 :=
  H.hmac_sha256 (if key.length < 32 then H.sha256 key else key) data

end

def parse_token_wire (X : Crates) (token_b64 : List UInt8) :
    Result (List UInt8 × List UInt8) :=
  match X.base64_decode token_b64 with
  | none => .error ⟨.LateralMovementBlocked, "Missing or malformed Capability Token."⟩
  | some raw =>
    if raw.length < 4 then
      .error ⟨.LateralMovementBlocked, "Token too short."⟩
    else if ofBE (raw.take 4) = 0 ∨ raw.length - 4 < ofBE (raw.take 4) then
      .error ⟨.LateralMovementBlocked, "Invalid token JSON length."⟩
    else if (raw.drop (4 + ofBE (raw.take 4))).length ≠ 32 ∧
        (raw.drop (4 + ofBE (raw.take 4))).length ≠ 64 then
      .error ⟨.LateralMovementBlocked, "Invalid signature length."⟩
    else
      .ok (slice raw 4 (4 + ofBE (raw.take 4)), raw.drop (4 + ofBE (raw.take 4)))

def parse_claims (X : Crates) (token_json : List UInt8) : Result Json :=
  match X.json_from_slice token_json with
  | none => .error ⟨.LateralMovementBlocked, "Missing or malformed Capability Token."⟩
  | some (.obj fields) => .ok (.obj fields)
  | some _ => .error ⟨.LateralMovementBlocked, "Token payload must be a JSON object."⟩

variable (data : Json)

def claim_str (key : String) : Option Text := (data.get key).bind Json.as_str

def claim_u64 (key : String) : UInt64 := ((data.get key).bind Json.as_u64).getD 0

def claim_agents (key : String) : List Text :=
  ((data.get key).map Json.string_items).getD []

def token_exp : ℚ := (claim_u64 data "exp").toNat

def token_iat : ℚ := (claim_u64 data "iat").toNat

def token_issuer : Text := (claim_str data "iss").getD (ascii "Unknown_Issuer")

def token_sig_alg : Text := (claim_str data "_sig_alg").getD (ascii "hmac-sha256")

/-! ## State -/

structure CacheEntry where
  expiry : ℚ
  result : TokenValidationResult
  generation : UInt64

structure GatewayEpochs where
  strict_asymmetric_mode : Bool
  revocation_epoch : UInt64
  issuer_registry_epoch : UInt64
  blanket_revoked_before : ℚ
  cache_generation : UInt64

/-- `ZeroTrustGateway`. A revoked signature hash is kept with the expiry of its token. -/
structure ZeroTrustGateway where
  revoked_tokens : Table Text ℚ
  token_cache : Fin TOKEN_CACHE_SHARDS → Table Text CacheEntry
  trusted_issuer_keys : Table Text (List UInt8)
  epochs : GatewayEpochs

/-- The Ed25519 keys a gateway can reach, of the authority by key id and of the trust store by
issuer. -/
structure KeySources where
  verification_key : Text → Option (List UInt8)
  pinned_key : Text → Option (List UInt8)

namespace ZeroTrustGateway

def new : ZeroTrustGateway where
  revoked_tokens := .empty
  token_cache _ := .empty
  trusted_issuer_keys := .empty
  epochs :=
    { strict_asymmetric_mode := false
      revocation_epoch := 0
      issuer_registry_epoch := 0
      blanket_revoked_before := 0
      cache_generation := 0 }

variable (gw : ZeroTrustGateway)

def clear_token_cache : ZeroTrustGateway :=
  { gw with token_cache := fun _ => .empty }

def update_epochs (mutate : GatewayEpochs → GatewayEpochs) : ZeroTrustGateway :=
  { gw with
    epochs := mutate { gw.epochs with cache_generation := gw.epochs.cache_generation + 1 } }

def set_strict_asymmetric_mode (enabled : Bool) : ZeroTrustGateway :=
  (gw.update_epochs fun e => { e with strict_asymmetric_mode := enabled }).clear_token_cache

def register_key_source : ZeroTrustGateway :=
  (gw.update_epochs id).clear_token_cache

def register_issuer_key (X : Crates) (gw : ZeroTrustGateway) (issuer_agent : Text)
    (issuer_secret : List UInt8) : ZeroTrustGateway × Result Unit :=
  if X.trim_is_empty issuer_agent then
    (gw, .error ⟨.SchemaMismatch, "register_issuer_key: issuer_agent must be non-empty"⟩)
  else if issuer_agent.contains 0 then
    (gw, .error ⟨.SchemaMismatch, "register_issuer_key: issuer_agent must not contain null bytes"⟩)
  else if issuer_secret.length ≠ 32 then
    (gw, .error ⟨.SchemaMismatch, "register_issuer_key: secret must be exactly 32 bytes, got " ++
      toString issuer_secret.length⟩)
  else if MAX_TRUSTED_ISSUERS ≤ gw.trusted_issuer_keys.len ∧
      gw.trusted_issuer_keys.contains issuer_agent = false then
    (gw, .error ⟨.RgcResourceLimitExceeded, "register_issuer_key: at capacity (" ++
      toString MAX_TRUSTED_ISSUERS ++ " trusted issuers); rejecting new issuer '" ++
      display issuer_agent ++ "'"⟩)
  else
    (({ gw with
        trusted_issuer_keys := gw.trusted_issuer_keys.insert issuer_agent issuer_secret
      }.clear_token_cache).update_epochs fun e =>
        { e with issuer_registry_epoch := e.issuer_registry_epoch + 1 }, .ok ())

def clear_trusted_issuers : ZeroTrustGateway :=
  ({ gw with trusted_issuer_keys := .empty }.clear_token_cache).update_epochs fun e =>
    { e with issuer_registry_epoch := e.issuer_registry_epoch + 1 }

/-! ## Revocation -/

def is_token_revoked (token_sig_hash : Text) : Bool :=
  gw.revoked_tokens.contains token_sig_hash

def prune_expired_revocations (now : ℚ) : ZeroTrustGateway :=
  { gw with revoked_tokens := gw.revoked_tokens.retain fun _ exp => now < exp }

/-- The second half of `enforce_revoked_tokens_cap`: the entries that expire first go. -/
def evict_revocations : ZeroTrustGateway :=
  { gw with
    revoked_tokens := gw.revoked_tokens.removeAll <|
      ((gw.revoked_tokens.entries.mergeSort fun a b => a.2 ≤ b.2).take
        (gw.revoked_tokens.len - REVOKED_TOKENS_MAX)).map Prod.fst }

def enforce_revoked_tokens_cap (now : ℚ) : ZeroTrustGateway :=
  if gw.revoked_tokens.len ≤ REVOKED_TOKENS_MAX then gw
  else if (gw.prune_expired_revocations now).revoked_tokens.len ≤ REVOKED_TOKENS_MAX then
    gw.prune_expired_revocations now
  else (gw.prune_expired_revocations now).evict_revocations

def revocation_deadline (X : Crates) (token_json : List UInt8) (now : ℚ) : ℚ :=
  (((X.json_from_slice token_json).bind (·.get "exp")).bind Json.as_rat).getD
    (now + REVOKED_TOKENS_FALLBACK_TTL)

/-- `revoke_token`. A parsed token has a signature, so its check for one never fires. -/
def revoke_token (H : Hashes) (X : Crates) (gw : ZeroTrustGateway) (token_b64 : List UInt8)
    (now : ℚ) : ZeroTrustGateway × Except String Unit :=
  match parse_token_wire X token_b64 with
  | .error e => (gw, .error ("Token revocation failed: " ++ e.message))
  | .ok (token_json, signature) =>
    if signature.isEmpty then (gw, .error "Token has no signature to revoke.")
    else
      ((({ gw with
          revoked_tokens := gw.revoked_tokens.insert (sha256_hex H signature)
            (revocation_deadline X token_json now)
        }.enforce_revoked_tokens_cap now).clear_token_cache).update_epochs fun e =>
          { e with revocation_epoch := e.revocation_epoch + 1 }, .ok ())

def revoke_all_tokens (now : ℚ) : ZeroTrustGateway :=
  { gw.clear_token_cache with trusted_issuer_keys := .empty }.update_epochs fun e =>
    { e with
      blanket_revoked_before := now.floor
      revocation_epoch := e.revocation_epoch + 1
      issuer_registry_epoch := e.issuer_registry_epoch + 1 }

/-! ## The checks of Gate 1.0 -/

def check_revocation (sig_hash : Text) : Result Unit :=
  if gw.is_token_revoked sig_hash then
    .error ⟨.LateralMovementBlocked, "Capability Token has been REVOKED."⟩
  else .ok ()

/-- The registered key of the issuer, or the caller's secret while no issuer is registered at all.
-/
def verify_hmac (H : Hashes) (gw : ZeroTrustGateway) (data : Json)
    (token_json signature issuer_secret : List UInt8) : Result Unit :=
  let trusted_secret := gw.trusted_issuer_keys.get (token_issuer data)
  -- with a single issuer registered, the caller's secret no longer counts
  if gw.trusted_issuer_keys.len ≠ 0 ∧ trusted_secret = none then
    .error ⟨.InvalidSignature, "Capability Token issuer is not trusted."⟩
  else if gw.trusted_issuer_keys.len = 0 ∧ issuer_secret.length < 32 then
    .error ⟨.InvalidSignature,
      "HMAC fallback requires at least a 32-byte issuer_secret when no registry is configured."⟩
  else if hmac_sha256 H (trusted_secret.getD issuer_secret) token_json ≠ signature then
    .error ⟨.InvalidSignature, "Capability Token has been tampered with!"⟩
  else .ok ()

def verify_ed25519_signature_inner (X : Crates) (token_json signature pub_key : List UInt8) :
    Result Unit :=
  if pub_key.length ≠ 32 then
    .error ⟨.InvalidSignature, "Ed25519 public key must be 32 bytes"⟩
  else if signature.length ≠ 64 then
    .error ⟨.InvalidSignature, "Ed25519 signature must be 64 bytes"⟩
  else if X.ed25519_key_ok pub_key = false then
    .error ⟨.InvalidSignature, "Invalid Ed25519 public key bytes"⟩
  else if X.ed25519_verify pub_key token_json signature = false then
    .error ⟨.InvalidSignature, "Ed25519 signature verification failed"⟩
  else .ok ()

/-- The Ed25519 path: the key the token names, or the pinned key of its issuer. -/
def verify_ed25519 (X : Crates) (keys : KeySources) (data : Json)
    (token_json signature : List UInt8) : Result Unit :=
  match claim_str data "kid" with
  | none =>
    .error ⟨.InvalidSignature, "Ed25519 capability token is missing its 'kid' claim."⟩
  | some kid =>
    match (keys.verification_key kid).or (keys.pinned_key (token_issuer data)) with
    | none =>
      .error ⟨.AcsvafKeyNotTrusted, "Ed25519 capability token kid '" ++ display kid ++
        "' (issuer '" ++ display (token_issuer data) ++ "') is not a trusted key in either the " ++
        "CapabilityVerificationAuthority or the FAITF TrustStore. Register one via " ++
        "register_capability_authority / register_trust_store (fail-closed)."⟩
    | some vk => verify_ed25519_signature_inner X token_json signature vk

def verify_signature (H : Hashes) (X : Crates) (gw : ZeroTrustGateway) (keys : KeySources)
    (data : Json) (token_json signature issuer_secret : List UInt8) :
    Result Unit :=
  if gw.epochs.strict_asymmetric_mode ∧ token_sig_alg data ≠ ascii "ed25519" then
    .error ⟨.InvalidSignature, "HMAC-PSK tokens are rejected in strict asymmetric mode."⟩
  else if token_sig_alg data ≠ ascii "ed25519" then
    verify_hmac H gw data token_json signature issuer_secret
  else verify_ed25519 X keys data token_json signature

def recalls (data : Json) : Bool :=
  0 < gw.epochs.blanket_revoked_before && token_iat data < gw.epochs.blanket_revoked_before

def check_blanket (data : Json) : Result Unit :=
  if gw.recalls data then
    .error ⟨.LateralMovementBlocked,
      "Capability Token was issued before the most recent PSK compromise revocation."⟩
  else .ok ()

end ZeroTrustGateway

def check_expiry (now : ℚ) (data : Json) : Result Unit :=
  if token_exp data < now then .error ⟨.TokenExpired, "Capability Token EXPIRED."⟩ else .ok ()

/-- The rule on self-issued tokens never fires: the target has just been found on the allowed list.
-/
def check_scope (target_agent : Text) (data : Json) : Result Unit :=
  if (claim_agents data "forbid").contains target_agent then
    .error ⟨.LateralMovementBlocked,
      "Strictly forbidden from calling " ++ display target_agent ++ "."⟩
  else if (claim_agents data "allow").contains target_agent = false then
    .error ⟨.ScopeViolation, "Scope violation: '" ++ display target_agent ++
      "' is not in the allowed scope list."⟩
  else if token_issuer data = target_agent ∧
      (claim_agents data "allow").contains (token_issuer data) = false then
    .error ⟨.SelfIssuedCapability, "Self-issued lateral movement rejected: '" ++
      display (token_issuer data) ++ "' cannot authorize itself."⟩
  else .ok ()

def max_action_class_claim : Result UInt8 :=
  if 255 < (claim_u64 data "max_action_class").toNat then
    .error ⟨.SchemaMismatch, "max_action_class value " ++
      toString (claim_u64 data "max_action_class").toNat ++ " exceeds valid range 0–255"⟩
  else .ok (claim_u64 data "max_action_class").toUInt8

def delegation_depth_claim : Result UInt32 :=
  match data.get "delegation_depth" with
  | none => .ok 0
  | some v =>
    match v.as_u64 with
    | none =>
      .error ⟨.DelegationRejected, "delegation_depth claim present but not a non-negative integer."⟩
    | some raw =>
      if 2 ^ 32 ≤ raw.toNat then
        .error ⟨.DelegationRejected,
          "delegation_depth value " ++ toString raw.toNat ++ " exceeds valid u32 range."⟩
      else if ACSVAF_MAX_DELEGATION_DEPTH < raw.toUInt32 then
        .error ⟨.DelegationRejected, "delegation_depth " ++ toString raw.toNat ++
          " exceeds max " ++ toString ACSVAF_MAX_DELEGATION_DEPTH.toNat ++
          " on the live capability-token path."⟩
      else .ok raw.toUInt32

/-- The alias `thash` counts only when `root_intent_hash` is absent. -/
def root_intent_claim : Option Text :=
  ((data.get "root_intent_hash").or (data.get "thash")).bind Json.as_str

namespace ZeroTrustGateway

def evaluate_token (H : Hashes) (X : Crates) (gw : ZeroTrustGateway) (keys : KeySources)
    (target_agent : Text) (token_b64 issuer_secret : List UInt8) (now : ℚ) :
    Result (TokenValidationResult × ℚ) := do
  let (token_json, signature) ← parse_token_wire X token_b64
  let data ← parse_claims X token_json
  gw.check_revocation (sha256_hex H signature)
  gw.verify_signature H X keys data token_json signature issuer_secret
  -- only now are the claims those of the issuer
  gw.check_blanket data
  check_expiry now data
  check_scope target_agent data
  let max_action_class ← max_action_class_claim data
  let delegation_depth ← delegation_depth_claim data
  return ({ is_valid := true
            source_agent := token_issuer data
            root_intent_hash := root_intent_claim data
            max_action_class
            delegation_depth
            token_sig_hash := sha256_hex H signature }, token_exp data)

/-! ## The cache of verdicts -/

def cache_key (H : Hashes) (gw : ZeroTrustGateway) (target_agent : Text)
    (token_b64 issuer_secret : List UInt8) : Text :=
  target_agent ++ 58 :: (sha256_hex H token_b64 ++ 58 :: (sha256_hex H issuer_secret ++
    58 :: (Json.decimal gw.epochs.issuer_registry_epoch.toNat ++
      58 :: Json.decimal gw.epochs.revocation_epoch.toNat)))

def token_cache_shard (key : Text) : Fin TOKEN_CACHE_SHARDS := fnv1a_shard key TOKEN_CACHE_SHARDS

def cached (gw : ZeroTrustGateway) (key : Text) (now : ℚ) : Option TokenValidationResult :=
  match (gw.token_cache (token_cache_shard key)).get key with
  | some entry =>
    if now < entry.expiry ∧ entry.generation = gw.epochs.cache_generation then some entry.result
    else none
  | none => none

/-- The second pass of the eviction: a fifth of the capacity goes, soonest to expire first. -/
def evict_soonest (cache : Table Text CacheEntry) : Table Text CacheEntry :=
  cache.removeAll <| ((cache.entries.mergeSort fun a b => a.2.expiry ≤ b.2.expiry).take
      (TOKEN_CACHE_PER_SHARD_MAX / 5)).map Prod.fst

def make_room (cache : Table Text CacheEntry) (now : ℚ) (generation : UInt64) :
    Table Text CacheEntry :=
  if cache.len < TOKEN_CACHE_PER_SHARD_MAX then cache
  else
    -- first whatever could not be served any more
    let live := cache.retain fun _ entry => now < entry.expiry && entry.generation == generation
    if live.len < TOKEN_CACHE_PER_SHARD_MAX then live else evict_soonest live

def store_verdict (gw : ZeroTrustGateway) (key : Text) (result : TokenValidationResult)
    (exp now : ℚ) : ZeroTrustGateway :=
  { gw with
    token_cache := Function.update gw.token_cache (token_cache_shard key) <|
      (make_room (gw.token_cache (token_cache_shard key)) now gw.epochs.cache_generation).insert
        key ⟨min (now + TOKEN_CACHE_TTL) exp, result, gw.epochs.cache_generation⟩ }

def validate_lateral_movement (H : Hashes) (X : Crates) (gw : ZeroTrustGateway)
    (keys : KeySources) (target_agent : Text) (token_b64 issuer_secret : List UInt8) (now : ℚ) :
    ZeroTrustGateway × Result TokenValidationResult :=
  match gw.cached (gw.cache_key H target_agent token_b64 issuer_secret) now with
  | some result => (gw, .ok result)
  | none =>
    match gw.evaluate_token H X keys target_agent token_b64 issuer_secret now with
    | .error e => (gw, .error e) -- refusals are not cached
    | .ok (result, exp) =>
      (gw.store_verdict (gw.cache_key H target_agent token_b64 issuer_secret) result exp now,
        .ok result)

end ZeroTrustGateway

end Saacp
