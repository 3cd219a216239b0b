/-
The **gateway under concurrent callers**: its operations as programs of atomic sections.

A section is one lock scope of the source or one load or store of an `ArcSwap`. `update_epochs` is
one section, since the lock around it keeps every other writer out. The clock is read by sections of
its own and moves on between any two of them. Key stores are shared handles that outlive their
registration, so a gateway holds the number of a store.

The sequential functions of `Gateway` are these programs run alone: `prog_run`. One thing is left
open there, which of several revocations with the same expiry are evicted above the cap.
-/
import Saacp.Atomic
import Saacp.GatewaySpecs
import Saacp.KeyStores
import Mathlib.Algebra.BigOperators.Fin

set_option autoImplicit false

open ByteCodec Atomic

namespace Saacp

abbrev REVOKED_TOKENS_SHARDS : ℕ := 16

def revoked_token_shard_index (sig_hash : Text) : Fin REVOKED_TOKENS_SHARDS :=
  fnv1a_shard sig_hash REVOKED_TOKENS_SHARDS

/-! ## What is shared -/

/-- A gateway, the key stores registered with it, all key stores there are, and the clock. -/
structure SharedGateway where
  gateway : ZeroTrustGateway
  capability_authority : Option ℕ
  trust_store : Option ℕ
  authorities : ℕ → CapabilityVerificationAuthority
  trust_stores : ℕ → TrustStore
  clock : ℚ

namespace SharedGateway

def new (clock : ℚ) : SharedGateway where
  gateway := .new
  capability_authority := none
  trust_store := none
  authorities _ := .new
  trust_stores _ := .new
  clock := clock

def keys (s : SharedGateway) : KeySources where
  verification_key kid :=
    s.capability_authority.bind fun ca => (s.authorities ca).get_verification_key kid
  pinned_key issuer := s.trust_store.bind fun ts => (s.trust_stores ts).get_pinned_key issuer

def advance (now : ℚ) (s : SharedGateway) : SharedGateway := { s with clock := max s.clock now }

end SharedGateway

/-! ## Sections -/

inductive GatewaySection : Type → Type
  | now : GatewaySection ℚ
  | load_epochs : GatewaySection GatewayEpochs
  | publish (mutate : GatewayEpochs → GatewayEpochs) : GatewaySection GatewayEpochs
  | cache_get (key : Text) : GatewaySection (Option CacheEntry)
  | cache_insert (key : Text) (entry : CacheEntry) : GatewaySection Unit
  | cache_clear (shard : Fin TOKEN_CACHE_SHARDS) : GatewaySection Unit
  | is_revoked (sig_hash : Text) : GatewaySection Bool
  | revoke (sig_hash : Text) (exp : ℚ) : GatewaySection Unit
  | revoked_len (shard : Fin REVOKED_TOKENS_SHARDS) : GatewaySection ℕ
  | revoked_prune (shard : Fin REVOKED_TOKENS_SHARDS) (now : ℚ) : GatewaySection ℕ
  | revoked_entries (shard : Fin REVOKED_TOKENS_SHARDS) : GatewaySection (List (Text × ℚ))
  | revoked_remove (sig_hash : Text) : GatewaySection Unit
  | issuer_key (issuer : Text) : GatewaySection (Bool × Option (List UInt8))
  | issuer_insert (issuer_agent : Text) (issuer_secret : List UInt8) :
      GatewaySection (Result Unit)
  | issuers_clear : GatewaySection Unit
  | load_authority : GatewaySection (Option ℕ)
  | store_authority (ca : ℕ) : GatewaySection Unit
  | get_verification_key (ca : ℕ) (kid : Text) : GatewaySection (Option (List UInt8))
  | register_key (ca : ℕ) (kid : Text) (key : List UInt8) : GatewaySection Unit
  | revoke_trusted_key (ca : ℕ) (kid : Text) : GatewaySection Unit
  | load_trust_store : GatewaySection (Option ℕ)
  | store_trust_store (ts : ℕ) : GatewaySection Unit
  | get_pinned_key (ts : ℕ) (agent_id : Text) : GatewaySection (Option (List UInt8))
  | pin_identity (ts : ℕ) (agent_id : Text) (key : List UInt8) : GatewaySection Unit

namespace SharedGateway

variable (s : SharedGateway)

def onGateway (f : ZeroTrustGateway → ZeroTrustGateway) : SharedGateway :=
  { s with gateway := f s.gateway }

def clear_shard (shard : Fin TOKEN_CACHE_SHARDS) : SharedGateway :=
  s.onGateway fun gw => { gw with token_cache := Function.update gw.token_cache shard .empty }

def revoked_shard (shard : Fin REVOKED_TOKENS_SHARDS) : List (Text × ℚ) :=
  s.gateway.revoked_tokens.entries.filter fun e => revoked_token_shard_index e.1 == shard

def prune_shard (shard : Fin REVOKED_TOKENS_SHARDS) (now : ℚ) : SharedGateway :=
  s.onGateway fun gw => { gw with
    revoked_tokens := gw.revoked_tokens.retain fun hash exp =>
      revoked_token_shard_index hash != shard || now < exp }

/-- The clock is read inside the lock, if room has to be made. -/
def insert_verdict (key : Text) (entry : CacheEntry) : SharedGateway :=
  s.onGateway fun gw => { gw with
    token_cache := Function.update gw.token_cache (ZeroTrustGateway.token_cache_shard key) <|
      (ZeroTrustGateway.make_room (gw.token_cache (ZeroTrustGateway.token_cache_shard key))
        s.clock entry.generation).insert key entry }

def insert_issuer (issuer_agent : Text) (issuer_secret : List UInt8) :
    SharedGateway × Result Unit :=
  if MAX_TRUSTED_ISSUERS ≤ s.gateway.trusted_issuer_keys.len ∧
      s.gateway.trusted_issuer_keys.contains issuer_agent = false then
    (s, .error ⟨.RgcResourceLimitExceeded, "register_issuer_key: at capacity (" ++
      toString MAX_TRUSTED_ISSUERS ++ " trusted issuers); rejecting new issuer '" ++
      display issuer_agent ++ "'"⟩)
  else
    (s.onGateway fun gw => { gw with
      trusted_issuer_keys := gw.trusted_issuer_keys.insert issuer_agent issuer_secret }, .ok ())

end SharedGateway

def SharedGateway.exec (H : Hashes) (s : SharedGateway) {β : Type} (act : GatewaySection β) :
    SharedGateway × β :=
  match act with
  | .now => (s, s.clock)
  | .load_epochs => (s, s.gateway.epochs)
  | .publish mutate =>
    (s.onGateway (·.update_epochs mutate), (s.gateway.update_epochs mutate).epochs)
  | .cache_get key =>
    (s, (s.gateway.token_cache (ZeroTrustGateway.token_cache_shard key)).get key)
  | .cache_insert key entry => (s.insert_verdict key entry, ())
  | .cache_clear shard => (s.clear_shard shard, ())
  | .is_revoked sig_hash => (s, s.gateway.is_token_revoked sig_hash)
  | .revoke sig_hash exp =>
    (s.onGateway fun gw => { gw with
      revoked_tokens := gw.revoked_tokens.insert sig_hash exp }, ())
  | .revoked_len shard => (s, (s.revoked_shard shard).length)
  | .revoked_prune shard now =>
    (s.prune_shard shard now,
      (s.revoked_shard shard).length - ((s.prune_shard shard now).revoked_shard shard).length)
  | .revoked_entries shard => (s, s.revoked_shard shard)
  | .revoked_remove sig_hash =>
    (s.onGateway fun gw => { gw with
      revoked_tokens := gw.revoked_tokens.remove sig_hash }, ())
  | .issuer_key issuer =>
    (s, s.gateway.trusted_issuer_keys.len ≠ 0, s.gateway.trusted_issuer_keys.get issuer)
  | .issuer_insert issuer_agent secret => s.insert_issuer issuer_agent secret
  | .issuers_clear => (s.onGateway fun gw => { gw with trusted_issuer_keys := .empty }, ())
  | .load_authority => (s, s.capability_authority)
  | .store_authority ca => ({ s with capability_authority := some ca }, ())
  | .get_verification_key ca kid => (s, (s.authorities ca).get_verification_key kid)
  | .register_key ca kid key =>
    ({ s with authorities :=
      Function.update s.authorities ca ((s.authorities ca).register_key kid key) }, ())
  | .revoke_trusted_key ca kid =>
    ({ s with authorities :=
      Function.update s.authorities ca ((s.authorities ca).revoke_trusted_key kid) }, ())
  | .load_trust_store => (s, s.trust_store)
  | .store_trust_store ts => ({ s with trust_store := some ts }, ())
  | .get_pinned_key ts agent_id => (s, (s.trust_stores ts).get_pinned_key agent_id)
  | .pin_identity ts agent_id key =>
    ({ s with trust_stores :=
      Function.update s.trust_stores ts ((s.trust_stores ts).pin_identity H agent_id key) }, ())

def gateway_sections (H : Hashes) : Semantics GatewaySection Unit SharedGateway where
  exec _ _ act _ s := s.exec H act

@[simp] theorem gateway_sections_exec (H : Hashes) (tid : ℕ) {β : Type} (act : GatewaySection β)
    (inp : Unit) (s : SharedGateway) : (gateway_sections H).exec tid act inp s = s.exec H act := rfl

/-! ## Operations -/

def each_shard {β : Type} {n : ℕ} (act : Fin n → GatewaySection β) : Prog GatewaySection (List β) :=
  Prog.each act (List.finRange n)

def clear_token_cache : Prog GatewaySection Unit :=
  (each_shard fun shard : Fin TOKEN_CACHE_SHARDS => .cache_clear shard).map fun _ => ()

def update_epochs (mutate : GatewayEpochs → GatewayEpochs) : Prog GatewaySection GatewayEpochs :=
  .step (.publish mutate) .ret

def set_strict_asymmetric_mode (enabled : Bool) : Prog GatewaySection Unit :=
  (update_epochs fun e => { e with strict_asymmetric_mode := enabled }).bind fun _ =>
    clear_token_cache

def register_trust_store (ts : ℕ) : Prog GatewaySection Unit :=
  .step (.store_trust_store ts) fun _ => (update_epochs id).bind fun _ => clear_token_cache

def register_capability_authority (ca : ℕ) : Prog GatewaySection Unit :=
  .step (.store_authority ca) fun _ => (update_epochs id).bind fun _ => clear_token_cache

def check_issuer (X : Crates) (issuer_agent : Text) (issuer_secret : List UInt8) :
    Result Unit :=
  if X.trim_is_empty issuer_agent then
    .error ⟨.SchemaMismatch, "register_issuer_key: issuer_agent must be non-empty"⟩
  else if issuer_agent.contains 0 then
    .error ⟨.SchemaMismatch, "register_issuer_key: issuer_agent must not contain null bytes"⟩
  else if issuer_secret.length ≠ 32 then
    .error ⟨.SchemaMismatch, "register_issuer_key: secret must be exactly 32 bytes, got " ++
      toString issuer_secret.length⟩
  else .ok ()

/-- After a change of the registry: the cache is emptied, then the registry epoch moves on. -/
def publish_registry : Prog GatewaySection Unit :=
  clear_token_cache.bind fun _ =>
    (update_epochs fun e =>
      { e with issuer_registry_epoch := e.issuer_registry_epoch + 1 }).map fun _ => ()

def register_issuer_key (X : Crates) (issuer_agent : Text) (issuer_secret : List UInt8) :
    Prog GatewaySection (Result Unit) :=
  (Prog.ret (check_issuer X issuer_agent issuer_secret)).andThen fun _ =>
    (Prog.step (.issuer_insert issuer_agent issuer_secret) .ret).andThen fun _ =>
      publish_registry.map fun _ => .ok ()

def clear_trusted_issuers : Prog GatewaySection Unit :=
  .step .issuers_clear fun _ => publish_registry

def revoked_tokens_len : Prog GatewaySection ℕ :=
  (each_shard fun shard : Fin REVOKED_TOKENS_SHARDS => .revoked_len shard).map List.sum

def prune_expired_revocations : Prog GatewaySection ℕ :=
  .step .now fun now =>
    (each_shard fun shard : Fin REVOKED_TOKENS_SHARDS => .revoked_prune shard now).map List.sum

def soonest_revocations (all : List (Text × ℚ)) (total : ℕ) : List Text :=
  ((all.mergeSort fun a b => a.2 ≤ b.2).take (total - REVOKED_TOKENS_MAX)).map Prod.fst

def enforce_revoked_tokens_cap : Prog GatewaySection Unit :=
  revoked_tokens_len.bind fun before =>
    if before ≤ REVOKED_TOKENS_MAX then .ret ()
    else
      prune_expired_revocations.bind fun _ =>
        revoked_tokens_len.bind fun total =>
          if total ≤ REVOKED_TOKENS_MAX then .ret ()
          else
            (each_shard fun shard : Fin REVOKED_TOKENS_SHARDS => .revoked_entries shard).bind
              fun shards =>
                (Prog.each .revoked_remove (soonest_revocations shards.flatten total)).map
                  fun _ => ()

/-- The expiry of a revocation entry. The clock is read only for a token without one. -/
def revocation_expiry (X : Crates) (token_json : List UInt8) : Prog GatewaySection ℚ :=
  match ((X.json_from_slice token_json).bind (·.get "exp")).bind Json.as_rat with
  | some exp => .ret exp
  | none => .step .now fun now => .ret (now + REVOKED_TOKENS_FALLBACK_TTL)

def parse_revoked (H : Hashes) (X : Crates) (token_b64 : List UInt8) :
    Except String (List UInt8 × Text) :=
  match parse_token_wire X token_b64 with
  | .error e => .error ("Token revocation failed: " ++ e.message)
  | .ok (token_json, signature) =>
    if signature.isEmpty then .error "Token has no signature to revoke."
    else .ok (token_json, sha256_hex H signature)

def revoke_token (H : Hashes) (X : Crates) (token_b64 : List UInt8) :
    Prog GatewaySection (Except String Unit) :=
  (Prog.ret (parse_revoked H X token_b64)).andThen fun parsed =>
    (revocation_expiry X parsed.1).bind fun exp =>
      .step (.revoke parsed.2 exp) fun _ =>
        enforce_revoked_tokens_cap.bind fun _ =>
          clear_token_cache.bind fun _ =>
            (update_epochs fun e => { e with revocation_epoch := e.revocation_epoch + 1 }).map
              fun _ => .ok ()

def revoke_all_tokens : Prog GatewaySection UInt64 :=
  .step .now fun now =>
    clear_token_cache.bind fun _ =>
      .step .issuers_clear fun _ =>
        (update_epochs fun e =>
          { e with
            blanket_revoked_before := now.floor
            revocation_epoch := e.revocation_epoch + 1
            issuer_registry_epoch := e.issuer_registry_epoch + 1 }).map (·.revocation_epoch)

/-! ## Validation -/

/-- A gateway of which only the epochs are known: the snapshot of a validation. -/
def GatewayEpochs.snapshot (epochs : GatewayEpochs) : ZeroTrustGateway :=
  { ZeroTrustGateway.new with epochs }

/-- An entry of the generation that was loaded, that has not expired. -/
def GatewayEpochs.served (epochs : GatewayEpochs) (now : ℚ) (entry : Option CacheEntry) :
    Option TokenValidationResult :=
  match entry with
  | some entry =>
    if now < entry.expiry ∧ entry.generation = epochs.cache_generation then some entry.result
    else none
  | none => none

def parse_token (X : Crates) (token_b64 : List UInt8) :
    Result (List UInt8 × List UInt8 × Json) := do
  let (token_json, signature) ← parse_token_wire X token_b64
  let data ← parse_claims X token_json
  return (token_json, signature, data)

def verify_hmac_with (H : Hashes) (has_registry : Bool) (trusted_secret : Option (List UInt8))
    (token_json signature issuer_secret : List UInt8) : Result Unit :=
  if has_registry ∧ trusted_secret = none then
    .error ⟨.InvalidSignature, "Capability Token issuer is not trusted."⟩
  else if has_registry = false ∧ issuer_secret.length < 32 then
    .error ⟨.InvalidSignature,
      "HMAC fallback requires at least a 32-byte issuer_secret when no registry is configured."⟩
  else if hmac_sha256 H (trusted_secret.getD issuer_secret) token_json ≠ signature then
    .error ⟨.InvalidSignature, "Capability Token has been tampered with!"⟩
  else .ok ()

def authority_key (kid : Text) (ca : Option ℕ) : Prog GatewaySection (Option (List UInt8)) :=
  match ca with
  | none => .ret none
  | some ca => .step (.get_verification_key ca kid) .ret

def pinned_key (agent_id : Text) (ts : Option ℕ) : Prog GatewaySection (Option (List UInt8)) :=
  match ts with
  | none => .ret none
  | some ts => .step (.get_pinned_key ts agent_id) .ret

/-- The trust store is asked only when the authority has no key. -/
def read_keys (data : Json) : Prog GatewaySection KeySources :=
  match claim_str data "kid" with
  | none => .ret ⟨fun _ => none, fun _ => none⟩
  | some kid =>
    (Prog.step .load_authority (authority_key kid)).bind fun ca_key =>
      match ca_key with
      | some vk => .ret ⟨fun _ => some vk, fun _ => none⟩
      | none =>
        (Prog.step .load_trust_store (pinned_key (token_issuer data))).map fun ts_key =>
          ⟨fun _ => none, fun _ => ts_key⟩

def verify_signature (H : Hashes) (X : Crates) (epochs : GatewayEpochs) (data : Json)
    (token_json signature issuer_secret : List UInt8) :
    Prog GatewaySection (Result Unit) :=
  if epochs.strict_asymmetric_mode ∧ token_sig_alg data ≠ ascii "ed25519" then
    .ret (.error ⟨.InvalidSignature, "HMAC-PSK tokens are rejected in strict asymmetric mode."⟩)
  else if token_sig_alg data ≠ ascii "ed25519" then
    .step (.issuer_key (token_issuer data)) fun registry =>
      .ret (verify_hmac_with H registry.1 registry.2 token_json signature issuer_secret)
  else
    (read_keys data).map fun keys =>
      ZeroTrustGateway.verify_ed25519 X keys data token_json signature

def claims_verdict (target_agent : Text) (data : Json) (token_sig_hash : Text) :
    Result (TokenValidationResult × ℚ) := do
  check_scope target_agent data
  let max_action_class ← max_action_class_claim data
  let delegation_depth ← delegation_depth_claim data
  return ({ is_valid := true
            source_agent := token_issuer data
            root_intent_hash := root_intent_claim data
            max_action_class
            delegation_depth
            token_sig_hash }, token_exp data)

def evaluate_token (H : Hashes) (X : Crates) (epochs : GatewayEpochs) (target_agent : Text)
    (token_b64 issuer_secret : List UInt8) :
    Prog GatewaySection (Result (TokenValidationResult × ℚ)) :=
  (Prog.ret (parse_token X token_b64)).andThen fun (token_json, signature, data) =>
    (Prog.step (.is_revoked (sha256_hex H signature)) fun revoked => .ret <|
      if revoked then
        .error ⟨.LateralMovementBlocked, "Capability Token has been REVOKED."⟩
      else .ok ()).andThen fun _ =>
    (verify_signature H X epochs data token_json signature issuer_secret).andThen fun _ =>
    (Prog.ret (epochs.snapshot.check_blanket data)).andThen fun _ =>
    (Prog.step .now fun now => .ret (check_expiry now data)).andThen fun _ =>
    .ret (claims_verdict target_agent data (sha256_hex H signature))

/-- A verdict is kept for the cache's own time, and never past the expiry of its token. -/
def keep_verdict (cache_key : Text) (generation : UInt64) (verdict : TokenValidationResult × ℚ) :
    Prog GatewaySection (Result TokenValidationResult) :=
  .step .now fun now =>
    .step (.cache_insert cache_key ⟨min (now + TOKEN_CACHE_TTL) verdict.2, verdict.1, generation⟩)
      fun _ => .ret (.ok verdict.1)

/-- A validation after the lookup: it is answered out of the cache, or evaluates the token. -/
def finish_validation (H : Hashes) (X : Crates) (epochs : GatewayEpochs) (cache_key : Text)
    (served : Option TokenValidationResult) (target_agent : Text)
    (token_b64 issuer_secret : List UInt8) :
    Prog GatewaySection (Result TokenValidationResult) :=
  match served with
  | some result => .ret (.ok result)
  | none =>
    (evaluate_token H X epochs target_agent token_b64 issuer_secret).andThen
      (keep_verdict cache_key epochs.cache_generation)

def validate_lateral_movement (H : Hashes) (X : Crates) (target_agent : Text)
    (token_b64 issuer_secret : List UInt8) :
    Prog GatewaySection (Result TokenValidationResult) :=
  .step .now fun now =>
    .step .load_epochs fun epochs =>
      let cache_key := epochs.snapshot.cache_key H target_agent token_b64 issuer_secret
      .step (.cache_get cache_key) fun entry =>
        finish_validation H X epochs cache_key (epochs.served now entry) target_agent token_b64
          issuer_secret

/-! ## Calls -/

inductive GatewayCall
  | validate_lateral_movement (target_agent : Text) (token_b64 issuer_secret : List UInt8)
  | revoke_token (token_b64 : List UInt8)
  | prune_expired_revocations
  | revoke_all_tokens
  | register_issuer_key (issuer_agent : Text) (issuer_secret : List UInt8)
  | clear_trusted_issuers
  | set_strict_asymmetric_mode (enabled : Bool)
  | register_trust_store (ts : ℕ)
  | register_capability_authority (ca : ℕ)
  | register_key (ca : ℕ) (kid : Text) (key : List UInt8)
  | revoke_trusted_key (ca : ℕ) (kid : Text)
  | pin_identity (ts : ℕ) (agent_id : Text) (key : List UInt8)

inductive GatewayAnswer
  | verdict (r : Result TokenValidationResult)
  | revoked (r : Except String Unit)
  | pruned (n : ℕ)
  | epoch (e : UInt64)
  | registered (r : Result Unit)
  | done

namespace GatewayCall

variable (H : Hashes) (X : Crates)

def prog : GatewayCall → Prog GatewaySection GatewayAnswer
  | validate_lateral_movement target_agent token secret =>
    (Saacp.validate_lateral_movement H X target_agent token secret).map .verdict
  | revoke_token token => (Saacp.revoke_token H X token).map .revoked
  | prune_expired_revocations => Saacp.prune_expired_revocations.map .pruned
  | revoke_all_tokens => Saacp.revoke_all_tokens.map .epoch
  | register_issuer_key issuer_agent secret =>
    (Saacp.register_issuer_key X issuer_agent secret).map .registered
  | clear_trusted_issuers => Saacp.clear_trusted_issuers.map fun _ => .done
  | set_strict_asymmetric_mode enabled =>
    (Saacp.set_strict_asymmetric_mode enabled).map fun _ => .done
  | register_trust_store ts => (Saacp.register_trust_store ts).map fun _ => .done
  | register_capability_authority ca => (Saacp.register_capability_authority ca).map fun _ => .done
  | register_key ca kid key => (Prog.step (.register_key ca kid key) .ret).map fun _ => .done
  | revoke_trusted_key ca kid => (Prog.step (.revoke_trusted_key ca kid) .ret).map fun _ => .done
  | pin_identity ts agent_id key =>
    (Prog.step (.pin_identity ts agent_id key) .ret).map fun _ => .done

def apply : GatewayCall → SharedGateway → SharedGateway × GatewayAnswer
  | validate_lateral_movement target_agent token secret, s =>
    let r := s.gateway.validate_lateral_movement H X s.keys target_agent token secret
      s.clock
    ({ s with gateway := r.1 }, .verdict r.2)
  | revoke_token token, s =>
    let r := s.gateway.revoke_token H X token s.clock
    ({ s with gateway := r.1 }, .revoked r.2)
  | prune_expired_revocations, s =>
    let gw := s.gateway.prune_expired_revocations s.clock
    ({ s with gateway := gw }, .pruned (s.gateway.revoked_tokens.len - gw.revoked_tokens.len))
  | revoke_all_tokens, s =>
    let gw := s.gateway.revoke_all_tokens s.clock
    ({ s with gateway := gw }, .epoch gw.epochs.revocation_epoch)
  | register_issuer_key issuer_agent secret, s =>
    let r := s.gateway.register_issuer_key X issuer_agent secret
    ({ s with gateway := r.1 }, .registered r.2)
  | clear_trusted_issuers, s => ({ s with gateway := s.gateway.clear_trusted_issuers }, .done)
  | set_strict_asymmetric_mode enabled, s =>
    ({ s with gateway := s.gateway.set_strict_asymmetric_mode enabled }, .done)
  | register_trust_store ts, s =>
    ({ s with gateway := s.gateway.register_key_source, trust_store := some ts }, .done)
  | register_capability_authority ca, s =>
    ({ s with gateway := s.gateway.register_key_source, capability_authority := some ca }, .done)
  | register_key ca kid key, s =>
    ({ s with authorities :=
      Function.update s.authorities ca ((s.authorities ca).register_key kid key) }, .done)
  | revoke_trusted_key ca kid, s =>
    ({ s with authorities :=
      Function.update s.authorities ca ((s.authorities ca).revoke_trusted_key kid) }, .done)
  | pin_identity ts agent_id key, s =>
    ({ s with trust_stores :=
      Function.update s.trust_stores ts ((s.trust_stores ts).pin_identity H agent_id key) }, .done)

end GatewayCall

/-! ## Calls that run alone -/

section Alone

open SharedGateway List
open Prog (run_bind run_step run_ret run_map run_andThen run_each_state run_each_answers)

variable {H : Hashes} {X : Crates}

theorem foldl_clear_shard (l : List (Fin TOKEN_CACHE_SHARDS)) (s : SharedGateway) :
    l.foldl clear_shard s = s.onGateway fun gw => { gw with
      token_cache := fun shard => if shard ∈ l then .empty else gw.token_cache shard } := by
  induction l generalizing s with
  | nil => simp [onGateway]
  | cons i l ih =>
    rw [foldl_cons, ih]
    simp only [clear_shard, onGateway, mk.injEq, ZeroTrustGateway.mk.injEq, true_and, and_true]
    funext shard
    by_cases hl : shard ∈ l
    · rw [if_pos hl, if_pos (mem_cons_of_mem i hl)]
    · by_cases hi : shard = i
      · rw [if_neg hl, hi, Function.update_self, if_pos mem_cons_self]
      · rw [if_neg hl, Function.update_of_ne hi, if_neg (by simp [hl, hi])]

variable (inp : ℕ → Unit)

theorem clear_token_cache_run (s : SharedGateway) :
    (clear_token_cache.run (gateway_sections H) inp s).2.1 = s.onGateway (·.clear_token_cache) := by
  rw [clear_token_cache, run_map, each_shard]
  simp only
  rw [run_each_state (gateway_sections H) _ clear_shard (fun _ _ _ => rfl), foldl_clear_shard]
  simp [ZeroTrustGateway.clear_token_cache]

theorem sum_length_shards {α : Type} {n : ℕ} (f : α → Fin n) (l : List α) :
    ((finRange n).map fun i => (l.filter fun a => f a == i).length).sum = l.length := by
  rw [← Fin.sum_univ_def]
  induction l with
  | nil => simp
  | cons a l ih =>
    have hone : ∀ i, ((a :: l).filter fun a => f a == i).length =
        (if f a = i then 1 else 0) + (l.filter fun a => f a == i).length := by
      intro i
      by_cases hi : f a = i
      · rw [filter_cons_of_pos (by simpa using hi), if_pos hi, length_cons]
        omega
      · rw [filter_cons_of_neg (by simpa using hi), if_neg hi, Nat.zero_add]
    simp only [hone, Finset.sum_add_distrib, ih, Finset.sum_ite_eq, Finset.mem_univ, if_true,
      length_cons]
    omega

theorem revoked_tokens_len_run (s : SharedGateway) :
    (revoked_tokens_len.run (gateway_sections H) inp s).2 = (s, s.gateway.revoked_tokens.len) := by
  have hstate : ((each_shard .revoked_len).run (gateway_sections H) inp s).2.1 = s := by
    rw [each_shard, run_each_state (gateway_sections H) _ (fun s _ => s) (fun _ _ _ => rfl)]
    exact foldl_fixed _
  have hanswers : ((each_shard .revoked_len).run (gateway_sections H) inp s).2.2 =
      (finRange REVOKED_TOKENS_SHARDS).map fun shard => (s.revoked_shard shard).length := by
    rw [each_shard]
    exact run_each_answers (gateway_sections H) .revoked_len _ (fun _ s' => s' = s)
      (fun i l inp s' hs => by rw [hs]; rfl) (fun i l inp s' hs => hs) _ _ _ rfl
  have hsum : ((finRange REVOKED_TOKENS_SHARDS).map fun shard =>
      (s.revoked_shard shard).length).sum = s.gateway.revoked_tokens.len := by
    simp only [revoked_shard]
    rw [sum_length_shards fun e : Text × ℚ => revoked_token_shard_index e.1]
    exact length_map _
  rw [revoked_tokens_len, run_map, hstate, hanswers, hsum]

/-! Pruning one shard after the other is pruning the map. -/

theorem foldl_prune_shard (now : ℚ) (l : List (Fin REVOKED_TOKENS_SHARDS)) (s : SharedGateway) :
    l.foldl (fun s shard => s.prune_shard shard now) s = s.onGateway fun gw => { gw with
      revoked_tokens := gw.revoked_tokens.retain fun hash exp =>
        !l.contains (revoked_token_shard_index hash) || now < exp } := by
  induction l generalizing s with
  | nil =>
    simp only [foldl_nil, onGateway, contains_nil, Bool.not_false, Bool.true_or]
    rw [Table.retain_eq_self fun _ _ _ => rfl]
  | cons i l ih =>
    rw [foldl_cons, ih]
    simp only [prune_shard, onGateway, Table.retain_retain]
    congr 3
    funext hash exp
    simp only [contains_cons, bne, Bool.not_or]
    cases revoked_token_shard_index hash == i with
    | false => simp
    | true => by_cases hexp : now < exp <;> simp [hexp]

variable {s : SharedGateway} {token : List UInt8}

theorem prune_shard_of_ne {i j : Fin REVOKED_TOKENS_SHARDS} (h : i ≠ j)
    (now : ℚ) : (s.prune_shard i now).revoked_shard j = s.revoked_shard j := by
  rw [revoked_shard, revoked_shard, prune_shard, onGateway, Table.entries_retain, filter_filter]
  refine filter_congr fun e _ => ?_
  by_cases hj : revoked_token_shard_index e.1 = j
  · simp [hj, h.symm]
  · simp [hj]

theorem prune_shard_self (s : SharedGateway) (i : Fin REVOKED_TOKENS_SHARDS) (now : ℚ) :
    (s.prune_shard i now).revoked_shard i = (s.revoked_shard i).filter fun e => now < e.2 := by
  rw [revoked_shard, revoked_shard, prune_shard,
    onGateway, Table.entries_retain, filter_filter, filter_filter]
  refine filter_congr fun e _ => ?_
  cases hi : revoked_token_shard_index e.1 == i <;> simp [bne, hi]

def expired_in (s : SharedGateway) (now : ℚ) (shard : Fin REVOKED_TOKENS_SHARDS) : ℕ :=
  ((s.revoked_shard shard).filter fun e => !decide (now < e.2)).length

theorem length_sub_prune_shard (s : SharedGateway) (i : Fin REVOKED_TOKENS_SHARDS) (now : ℚ) :
    (s.revoked_shard i).length - ((s.prune_shard i now).revoked_shard i).length =
      expired_in s now i := by
  have hsplit := length_eq_length_filter_add (l := s.revoked_shard i) fun e => decide (now < e.2)
  rw [prune_shard_self, expired_in]
  omega

theorem sum_expired_in (s : SharedGateway) (now : ℚ) :
    ((finRange REVOKED_TOKENS_SHARDS).map (expired_in s now)).sum = s.gateway.revoked_tokens.len -
        (s.gateway.prune_expired_revocations now).revoked_tokens.len := by
  have hcomm : ∀ shard, expired_in s now shard =
      ((s.gateway.revoked_tokens.entries.filter fun e => !decide (now < e.2)).filter
        fun e => revoked_token_shard_index e.1 == shard).length := by
    intro shard
    rw [expired_in, revoked_shard, filter_comm]
  have hsplit := length_eq_length_filter_add (l := s.gateway.revoked_tokens.entries)
    fun e => decide (now < e.2)
  have hlen : ∀ t : Table Text ℚ, t.len = t.entries.length := fun t => (length_map _).symm
  rw [show expired_in s now = _ from funext hcomm]
  rw [sum_length_shards fun e : Text × ℚ => revoked_token_shard_index e.1, hlen, hlen,
    ZeroTrustGateway.prune_expired_revocations, Table.entries_retain]
  omega

theorem prune_expired_revocations_run (s : SharedGateway) :
    (prune_expired_revocations.run (gateway_sections H) inp s).2 =
      (s.onGateway (·.prune_expired_revocations s.clock), s.gateway.revoked_tokens.len -
        (s.gateway.prune_expired_revocations s.clock).revoked_tokens.len) := by
  have hstate : ∀ inp, ((each_shard fun shard : Fin REVOKED_TOKENS_SHARDS =>
      .revoked_prune shard s.clock).run (gateway_sections H) inp s).2.1 =
        s.onGateway (·.prune_expired_revocations s.clock) := by
    intro inp
    rw [each_shard, run_each_state (gateway_sections H) _
      (fun s' shard => s'.prune_shard shard s.clock) (fun _ _ _ => rfl), foldl_prune_shard]
    simp only [onGateway, ZeroTrustGateway.prune_expired_revocations,
      contains_eq_mem, mem_finRange, decide_true, Bool.not_true, Bool.false_or]
  -- a shard has not been touched before its own turn
  have hanswers : ∀ inp, ((each_shard fun shard : Fin REVOKED_TOKENS_SHARDS =>
      .revoked_prune shard s.clock).run (gateway_sections H) inp s).2.2 =
        (finRange REVOKED_TOKENS_SHARDS).map (expired_in s s.clock) := by
    intro inp
    rw [each_shard]
    refine run_each_answers (gateway_sections H) (fun shard => .revoked_prune shard s.clock) _
      (fun l s' => l.Nodup ∧ ∀ i ∈ l, s'.revoked_shard i = s.revoked_shard i) ?_ ?_ _ _ _
      ⟨nodup_finRange _, fun _ _ => rfl⟩
    · intro i l inp s' hs
      have hi := hs.2 i mem_cons_self
      refine (length_sub_prune_shard s' i s.clock).trans ?_
      rw [expired_in, expired_in, hi]
    · intro i l inp s' hs
      refine ⟨hs.1.of_cons, fun j hj => ?_⟩
      have hne : i ≠ j := fun hij => (nodup_cons.mp hs.1).1 (hij ▸ hj)
      exact (prune_shard_of_ne hne s.clock).trans (hs.2 j (mem_cons_of_mem i hj))
  rw [prune_expired_revocations, run_step]
  simp only [gateway_sections_exec, SharedGateway.exec]
  rw [run_map, hstate, hanswers, sum_expired_in]

/-- The map fits below its cap, at once or after pruning. -/
def SharedGateway.Fits (s : SharedGateway) : Prop :=
  s.gateway.revoked_tokens.len ≤ REVOKED_TOKENS_MAX ∨
    (s.gateway.prune_expired_revocations s.clock).revoked_tokens.len ≤ REVOKED_TOKENS_MAX

theorem enforce_revoked_tokens_cap_run (h : s.Fits) :
    (enforce_revoked_tokens_cap.run (gateway_sections H) inp s).2.1 =
      s.onGateway (·.enforce_revoked_tokens_cap s.clock) := by
  have hlen := fun inp => revoked_tokens_len_run (H := H) inp s
  have hprune := fun inp => prune_expired_revocations_run (H := H) inp s
  have hlen' := fun inp => revoked_tokens_len_run (H := H) inp
    (s.onGateway (·.prune_expired_revocations s.clock))
  rw [enforce_revoked_tokens_cap, run_bind, hlen]
  simp only
  by_cases hbelow : s.gateway.revoked_tokens.len ≤ REVOKED_TOKENS_MAX
  · rw [if_pos hbelow, run_ret]
    simp only [onGateway, ZeroTrustGateway.enforce_revoked_tokens_cap, if_pos hbelow]
  · have hpruned := h.resolve_left hbelow
    rw [if_neg hbelow, run_bind, hprune]
    simp only
    rw [run_bind, hlen']
    split_ifs with habove
    · simp only [onGateway, ZeroTrustGateway.enforce_revoked_tokens_cap,
        if_neg hbelow, if_pos hpruned, run_ret]
    · exact absurd hpruned habove

/-! The reads of a validation. -/

theorem verify_hmac_with_eq (gw : ZeroTrustGateway) (data : Json) (json sig secret : List UInt8) :
    verify_hmac_with H (gw.trusted_issuer_keys.len ≠ 0)
        (gw.trusted_issuer_keys.get (token_issuer data)) json sig secret =
      gw.verify_hmac H data json sig secret := by
  by_cases hlen : gw.trusted_issuer_keys.len = 0 <;>
    simp [verify_hmac_with, ZeroTrustGateway.verify_hmac, hlen]

theorem authority_key_run (kid : Text) (inp : ℕ → Unit) (s : SharedGateway) :
    ((authority_key kid s.capability_authority).run (gateway_sections H) inp s).2 =
      (s, s.keys.verification_key kid) := by
  cases hca : s.capability_authority with
  | none => simp [authority_key, SharedGateway.keys, hca]
  | some ca => simp [authority_key, SharedGateway.keys, hca, SharedGateway.exec]

theorem pinned_key_run (agent_id : Text) (inp : ℕ → Unit) (s : SharedGateway) :
    ((pinned_key agent_id s.trust_store).run (gateway_sections H) inp s).2 =
      (s, s.keys.pinned_key agent_id) := by
  cases hts : s.trust_store with
  | none => simp [pinned_key, SharedGateway.keys, hts]
  | some ts => simp [pinned_key, SharedGateway.keys, hts, SharedGateway.exec]

theorem read_keys_run (data : Json) (json sig : List UInt8) (inp : ℕ → Unit) (s : SharedGateway) :
    ((read_keys data).run (gateway_sections H) inp s).2.1 = s ∧
      ZeroTrustGateway.verify_ed25519 X ((read_keys data).run (gateway_sections H) inp s).2.2 data
          json sig =
        ZeroTrustGateway.verify_ed25519 X s.keys data json sig := by
  cases hkid : claim_str data "kid" with
  | none => simp [read_keys, hkid, ZeroTrustGateway.verify_ed25519]
  | some kid =>
    have hca := fun inp => authority_key_run (H := H) kid inp s
    have hts := fun inp => pinned_key_run (H := H) (token_issuer data) inp s
    simp only [read_keys, hkid, run_bind, run_step, gateway_sections_exec, SharedGateway.exec, hca]
    cases hkey : s.keys.verification_key kid with
    | some vk => simp [ZeroTrustGateway.verify_ed25519, hkid, hkey]
    | none =>
      simp [ZeroTrustGateway.verify_ed25519, hkid, hkey, SharedGateway.exec, hts]

theorem verify_signature_run (data : Json) (json sig secret : List UInt8)
    (inp : ℕ → Unit) (s : SharedGateway) :
    ((verify_signature H X s.gateway.epochs data json sig secret).run
        (gateway_sections H) inp s).2 =
      (s, s.gateway.verify_signature H X s.keys data json sig secret) := by
  unfold verify_signature ZeroTrustGateway.verify_signature
  split_ifs with hstrict halg
  · rfl
  · rw [run_step, run_ret, ← verify_hmac_with_eq]
    rfl
  · obtain ⟨hstate, hkeys⟩ := read_keys_run (H := H) (X := X) data json sig inp s
    rw [run_map, hstate, hkeys]

theorem evaluate_token_run (target : Text) (token secret : List UInt8)
    (inp : ℕ → Unit) (s : SharedGateway) :
    ((evaluate_token H X s.gateway.epochs target token secret).run (gateway_sections H) inp s).2 =
      (s, s.gateway.evaluate_token H X s.keys target token secret s.clock) := by
  have hsig := fun data json sig inp =>
    verify_signature_run (H := H) (X := X) data json sig secret inp s
  simp only [evaluate_token, ZeroTrustGateway.evaluate_token, parse_token, bind, Except.bind, pure,
    Except.pure, run_andThen, run_ret]
  cases hwire : parse_token_wire X token with
  | error err => rfl
  | ok parts =>
    obtain ⟨json, sig⟩ := parts
    simp only
    cases hclaims : parse_claims X json with
    | error err => rfl
    | ok data =>
      simp only [run_step, run_ret, gateway_sections_exec, SharedGateway.exec,
        ZeroTrustGateway.check_revocation]
      by_cases hrevoked : s.gateway.is_token_revoked (sha256_hex H sig) = true
      · simp only [hrevoked, if_true]
      · simp only [hrevoked, if_false, Bool.false_eq_true, hsig]
        cases hverified : s.gateway.verify_signature H X s.keys data json sig
            secret with
        | error err => rfl
        | ok u =>
          have hblanket : s.gateway.epochs.snapshot.check_blanket data =
            s.gateway.check_blanket data := rfl
          simp only [hblanket]
          cases s.gateway.check_blanket data with
          | error err => rfl
          | ok u =>
            simp only
            cases check_expiry s.clock data with
            | error | ok => rfl

theorem validate_lateral_movement_run (target : Text) (token secret : List UInt8)
    (inp : ℕ → Unit) (s : SharedGateway) :
    ((validate_lateral_movement H X target token secret).run (gateway_sections H) inp s).2 =
      (let r := s.gateway.validate_lateral_movement H X s.keys target token secret s.clock
      ({ s with gateway := r.1 }, r.2)) := by
  have heval := fun inp =>
    evaluate_token_run (H := H) (X := X) target token secret inp s
  have hkey : s.gateway.epochs.snapshot.cache_key H target token secret =
    s.gateway.cache_key H target token secret := rfl
  have hcached : ∀ key, s.gateway.epochs.served s.clock ((s.gateway.token_cache
      (ZeroTrustGateway.token_cache_shard key)).get key) = s.gateway.cached key s.clock :=
    fun _ => rfl
  simp only [validate_lateral_movement, ZeroTrustGateway.validate_lateral_movement, run_step,
    gateway_sections_exec, SharedGateway.exec, hkey, hcached, finish_validation]
  cases s.gateway.cached (s.gateway.cache_key H target token secret) s.clock with
  | some result => rfl
  | none =>
    simp only [run_andThen, heval]
    cases s.gateway.evaluate_token H X s.keys target token secret s.clock with
    | error | ok => rfl

theorem decode_of_parse {json sig : List UInt8} {data : Json}
    (h : parse_token X token = .ok (json, sig, data)) :
    parse_token_wire X token = .ok (json, sig) ∧ decode_token X token = some (data, sig) := by
  simp only [parse_token, bind_eq_ok] at h
  obtain ⟨⟨token_json', signature'⟩, hwire, data', hdata, hres⟩ := h
  cases hres
  exact ⟨hwire, decode_token_eq_some.mpr ⟨_, hwire, hdata⟩⟩

theorem claims_verdict_ok {target : Text} {data : Json} {token_sig_hash : Text}
    {result : TokenValidationResult} {exp : ℚ}
    (h : claims_verdict target data token_sig_hash = .ok (result, exp)) :
    result.source_agent = token_issuer data ∧ exp = token_exp data := by
  simp only [claims_verdict, bind_eq_ok] at h
  obtain ⟨_, -, c, -, depth, -, hres⟩ := h
  cases hres
  exact ⟨rfl, rfl⟩

theorem evaluate_token_eq_ok {gw : ZeroTrustGateway} {keys : KeySources} {target : Text}
    {secret : List UInt8} {now : ℚ} {result : TokenValidationResult} {exp : ℚ} :
    gw.evaluate_token H X keys target token secret now = .ok (result, exp) ↔
      ∃ json sig data, parse_token X token = .ok (json, sig, data) ∧
        gw.is_token_revoked (sha256_hex H sig) = false ∧
        gw.verify_signature H X keys data json sig secret = .ok () ∧
        gw.check_blanket data = .ok () ∧ check_expiry now data = .ok () ∧
        claims_verdict target data (sha256_hex H sig) = .ok (result, exp) := by
  simp only [ZeroTrustGateway.evaluate_token, parse_token, claims_verdict, bind_eq_ok]
  constructor
  · rintro ⟨⟨json, sig⟩, hwire, data, hdata, _, hrevoked, _, hverified, _, hblanket,
      _, hfresh, hclaims⟩
    refine ⟨json, sig, data, ⟨_, hwire, data, hdata, rfl⟩, ?_, hverified, hblanket, hfresh, hclaims⟩
    rw [← Bool.not_eq_true]
    intro hyes
    rw [ZeroTrustGateway.check_revocation, if_pos hyes] at hrevoked
    cases hrevoked
  · rintro ⟨json, sig, data, ⟨_, hwire, _, hdata, hparts⟩, hnot, hverified, hblanket,
      hfresh, hclaims⟩
    cases hparts
    refine ⟨_, hwire, data, hdata, (), ?_, (), hverified, (), hblanket, (), hfresh, hclaims⟩
    rw [ZeroTrustGateway.check_revocation, hnot]
    rfl

/-! The other operations. -/

theorem publish_registry_run (s : SharedGateway) :
    (publish_registry.run (gateway_sections H) inp s).2.1 =
      s.onGateway fun gw => gw.clear_token_cache.update_epochs fun e =>
        { e with issuer_registry_epoch := e.issuer_registry_epoch + 1 } := by
  rw [publish_registry, run_bind, clear_token_cache_run, run_map, update_epochs, run_step]
  rfl

theorem revocation_expiry_run (json : List UInt8) (inp : ℕ → Unit) (s : SharedGateway) :
    ((revocation_expiry X json).run (gateway_sections H) inp s).2 =
      (s, ZeroTrustGateway.revocation_deadline X json s.clock) := by
  unfold revocation_expiry ZeroTrustGateway.revocation_deadline
  cases ((X.json_from_slice json).bind (·.get "exp")).bind Json.as_rat with
  | some exp => rfl
  | none => rfl

def revoked_of (X : Crates) (s : SharedGateway) (token_json : List UInt8) (sig_hash : Text) :
    SharedGateway :=
  s.onGateway fun gw => { gw with
    revoked_tokens := gw.revoked_tokens.insert sig_hash
      (ZeroTrustGateway.revocation_deadline X token_json s.clock) }

def GatewayCall.Fits (H : Hashes) (X : Crates) (c : GatewayCall) (s : SharedGateway) : Prop :=
  match c with
  | .revoke_token token => ∀ token_json sig_hash,
      parse_revoked H X token = .ok (token_json, sig_hash) →
        (revoked_of X s token_json sig_hash).Fits
  | _ => True

theorem revoke_token_run (h : (GatewayCall.revoke_token token).Fits H X s) (inp : ℕ → Unit) :
    ((revoke_token H X token).run (gateway_sections H) inp s).2 =
      (let r := s.gateway.revoke_token H X token s.clock
      ({ s with gateway := r.1 }, r.2)) := by
  unfold revoke_token ZeroTrustGateway.revoke_token
  rw [run_andThen, run_ret]
  have hparsed := h
  simp only [GatewayCall.Fits, parse_revoked] at hparsed
  simp only [parse_revoked]
  cases hwire : parse_token_wire X token with
  | error err => rfl
  | ok parts =>
    obtain ⟨json, sig⟩ := parts
    simp only [hwire] at hparsed
    simp only
    by_cases hempty : sig.isEmpty = true
    · simp only [hempty, if_true]
    · simp only [hempty, if_false, Bool.false_eq_true] at hparsed ⊢
      have hfits := hparsed json (sha256_hex H sig) rfl
      rw [revoked_of] at hfits
      rw [run_bind, revocation_expiry_run, run_step]
      simp only [gateway_sections_exec, SharedGateway.exec]
      rw [run_bind, enforce_revoked_tokens_cap_run _ hfits, run_bind,
        clear_token_cache_run, run_map, update_epochs, run_step]
      rfl

theorem revoke_all_tokens_run (s : SharedGateway) :
    (revoke_all_tokens.run (gateway_sections H) inp s).2 =
      (let gw := s.gateway.revoke_all_tokens s.clock
      ({ s with gateway := gw }, gw.epochs.revocation_epoch)) := by
  rw [revoke_all_tokens, run_step]
  simp only [gateway_sections_exec, SharedGateway.exec]
  rw [run_bind, clear_token_cache_run]
  rfl

theorem register_issuer_key_run (issuer : Text) (secret : List UInt8)
    (inp : ℕ → Unit) (s : SharedGateway) :
    ((register_issuer_key X issuer secret).run (gateway_sections H) inp s).2 =
      (let r := s.gateway.register_issuer_key X issuer secret
      ({ s with gateway := r.1 }, r.2)) := by
  unfold register_issuer_key ZeroTrustGateway.register_issuer_key
  rw [run_andThen, run_ret]
  simp only [check_issuer]
  split_ifs with hblank hnull hsize hfull
  · rfl
  · rfl
  · rfl
  · rw [run_andThen, run_step]
    simp only [gateway_sections_exec, SharedGateway.exec, insert_issuer, if_pos hfull]
    rfl
  · rw [run_andThen, run_step]
    simp only [gateway_sections_exec, SharedGateway.exec, insert_issuer, if_neg hfull, run_ret]
    rw [run_map, publish_registry_run]
    rfl

open GatewayCall

/-- **A call that runs alone** is the call of the sequential model. -/
theorem prog_run (c : GatewayCall) (h : c.Fits H X s) (inp : ℕ → Unit) :
    ((c.prog H X).run (gateway_sections H) inp s).2 = c.apply H X s := by
  cases c with
  | validate_lateral_movement target token secret =>
    rw [prog, run_map, validate_lateral_movement_run]
    rfl
  | revoke_token token =>
    rw [prog, run_map, revoke_token_run h]
    rfl
  | prune_expired_revocations =>
    rw [prog, run_map, prune_expired_revocations_run]
    rfl
  | revoke_all_tokens =>
    rw [prog, run_map, revoke_all_tokens_run]
    rfl
  | register_issuer_key issuer secret =>
    rw [prog, run_map, register_issuer_key_run]
    rfl
  | clear_trusted_issuers =>
    rw [prog, run_map, clear_trusted_issuers, run_step, publish_registry_run]
    rfl
  | set_strict_asymmetric_mode enabled =>
    rw [prog, run_map, set_strict_asymmetric_mode, run_bind, update_epochs,
      run_step, clear_token_cache_run]
    rfl
  | register_trust_store ts =>
    rw [prog, run_map, register_trust_store, run_step, run_bind,
      update_epochs, run_step, clear_token_cache_run]
    rfl
  | register_capability_authority ca =>
    rw [prog, run_map, register_capability_authority, run_step,
      run_bind, update_epochs, run_step, clear_token_cache_run]
    rfl
  | register_key | revoke_trusted_key | pin_identity => rfl

end Alone

end Saacp
