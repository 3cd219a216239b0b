/-
The **token cache is transparent**, as long as the key stores are left alone.

A verdict depends on the epochs, the issuer registry, the revocations, the key that the token is
verified with, and the clock. The gateway sees every change to the first three, and the expiry of an
entry takes care of the clock; a change inside a registered key store it does not see. The invariant
(`Truthful`) is about the future: whatever the cache would serve now or at a later second, an
evaluation at that second would say as well.
-/
import Saacp.GatewaySections

set_option autoImplicit false

open ByteCodec

namespace Saacp

open List ZeroTrustGateway

/-! ## What a verdict depends on -/

variable {H : Hashes} {X : Crates}

section Transfer

variable {gw gw' : ZeroTrustGateway} {keys keys' : KeySources}

theorem verify_signature_congr {data : Json} (hepochs : gw'.epochs = gw.epochs)
    (hregistry : gw'.trusted_issuer_keys = gw.trusted_issuer_keys)
    (hkeys : token_sig_alg data = ascii "ed25519" → keys'.key_for data = keys.key_for data)
    (json sig secret : List UInt8) :
    gw'.verify_signature H X keys' data json sig secret =
      gw.verify_signature H X keys data json sig secret := by
  unfold ZeroTrustGateway.verify_signature
  rw [hepochs]
  split_ifs with hstrict halg
  · rfl
  · unfold verify_hmac
    rw [hregistry]
  · exact verify_ed25519_congr (hkeys (not_not.mp halg)) json sig

/-- **A verdict carries over** to any gateway with the same epochs, registry and key, and no more
revocations. -/
theorem evaluate_token_transfer {target : Text} {token secret : List UInt8}
    {now now' : ℚ} {result : TokenValidationResult} {exp : ℚ}
    (h : gw.evaluate_token H X keys target token secret now = .ok (result, exp))
    (hepochs : gw'.epochs = gw.epochs)
    (hregistry : gw'.trusted_issuer_keys = gw.trusted_issuer_keys)
    (hrevoked : ∀ sig_hash, gw.is_token_revoked sig_hash = false →
      gw'.is_token_revoked sig_hash = false)
    (hkeys : ∀ data sig, decode_token X token = some (data, sig) →
      token_sig_alg data = ascii "ed25519" → keys'.key_for data = keys.key_for data)
    (hnow : now' ≤ exp) :
    gw'.evaluate_token H X keys' target token secret now' = .ok (result, exp) := by
  obtain ⟨json, sig, data, hparse, hnot, hverified, hblanket, hfresh, hclaims⟩ :=
    evaluate_token_eq_ok.mp h
  have hdecode := (decode_of_parse hparse).2
  have hexp := (claims_verdict_ok hclaims).2
  refine evaluate_token_eq_ok.mpr ⟨json, sig, data, hparse, hrevoked _ hnot, ?_, ?_, ?_, hclaims⟩
  · rw [verify_signature_congr hepochs hregistry (hkeys data sig hdecode)]
    exact hverified
  · unfold check_blanket recalls at hblanket ⊢
    rw [hepochs]
    exact hblanket
  · rw [check_expiry, if_neg (by rw [← hexp]; exact not_lt.mpr hnow)]

end Transfer

/-! ## Sequential runs -/

/-- Calls, each at one reading of the clock, and the clock moving on. -/
inductive GatewayStep
  | call (c : GatewayCall)
  | wait (now : ℚ)

def GatewayStep.on_key_store : GatewayStep → Bool
  | .call (.register_key ..) | .call (.revoke_trusted_key ..) | .call (.pin_identity ..) => true
  | _ => false

def GatewayStep.token : GatewayStep → Option (List UInt8)
  | .call (.validate_lateral_movement _ token _) => some token
  | _ => none

def GatewayStep.secret : GatewayStep → Option (List UInt8)
  | .call (.validate_lateral_movement _ _ secret) => some secret
  | _ => none

namespace SharedGateway

variable (H : Hashes) (X : Crates)

def step (s : SharedGateway) : GatewayStep → SharedGateway
  | .call c => (c.apply H X s).1
  | .wait now => s.advance now

def steps (s : SharedGateway) (sts : List GatewayStep) : SharedGateway := sts.foldl (step H X) s

def validate (s : SharedGateway) (target_agent : Text) (token_b64 issuer_secret : List UInt8) :
    Result TokenValidationResult :=
  (s.gateway.validate_lateral_movement H X s.keys target_agent token_b64 issuer_secret s.clock).2

def uncached (s : SharedGateway) : SharedGateway := s.onGateway (·.clear_token_cache)

/-- No token with a verdict in the cache is verified with another key than before. -/
def KeepsKeys (s s' : SharedGateway) : Prop :=
  ∀ target_agent token secret,
    (s.gateway.cached (s.gateway.cache_key H target_agent token secret) s.clock).isSome →
    ∀ data signature, decode_token X token = some (data, signature) →
      token_sig_alg data = ascii "ed25519" → s'.keys.key_for data = s.keys.key_for data

/-- No operation on a key store changes the key of a token with a verdict in the cache. -/
def KeysKept : SharedGateway → List GatewayStep → Prop
  | _, [] => True
  | s, st :: sts =>
    (st.on_key_store = true → s.KeepsKeys H X (s.step H X st)) ∧ (s.step H X st).KeysKept sts

end SharedGateway

/-! ## The invariant -/

variable {s : SharedGateway}

section Truthful

variable {T S : Set (List UInt8)}

/-- Whatever the cache serves now or later an evaluation at that second says too. -/
def Truthful (H : Hashes) (X : Crates) (s : SharedGateway) (T S : Set (List UInt8)) : Prop :=
  ∀ key now result, s.clock ≤ now → s.gateway.cached key now = some result →
    ∃ target_agent token secret exp, token ∈ T ∧ secret ∈ S ∧
      key = s.gateway.cache_key H target_agent token secret ∧
      s.gateway.evaluate_token H X s.keys target_agent token secret now =
        .ok (result, exp)

variable {gw : ZeroTrustGateway} {result : TokenValidationResult}

theorem cached_of_empty (h : ∀ shard, gw.token_cache shard = .empty)
    (key : Text) (now : ℚ) : gw.cached key now = none := by
  unfold cached
  rw [h, Table.get_empty]

theorem truthful_of_empty (h : ∀ shard, s.gateway.token_cache shard = .empty) :
    Truthful H X s T S := by
  intro key now result _ hcached
  rw [cached_of_empty h] at hcached
  cases hcached

theorem Truthful.carry {s' : SharedGateway} (h : Truthful H X s T S)
    (hcache : s'.gateway.token_cache = s.gateway.token_cache)
    (hepochs : s'.gateway.epochs = s.gateway.epochs)
    (hregistry : s'.gateway.trusted_issuer_keys = s.gateway.trusted_issuer_keys)
    (hrevoked : s'.gateway.revoked_tokens ≤ s.gateway.revoked_tokens)
    (hkeys : s.KeepsKeys H X s') (hclock : s.clock ≤ s'.clock) : Truthful H X s' T S := by
  intro key now result hnow hcached
  have hbefore : s.gateway.cached key now = some result := by
    unfold cached at hcached ⊢
    rw [← hcache, ← hepochs]
    exact hcached
  obtain ⟨target, token, secret, exp, htoken, hsecret, hkey, heval⟩ :=
    h key now result (hclock.trans hnow) hbefore
  refine ⟨target, token, secret, exp, htoken, hsecret, ?_, ?_⟩
  · rw [hkey, cache_key, cache_key, hepochs]
  · obtain ⟨entry, hget, hlive, hgen, hresult⟩ := cached_eq_some.mp hbefore
    have hserved := cached_eq_some.mpr
      ⟨entry, hget, (hclock.trans hnow).trans_lt hlive, hgen, hresult⟩
    rw [hkey] at hserved
    refine evaluate_token_transfer heval hepochs hregistry ?_ ?_ (evaluate_token_ok heval).1
    · intro sig_hash hnot
      exact Table.contains_eq_false_of_le hrevoked hnot
    · exact hkeys target token secret (by rw [hserved]; rfl)

theorem cached_store {key key' : Text} {result' : TokenValidationResult} {exp now now' : ℚ}
    (h : (gw.store_verdict key result exp now).cached key' now' = some result') :
    (key' = key ∧ result' = result ∧ now' ≤ exp) ∨ gw.cached key' now' = some result' := by
  obtain ⟨entry, hget, hnow, hgen, rfl⟩ := cached_eq_some.mp h
  simp only [store_verdict, Function.update_apply] at hget
  by_cases hkey : key' = key
  · subst hkey
    rw [if_pos rfl, Table.get_insert_self, Option.some.injEq] at hget
    subst hget
    exact .inl ⟨rfl, rfl, hnow.le.trans (min_le_right _ _)⟩
  · refine .inr (cached_eq_some.mpr ⟨entry, ?_, hnow, hgen, rfl⟩)
    split at hget
    · rename_i hshard
      rw [Table.get_insert, if_neg hkey] at hget
      rw [hshard]
      exact make_room_le _ _ _ _ _ hget
    · exact hget

theorem Truthful.validate {target_agent : Text} {token_b64 issuer_secret : List UInt8}
    (h : Truthful H X s T S) (htoken : token_b64 ∈ T) (hsecret : issuer_secret ∈ S) :
    Truthful H X ((GatewayCall.validate_lateral_movement target_agent token_b64
      issuer_secret).apply H X s).1 T S := by
  unfold GatewayCall.apply
  simp only
  obtain ⟨result, -, hanswer⟩ | ⟨-, ⟨err, -, hanswer⟩ | ⟨result, exp, heval, hanswer⟩⟩ :=
    validate_lateral_movement_cases (H := H) (X := X) s.gateway s.keys target_agent token_b64
      issuer_secret s.clock
  · rw [hanswer]
    exact h
  · rw [hanswer]
    exact h
  · rw [hanswer]
    intro key now result' hnow hcached
    obtain ⟨rfl, rfl, hexp⟩ | hbefore := cached_store hcached
    · refine ⟨target_agent, token_b64, issuer_secret, exp, htoken, hsecret, rfl, ?_⟩
      exact evaluate_token_transfer heval rfl rfl (fun _ hnot => hnot) (fun _ _ _ _ => rfl) hexp
    · obtain ⟨target, token, secret, exp', htoken', hsecret', hkey, heval'⟩ :=
        h key now result' hnow hbefore
      refine ⟨target, token, secret, exp', htoken', hsecret', hkey, ?_⟩
      exact evaluate_token_transfer heval' rfl rfl (fun _ hnot => hnot) (fun _ _ _ _ => rfl)
        (evaluate_token_ok heval').1

theorem Truthful.of_unchanged_or_empty (h : Truthful H X s T S)
    (hcases : gw = s.gateway ∨ ∀ shard, gw.token_cache shard = .empty) :
    Truthful H X { s with gateway := gw } T S := by
  rcases hcases with rfl | hempty
  · exact h
  · exact truthful_of_empty hempty

theorem revoke_token_cases (gw : ZeroTrustGateway) (token : List UInt8) (now : ℚ) :
    (gw.revoke_token H X token now).1 = gw ∨
      ∀ shard, (gw.revoke_token H X token now).1.token_cache shard = .empty := by
  unfold ZeroTrustGateway.revoke_token
  split
  · exact .inl rfl
  · split
    · exact .inl rfl
    · exact .inr fun _ => rfl

theorem Truthful.step {st : GatewayStep} (h : Truthful H X s T S)
    (htoken : ∀ token, st.token = some token → token ∈ T)
    (hsecret : ∀ secret, st.secret = some secret → secret ∈ S)
    (hkeys : st.on_key_store = true → s.KeepsKeys H X (s.step H X st)) :
    Truthful H X (s.step H X st) T S := by
  have hsame : ∀ {s' : SharedGateway}, s'.keys = s.keys → s.KeepsKeys H X s' := by
    intro s' heq _ _ _ _ data _ _ _
    rw [heq]
  cases st with
  | wait now =>
    exact h.carry rfl rfl rfl (le_refl _) (hsame rfl) (le_max_left _ _)
  | call c =>
    cases c with
    | validate_lateral_movement target token secret =>
      exact h.validate (htoken _ rfl) (hsecret _ rfl)
    | revoke_token token =>
      exact h.of_unchanged_or_empty (revoke_token_cases s.gateway token s.clock)
    | prune_expired_revocations =>
      exact h.carry rfl rfl rfl (Table.retain_le _ _) (hsame rfl) (le_refl _)
    | revoke_all_tokens => exact truthful_of_empty fun _ => rfl
    | register_issuer_key issuer secret =>
      apply h.of_unchanged_or_empty
      unfold ZeroTrustGateway.register_issuer_key
      split_ifs
      on_goal 5 => exact .inr fun _ => rfl
      all_goals exact .inl rfl
    | clear_trusted_issuers => exact truthful_of_empty fun _ => rfl
    | set_strict_asymmetric_mode enabled => exact truthful_of_empty fun _ => rfl
    | register_trust_store ts => exact truthful_of_empty fun _ => rfl
    | register_capability_authority ca => exact truthful_of_empty fun _ => rfl
    | register_key | revoke_trusted_key | pin_identity =>
      exact h.carry rfl rfl rfl (le_refl _) (hkeys rfl) (le_refl _)

theorem Truthful.steps {sts : List GatewayStep} (h : Truthful H X s T S)
    (htokens : ∀ st ∈ sts, ∀ token, st.token = some token → token ∈ T)
    (hsecrets : ∀ st ∈ sts, ∀ secret, st.secret = some secret → secret ∈ S)
    (hkept : s.KeysKept H X sts) : Truthful H X (s.steps H X sts) T S := by
  induction sts generalizing s with
  | nil => exact h
  | cons st sts ih =>
    have hstep := h.step (htokens st mem_cons_self) (hsecrets st mem_cons_self) hkept.1
    refine ih hstep ?_ ?_ hkept.2
    · intro st' hst'
      exact htokens st' (mem_cons_of_mem st hst')
    · intro st' hst'
      exact hsecrets st' (mem_cons_of_mem st hst')

end Truthful

/-! ## Transparency -/

section Transparent

theorem validate_uncached (target : Text) (token secret : List UInt8) :
    s.uncached.validate H X target token secret =
      (s.gateway.evaluate_token H X s.keys target token secret s.clock).map Prod.fst := by
  obtain ⟨result, hcached, -⟩ | ⟨-, ⟨err, heval, hanswer⟩ | ⟨result, exp, heval, hanswer⟩⟩ :=
    validate_lateral_movement_cases (H := H) (X := X) s.uncached.gateway s.keys target
      token secret s.clock
  · rw [cached_of_empty fun _ => rfl] at hcached
    cases hcached
  · have hsame : s.gateway.evaluate_token H X s.keys target token secret s.clock =
      .error err := heval
    rw [hsame]
    exact congrArg Prod.snd hanswer
  · have hsame : s.gateway.evaluate_token H X s.keys target token secret s.clock =
      .ok (result, exp) := heval
    rw [hsame]
    exact congrArg Prod.snd hanswer

/-- **The token cache is transparent** in every run that keeps the keys: a validation succeeds
exactly when it would succeed with an empty cache, with the same result. -/
theorem cache_transparent (hH : H.Sized) (hcache : ∀ shard, s.gateway.token_cache shard = .empty)
    (sts : List GatewayStep) (target_agent : Text) (token_b64 issuer_secret : List UInt8)
    (htokens : Set.InjOn H.sha256 {token | token ∈ token_b64 :: sts.filterMap GatewayStep.token})
    (hsecrets : Set.InjOn H.sha256
      {secret | secret ∈ issuer_secret :: sts.filterMap GatewayStep.secret})
    (hkept : s.KeysKept H X sts) (result : TokenValidationResult) :
    (s.steps H X sts).validate H X target_agent token_b64 issuer_secret = .ok result ↔
      (s.steps H X sts).uncached.validate H X target_agent token_b64 issuer_secret =
        .ok result := by
  have htruthful := (truthful_of_empty (H := H) (X := X) hcache).steps
    (T := {token | token ∈ token_b64 :: sts.filterMap GatewayStep.token})
    (S := {secret | secret ∈ issuer_secret :: sts.filterMap GatewayStep.secret})
    (fun st hst token htoken => mem_cons_of_mem _ (mem_filterMap.mpr ⟨st, hst, htoken⟩))
    (fun st hst secret hsecret =>
      mem_cons_of_mem _ (mem_filterMap.mpr ⟨st, hst, hsecret⟩)) hkept
  generalize s.steps H X sts = s' at htruthful ⊢
  rw [validate_uncached]
  obtain ⟨served, hcached, hanswer⟩ | ⟨-, ⟨err, heval, hanswer⟩ | ⟨found, exp, heval, hanswer⟩⟩ :=
    validate_lateral_movement_cases (H := H) (X := X) s'.gateway s'.keys target_agent token_b64
      issuer_secret s'.clock
  · -- what is served was evaluated for this token and this secret
    obtain ⟨target, token, secret, exp, htoken, hsecret, hkey, heval⟩ :=
      htruthful _ _ served (le_refl _) hcached
    obtain ⟨rfl, hsha, hsha'⟩ := cache_key_parts hH hkey
    obtain rfl : token_b64 = token := htokens mem_cons_self htoken hsha
    obtain rfl : issuer_secret = secret := hsecrets mem_cons_self hsecret hsha'
    rw [SharedGateway.validate, hanswer, heval]
    rfl
  · rw [SharedGateway.validate, hanswer, heval]
    rfl
  · rw [SharedGateway.validate, hanswer, heval]
    rfl

end Transparent

/-! ## A key that is taken back

The sample stands in for Ed25519 with two copies of an HMAC under the public key. -/

def sampleKidClaims : Json :=
  .obj [("_sig_alg", .str (ascii "ed25519")), ("allow", .arr [.str (ascii "svc")]),
    ("exp", .pos_int 2000), ("forbid", .arr []), ("iat", .pos_int 500), ("iss", .str (ascii "ops")),
    ("kid", .str (ascii "bob-1")), ("max_action_class", .pos_int 1)]

def sampleKidKey : List UInt8 := List.replicate 32 9

def sampleKidToken : Text :=
  ascii ("AAAAdnsiX3NpZ19hbGciOiJlZDI1NTE5IiwiYWxsb3ciOlsic3ZjIl0sImV4cCI6MjAwMCwiZm9yYmlkIjpbXSwiaW" ++
    "F0Ijo1MDAsImlzcyI6Im9wcyIsImtpZCI6ImJvYi0xIiwibWF4X2FjdGlvbl9jbGFzcyI6MX0qaCpqgTM/c+d7sd57I7Z" ++
    "KCaHfzdPb5ZuCFGtYAszUVypoKmqBMz9z53ux3nsjtkoJod/N09vlm4IUa1gCzNRX")

def sampleKidCrates : Crates :=
  { sampleCrates with
    json_from_slice := fun text =>
      [sampleKidClaims].find? fun j => j.compact (fun _ => []) = text
    ed25519_key_ok := fun key => key.length = 32
    ed25519_verify := fun key msg signature =>
      signature = Sha256.hmacSha256 key msg ++ Sha256.hmacSha256 key msg }

def sampleKidSteps : List GatewayStep :=
  [.call (.register_capability_authority 0), .call (.register_key 0 (ascii "bob-1") sampleKidKey),
    .call (.validate_lateral_movement (ascii "svc") sampleKidToken [])]

theorem ok_of_isOk {ε α : Type} {x : Except ε α} (h : x.isOk = true) : ∃ a, x = .ok a := by
  cases x with
  | error err => cases h
  | ok a => exact ⟨a, rfl⟩

theorem cache_transparent_sample :
    let s := (SharedGateway.new 1000).steps sampleHashes sampleKidCrates sampleKidSteps
    (s.gateway.cached (s.gateway.cache_key sampleHashes (ascii "svc") sampleKidToken [])
        s.clock).isSome = true ∧
      ∃ result, s.validate sampleHashes sampleKidCrates (ascii "svc") sampleKidToken [] =
          .ok result ∧
        s.uncached.validate sampleHashes sampleKidCrates (ascii "svc") sampleKidToken [] =
          .ok result := by
  intro s
  obtain ⟨hcached, hok⟩ :
      (s.gateway.cached (s.gateway.cache_key sampleHashes (ascii "svc") sampleKidToken [])
        s.clock).isSome = true ∧
      (s.validate sampleHashes sampleKidCrates (ascii "svc") sampleKidToken []).isOk = true := by
    decide +kernel
  obtain ⟨result, hresult⟩ := ok_of_isOk hok
  refine ⟨hcached, result, hresult, ?_⟩
  refine (cache_transparent (H := sampleHashes) Sha256.length_sha256 (fun _ => rfl) sampleKidSteps
    (ascii "svc") sampleKidToken [] ?_ ?_ ?_ result).mp hresult
  · intro a ha b hb _
    simp only [sampleKidSteps, filterMap_cons, filterMap_nil, GatewayStep.token,
      Set.mem_ofPred_eq, mem_cons, not_mem_nil, or_false, or_self] at ha hb
    rw [ha, hb]
  · intro a ha b hb _
    simp only [sampleKidSteps, filterMap_cons, filterMap_nil, GatewayStep.secret,
      Set.mem_ofPred_eq, mem_cons, not_mem_nil, or_false, or_self] at ha hb
    rw [ha, hb]
  · -- when the key is registered, nothing is cached yet
    refine ⟨nofun, fun _ target token secret hcached => ?_, nofun, trivial⟩
    rw [cached_of_empty fun _ => rfl] at hcached
    cases hcached

/-- **A verdict outlives its key.** After the key has been revoked, the token is still accepted out
of the cache; with an empty cache it is not. -/
theorem revoked_key_still_serves :
    let s := (SharedGateway.new 1000).steps sampleHashes sampleKidCrates
      (sampleKidSteps ++ [.wait 1010, .call (.revoke_trusted_key 0 (ascii "bob-1"))])
    (∃ result, s.validate sampleHashes sampleKidCrates (ascii "svc") sampleKidToken [] =
        .ok result) ∧
      ∀ result, s.uncached.validate sampleHashes sampleKidCrates (ascii "svc") sampleKidToken [] ≠
        .ok result := by
  intro s
  obtain ⟨hok, hnot⟩ :
      (s.validate sampleHashes sampleKidCrates (ascii "svc") sampleKidToken []).isOk = true ∧
      (s.uncached.validate sampleHashes sampleKidCrates (ascii "svc") sampleKidToken []).isOk =
        false := by
    decide +kernel
  refine ⟨ok_of_isOk hok, fun result hresult => ?_⟩
  rw [hresult] at hnot
  cases hnot

end Saacp
