/-
What Gate 1.0 **vouches for**: a token that `validate_lateral_movement` accepts can be taken
apart, has not expired, is not revoked and not recalled, and the verdict carries its own
signature hash and action class.

For a verdict out of the cache this needs an invariant: every cached verdict vouches for a token
under the revocations of the moment, and its key names that token by hash. The results are about a
set of tokens on which SHA-256 has no collision.
-/
import Saacp.Gateway
import Mathlib.Data.Set.Function

set_option autoImplicit false

open ByteCodec

namespace Saacp

open ZeroTrustGateway List Table

def decode_token (X : Crates) (token_b64 : List UInt8) : Option (Json × List UInt8) :=
  match parse_token_wire X token_b64 with
  | .error _ => none
  | .ok (token_json, signature) =>
    (parse_claims X token_json).toOption.map fun data => (data, signature)

variable {data : Json} {gw : ZeroTrustGateway}

theorem decode_token_eq_some {X : Crates} {token sig : List UInt8} :
    decode_token X token = some (data, sig) ↔ ∃ json, parse_token_wire X token = .ok (json, sig) ∧
        parse_claims X json = .ok data := by
  unfold decode_token
  constructor
  · intro h
    split at h
    · cases h
    · rename_i json signature' hwire
      obtain ⟨data', hdata, hsame⟩ := Option.map_eq_some_iff.mp h
      cases hsame
      refine ⟨json, hwire, ?_⟩
      cases hclaims : parse_claims X json with
      | error err =>
        rw [hclaims] at hdata
        cases hdata
      | ok data' =>
        rw [hclaims] at hdata
        cases hdata
        rfl
  · rintro ⟨json, hwire, hclaims⟩
    simp only [hwire, hclaims]
    rfl

def token_max_action_class (data : Json) : ℕ := (claim_u64 data "max_action_class").toNat

/-! ## The uncached decision -/

theorem check_revocation_ok {sig_hash : Text} {u : Unit}
    (h : gw.check_revocation sig_hash = .ok u) : gw.is_token_revoked sig_hash = false := by
  unfold check_revocation at h
  by_cases hrev : gw.is_token_revoked sig_hash
  · simp [hrev] at h
  · simpa using hrev

theorem check_blanket_ok {u : Unit}
    (h : gw.check_blanket data = .ok u) : gw.recalls data = false := by
  unfold check_blanket at h
  by_cases hrec : gw.recalls data
  · simp [hrec] at h
  · simpa using hrec

theorem check_expiry_ok {now : ℚ} {u : Unit} (h : check_expiry now data = .ok u) :
    now ≤ token_exp data := by
  unfold check_expiry at h
  by_cases hexp : token_exp data < now
  · simp [hexp] at h
  · exact not_lt.mp hexp

theorem max_action_class_claim_ok {c : UInt8}
    (h : max_action_class_claim data = .ok c) : c.toNat = token_max_action_class data := by
  unfold max_action_class_claim at h
  by_cases hbig : 255 < (claim_u64 data "max_action_class").toNat
  · simp [hbig] at h
  · rw [if_neg hbig, Except.ok.injEq] at h
    rw [← h, UInt64.toNat_toUInt8, token_max_action_class]
    omega

/-- Under the revocations of a gateway, the verdict `r` says the truth about a token. -/
def Vouches (H : Hashes) (X : Crates) (gw : ZeroTrustGateway) (token_b64 : List UInt8)
    (r : TokenValidationResult) (exp : ℚ) : Prop :=
  ∃ data signature, decode_token X token_b64 = some (data, signature) ∧ exp ≤ token_exp data ∧
    gw.is_token_revoked (sha256_hex H signature) = false ∧ gw.recalls data = false ∧
    r.token_sig_hash = sha256_hex H signature ∧
    r.max_action_class.toNat = token_max_action_class data

section

variable {H : Hashes} {X : Crates} {keys : KeySources} {target_agent : Text}
  {token secret : List UInt8} {now exp : ℚ} {r : TokenValidationResult}

theorem evaluate_token_ok
    (h : gw.evaluate_token H X keys target_agent token secret now = .ok (r, exp)) :
    now ≤ exp ∧ Vouches H X gw token r exp := by
  simp only [evaluate_token, bind_eq_ok] at h
  obtain ⟨⟨json, sig⟩, hwire, data, hdata, _, hrev, _, -, _, hblanket, _, hexp, _, -,
    c, hclass, depth, -, hres⟩ := h
  have hdec : decode_token X token = some (data, sig) :=
    decode_token_eq_some.mpr ⟨json, hwire, hdata⟩
  cases hres
  exact ⟨check_expiry_ok hexp, data, sig, hdec, le_refl _, check_revocation_ok hrev,
    check_blanket_ok hblanket, rfl, max_action_class_claim_ok hclass⟩

theorem Vouches.mono {gw' : ZeroTrustGateway} {exp' : ℚ} (h : Vouches H X gw token r exp)
    (hexp : exp' ≤ exp) (hrev : gw'.revoked_tokens ≤ gw.revoked_tokens)
    (hepochs : gw'.epochs = gw.epochs) : Vouches H X gw' token r exp' := by
  obtain ⟨data, sig, hdec, hle, hnot, hrec, hsig, hclass⟩ := h
  refine ⟨data, sig, hdec, hexp.trans hle, contains_eq_false_of_le hrev hnot, ?_, hsig, hclass⟩
  unfold recalls at hrec ⊢
  rwa [hepochs]

end

/-! ## The key of an Ed25519 token -/

def KeySources.key_for (keys : KeySources) (data : Json) : Option (List UInt8) :=
  (claim_str data "kid").bind fun kid =>
    (keys.verification_key kid).or (keys.pinned_key (token_issuer data))

theorem verify_ed25519_congr {X : Crates} {keys keys' : KeySources}
    (h : keys'.key_for data = keys.key_for data) (json sig : List UInt8) :
    verify_ed25519 X keys' data json sig = verify_ed25519 X keys data json sig := by
  unfold KeySources.key_for at h
  unfold verify_ed25519
  cases hkid : claim_str data "kid" with
  | none => rfl
  | some kid =>
    rw [hkid, Option.bind_some, Option.bind_some] at h
    simp only [h]

/-! ## Cache keys -/

theorem hexText_injective : Function.Injective hexText := by
  intro a b h
  have hdec := congrArg hexDecode h
  simpa using hdec

theorem length_hexText (bs : List UInt8) : (hexText bs).length = 2 * bs.length := by
  induction bs with
  | nil => rfl
  | cons b bs ih =>
    rw [hexText_cons, length_cons, length_cons, length_cons, ih]
    omega

def Hashes.Sized (H : Hashes) : Prop := ∀ msg, (H.sha256 msg).length = 32

theorem length_sha256_hex {H : Hashes} (hH : H.Sized) (msg : List UInt8) :
    (sha256_hex H msg).length = 64 := by
  rw [sha256_hex, length_hexText, hH]

/-- Keys agree only on the same target and the same hashes. The target may contain colons, so the
key is taken apart from its end. -/
theorem cache_key_parts {H : Hashes} (hH : H.Sized) {t t' : Text}
    {tok tok' s s' : List UInt8} (h : gw.cache_key H t tok s = gw.cache_key H t' tok' s') :
    t = t' ∧ H.sha256 tok = H.sha256 tok' ∧ H.sha256 s = H.sha256 s' := by
  unfold cache_key at h
  have hlen := length_sha256_hex hH
  obtain ⟨htarget, htail⟩ := append_inj' h (by simp only [length_cons, length_append, hlen])
  rw [cons.injEq] at htail
  obtain ⟨htok, htail⟩ := append_inj htail.2 (by rw [hlen, hlen])
  rw [cons.injEq] at htail
  have hsecret := (append_inj htail.2 (by rw [hlen, hlen])).1
  exact ⟨htarget, hexText_injective htok, hexText_injective hsecret⟩

/-! ## The cache -/

/-- Every cached verdict vouches for a token of `T`, up to its own expiry. -/
def CacheSound (H : Hashes) (X : Crates) (gw : ZeroTrustGateway) (T : Set (List UInt8)) : Prop :=
  ∀ i key entry, (gw.token_cache i).get key = some entry →
    ∃ target tok secret, tok ∈ T ∧ key = gw.cache_key H target tok secret ∧
      Vouches H X gw tok entry.result entry.expiry

section

variable {H : Hashes} {X : Crates} {T : Set (List UInt8)}

theorem cacheSound_of_empty (h : ∀ i, gw.token_cache i = .empty) : CacheSound H X gw T := by
  intro i key entry hget
  rw [h i, get_empty] at hget
  cases hget

theorem make_room_le (cache : Table Text CacheEntry) (now : ℚ) (generation : UInt64) :
    make_room cache now generation ≤ cache := by
  unfold make_room
  split
  · exact le_refl _
  · dsimp only
    split
    · exact cache.retain_le _
    · exact le_trans (removeAll_le _ _) (cache.retain_le _)

variable {tok : List UInt8}

theorem CacheSound.store {target : Text} {secret : List UInt8} {r : TokenValidationResult}
    {exp now : ℚ} (h : CacheSound H X gw T) (htok : tok ∈ T) (hr : Vouches H X gw tok r exp) :
    CacheSound H X (gw.store_verdict (gw.cache_key H target tok secret) r exp now) T := by
  intro i key entry hget
  -- an entry of the new cache is the stored one or was there before
  have hcases : (key = gw.cache_key H target tok secret ∧ entry.result = r ∧ entry.expiry ≤ exp) ∨
      (gw.token_cache i).get key = some entry := by
    simp only [store_verdict, Function.update_apply] at hget
    split at hget
    · rename_i hi
      apply forall_insert _ _ key entry hget
      · exact fun _ _ hold => .inr (hi ▸ make_room_le _ _ _ _ _ hold)
      · exact .inl ⟨rfl, rfl, min_le_right _ _⟩
    · exact .inr hget
  rcases hcases with ⟨hkey, hres, hexp⟩ | hold
  · refine ⟨target, tok, secret, htok, hkey, ?_⟩
    rw [hres]
    exact hr.mono hexp (le_refl _) rfl
  · obtain ⟨t, tok', s, hmem, hk, hv⟩ := h i key entry hold
    exact ⟨t, tok', s, hmem, hk, hv.mono (le_refl _) (le_refl _) rfl⟩

theorem cached_eq_some {key : Text} {now : ℚ} {result : TokenValidationResult} :
    gw.cached key now = some result ↔
      ∃ entry, (gw.token_cache (token_cache_shard key)).get key = some entry ∧
        now < entry.expiry ∧ entry.generation = gw.epochs.cache_generation ∧
        entry.result = result := by
  unfold cached
  constructor
  · intro h
    split at h
    · rename_i entry hget
      split at h
      · rename_i hfresh
        exact ⟨entry, hget, hfresh.1, hfresh.2, Option.some.inj h⟩
      · cases h
    · cases h
  · rintro ⟨entry, hget, hnow, hgen, rfl⟩
    simp only [hget]
    rw [if_pos ⟨hnow, hgen⟩]

theorem validate_lateral_movement_cases (gw : ZeroTrustGateway) (keys : KeySources) (target : Text)
    (token secret : List UInt8) (now : ℚ) : let key := gw.cache_key H target token secret
    let answer := gw.validate_lateral_movement H X keys target token secret now
    (∃ result, gw.cached key now = some result ∧ answer = (gw, .ok result)) ∨
      gw.cached key now = none ∧
        ((∃ err, gw.evaluate_token H X keys target token secret now = .error err ∧
            answer = (gw, .error err)) ∨
          ∃ result exp, gw.evaluate_token H X keys target token secret now = .ok (result, exp) ∧
            answer = (gw.store_verdict key result exp now, .ok result)) := by
  simp only [ZeroTrustGateway.validate_lateral_movement]
  cases hcached : gw.cached (gw.cache_key H target token secret) now with
  | some result => exact .inl ⟨result, rfl, rfl⟩
  | none =>
    refine .inr ⟨rfl, ?_⟩
    cases heval : gw.evaluate_token H X keys target token secret now with
    | error err => exact .inl ⟨err, rfl, rfl⟩
    | ok verdict =>
      obtain ⟨result, exp⟩ := verdict
      exact .inr ⟨result, exp, rfl, rfl⟩

/-- **What Gate 1.0 accepts**, under a sound cache and with no two tokens of `T` sharing a hash. -/
theorem validate_lateral_movement_ok {keys : KeySources} {target_agent : Text}
    {secret : List UInt8} {now : ℚ} {r : TokenValidationResult} (hH : H.Sized)
    (hT : Set.InjOn H.sha256 T) (hcache : CacheSound H X gw T) (htok : tok ∈ T)
    (h : (gw.validate_lateral_movement H X keys target_agent tok secret now).2 = .ok r) :
    Vouches H X gw tok r now := by
  obtain ⟨result, hcached, hanswer⟩ | ⟨-, ⟨err, -, hanswer⟩ | ⟨result, exp, heval, hanswer⟩⟩ :=
    validate_lateral_movement_cases (H := H) (X := X) gw keys target_agent tok secret now
  all_goals
    rw [hanswer] at h
    cases h
  · -- out of the cache: the entry is of a token with the same hash, hence of this one
    obtain ⟨entry, hget, hfresh, -, rfl⟩ := cached_eq_some.mp hcached
    obtain ⟨t, tok', s, hmem, hkey, hv⟩ := hcache _ _ _ hget
    rw [hT htok hmem (cache_key_parts hH hkey).2.1]
    exact hv.mono hfresh.le (le_refl _) rfl
  · obtain ⟨hle, hv⟩ := evaluate_token_ok heval
    exact hv.mono hle (le_refl _) rfl

theorem CacheSound.validate (h : CacheSound H X gw T) (htok : tok ∈ T) (keys : KeySources)
    (target_agent : Text) (secret : List UInt8) (now : ℚ) :
    let gw' := (gw.validate_lateral_movement H X keys target_agent tok secret now).1
    CacheSound H X gw' T ∧ gw'.revoked_tokens = gw.revoked_tokens ∧ gw'.epochs = gw.epochs := by
  unfold validate_lateral_movement
  split
  · exact ⟨h, rfl, rfl⟩
  · split
    · exact ⟨h, rfl, rfl⟩
    · rename_i heval
      exact ⟨h.store htok (evaluate_token_ok heval).2, rfl, rfl⟩

theorem CacheSound.prune (h : CacheSound H X gw T) (now : ℚ) :
    CacheSound H X (gw.prune_expired_revocations now) T := by
  intro i key entry hget
  obtain ⟨target, tok, secret, hmem, hkey, hv⟩ := h i key entry hget
  exact ⟨target, tok, secret, hmem, hkey, hv.mono (le_refl _) (retain_le _ _) rfl⟩

theorem CacheSound.revoke_token (h : CacheSound H X gw T) (token : List UInt8) (now : ℚ) :
    CacheSound H X (gw.revoke_token H X token now).1 T := by
  unfold ZeroTrustGateway.revoke_token
  split
  · exact h
  · split
    · exact h
    · exact cacheSound_of_empty fun _ => rfl

theorem CacheSound.register_issuer_key (h : CacheSound H X gw T) (issuer : Text)
    (secret : List UInt8) : CacheSound H X (gw.register_issuer_key X issuer secret).1 T := by
  unfold ZeroTrustGateway.register_issuer_key
  split_ifs
  · exact h
  · exact h
  · exact h
  · exact h
  · exact cacheSound_of_empty fun _ => rfl

theorem enforce_revoked_tokens_cap_epochs (gw : ZeroTrustGateway) (now : ℚ) :
    (gw.enforce_revoked_tokens_cap now).epochs = gw.epochs := by
  unfold enforce_revoked_tokens_cap
  rw [apply_ite epochs, apply_ite epochs]
  exact ite_eq_left_iff.mpr fun _ => ite_eq_left_iff.mpr fun _ => rfl

theorem revoke_token_blanket (token : List UInt8) (now : ℚ) :
    (gw.revoke_token H X token now).1.epochs.blanket_revoked_before =
      gw.epochs.blanket_revoked_before := by
  unfold revoke_token
  split
  · rfl
  · split
    · rfl
    · show (enforce_revoked_tokens_cap _ now).epochs.blanket_revoked_before = _
      rw [enforce_revoked_tokens_cap_epochs]

end

/-! ## A concrete token

The token is signed with HMAC-SHA256 under a key of 32 sevens and carried as base64, so that a run
with it goes through the real hash. -/

def base64_value (b : UInt8) : Option ℕ :=
  if 65 ≤ b ∧ b ≤ 90 then some (b.toNat - 65)
  else if 97 ≤ b ∧ b ≤ 122 then some (b.toNat - 71)
  else if 48 ≤ b ∧ b ≤ 57 then some (b.toNat + 4)
  else if b = 43 then some 62
  else if b = 47 then some 63
  else none

def sample_base64_decode : List UInt8 → Option (List UInt8)
  | [] => some []
  | [a, b, 61, 61] => do
    let n := (← base64_value a) * 64 + (← base64_value b)
    if n % 16 = 0 then some (toBE 1 (n / 16)) else none
  | [a, b, c, 61] => do
    let n := ((← base64_value a) * 64 + (← base64_value b)) * 64 + (← base64_value c)
    if n % 4 = 0 then some (toBE 2 (n / 4)) else none
  | a :: b :: c :: d :: rest => do
    let n := (((← base64_value a) * 64 + (← base64_value b)) * 64 + (← base64_value c)) * 64 +
      (← base64_value d)
    return toBE 3 n ++ (← sample_base64_decode rest)
  | _ => none

def sampleClaims : Json :=
  .obj [("allow", .arr [.str (ascii "svc")]), ("exp", .pos_int 2000), ("forbid", .arr []),
    ("iat", .pos_int 500), ("iss", .str (ascii "ops")), ("max_action_class", .pos_int 1)]

def sampleToken : Text :=
  ascii ("AAAAU3siYWxsb3ciOlsic3ZjIl0sImV4cCI6MjAwMCwiZm9yYmlkIjpbXSwiaWF0Ijo1MDAsImlzcyI6Im9wcy" ++
    "IsIm1heF9hY3Rpb25fY2xhc3MiOjF9WTHhmBEdR2Za0ZkdKLqEu5gkScnVpNhnJoI9fzW0LQ8=")

def samplePayload : Json := .obj [("_capability_token", .str sampleToken)]

def sampleCrates : Crates where
  base64_decode := sample_base64_decode
  json_from_slice text :=
    [sampleClaims, samplePayload].find? fun j => j.compact (fun _ => []) = text
  json_to_string := Json.compact fun _ => []
  is_utf8 bs := bs.all (· < 128)
  from_utf8_lossy := id
  trim_is_empty bs := bs.all fun b => b = 32 ∨ (9 ≤ b ∧ b ≤ 13)
  ed25519_key_ok _ := false
  ed25519_verify _ _ _ := false

end Saacp
