/-
**Whether revoking narrows access**: a token that is rejected should stay rejected, whatever is
revoked after that. `Narrowing` rules out, step by step, the operations that let tokens in again;
`revoking_narrows` is the property under it.
-/
import Saacp.CacheTransparency

set_option autoImplicit false

open ByteCodec

namespace Saacp

open ZeroTrustGateway

/-- A revocation, and what the wall clock says when it is made. -/
inductive Revocation
  | revoke_token (token_b64 : List UInt8) (now : ℚ)
  | revoke_all_tokens (now : ℚ)

namespace ZeroTrustGateway

variable (H : Hashes) (X : Crates) (gw : ZeroTrustGateway)

def revoke : Revocation → ZeroTrustGateway
  | .revoke_token token now => (gw.revoke_token H X token now).1
  | .revoke_all_tokens now => gw.revoke_all_tokens now

def revoke_each (rs : List Revocation) : ZeroTrustGateway :=
  rs.foldl (revoke H X) gw

def Rejects (keys : KeySources) (target_agent : Text)
    (token_b64 issuer_secret : List UInt8) (now : ℚ) : Prop :=
  ∀ result, (gw.validate_lateral_movement H X keys target_agent token_b64 issuer_secret now).2 ≠
    .ok result

/-- The token is verified with an Ed25519 key, or not at all. -/
def Asymmetric (token_b64 : List UInt8) : Prop :=
  gw.epochs.strict_asymmetric_mode = true ∨
    ∀ data signature, decode_token X token_b64 = some (data, signature) →
      token_sig_alg data = ascii "ed25519"

/-- There is room; a recall finds no issuer keys that matter, and the clock has not gone back. -/
def Narrowing (token_b64 : List UInt8) : Revocation → Prop
  | .revoke_token _ _ => gw.revoked_tokens.len < REVOKED_TOKENS_MAX
  | .revoke_all_tokens now =>
    gw.epochs.blanket_revoked_before ≤ now.floor ∧
      (gw.trusted_issuer_keys.len = 0 ∨ gw.Asymmetric X token_b64)

def NarrowingEach (gw : ZeroTrustGateway) (token_b64 : List UInt8) : List Revocation → Prop
  | [] => True
  | r :: rs => gw.Narrowing X token_b64 r ∧ (gw.revoke H X r).NarrowingEach token_b64 rs

end ZeroTrustGateway

section Narrow

variable {H : Hashes} {X : Crates} {gw gw' : ZeroTrustGateway} {keys : KeySources}
  {target_agent : Text} {token secret : List UInt8} {now : ℚ}

theorem rejects_iff : gw.Rejects H X keys target_agent token secret now ↔
    ((gw.validate_lateral_movement H X keys target_agent token secret now).2).isOk = false := by
  unfold ZeroTrustGateway.Rejects
  cases (gw.validate_lateral_movement H X keys target_agent token secret now).2 with
  | error err => exact ⟨fun _ => rfl, fun _ => nofun⟩
  | ok found => exact ⟨fun h => absurd rfl (h found), nofun⟩

/-! What narrows a gateway: more revocations, a later recall, the same issuer keys. -/

variable (hmode : gw'.epochs.strict_asymmetric_mode = gw.epochs.strict_asymmetric_mode)
  (hblanket : gw.epochs.blanket_revoked_before ≤ gw'.epochs.blanket_revoked_before)
  (hrevoked : ∀ sig_hash, gw.is_token_revoked sig_hash = true →
    gw'.is_token_revoked sig_hash = true)
  (hregistry : gw'.trusted_issuer_keys = gw.trusted_issuer_keys ∨ gw.Asymmetric X token)
include hmode hblanket hrevoked hregistry

theorem evaluate_token_narrow {verdict : TokenValidationResult × ℚ}
    (h : gw'.evaluate_token H X keys target_agent token secret now = .ok verdict) :
    gw.evaluate_token H X keys target_agent token secret now = .ok verdict := by
  obtain ⟨result, exp⟩ := verdict
  obtain ⟨json, sig, data, hparse, hnot, hverified, hafter, hfresh, hclaims⟩ :=
    evaluate_token_eq_ok.mp h
  refine evaluate_token_eq_ok.mpr ⟨json, sig, data, hparse, ?_, ?_, ?_, hfresh, hclaims⟩
  · rw [← Bool.not_eq_true]
    intro hyes
    rw [hrevoked _ hyes] at hnot
    cases hnot
  · unfold ZeroTrustGateway.verify_signature at hverified ⊢
    rw [hmode] at hverified
    split_ifs at hverified ⊢ with hstrict halg
    · -- an HMAC was verified, so the issuer keys are the same
      rcases hregistry with hsame | hmode' | hed
      · unfold verify_hmac at hverified ⊢
        rw [hsame] at hverified
        exact hverified
      · exact absurd ⟨hmode', halg⟩ hstrict
      · exact absurd (hed data sig (decode_of_parse hparse).2) halg
    · exact hverified
  · unfold check_blanket at hafter ⊢
    by_cases hrecalls : gw.recalls data = true
    · -- what was recalled before still is
      have hrecalls' : gw'.recalls data = true := by
        simp only [recalls, Bool.and_eq_true, decide_eq_true_eq] at hrecalls ⊢
        exact ⟨hrecalls.1.trans_le hblanket, hrecalls.2.trans_le hblanket⟩
      rw [if_pos hrecalls'] at hafter
      cases hafter
    · rw [if_neg hrecalls]

theorem rejects_narrow (hcache : ∀ shard, gw'.token_cache shard = .empty)
    (hrejects : gw.Rejects H X keys target_agent token secret now) :
    gw'.Rejects H X keys target_agent token secret now := by
  intro result hok
  obtain ⟨served, hserved, -⟩ | ⟨-, ⟨err, -, hanswer⟩ | ⟨found, exp, heval, -⟩⟩ :=
    validate_lateral_movement_cases (H := H) (X := X) gw' keys target_agent token secret now
  · rw [cached_of_empty hcache] at hserved
    cases hserved
  · rw [hanswer] at hok
    cases hok
  · -- the gateway it is rejected by would have evaluated, or served, a verdict too
    have hbefore := evaluate_token_narrow hmode hblanket hrevoked hregistry heval
    obtain ⟨served, -, hanswer⟩ | ⟨-, ⟨err, heval', -⟩ | ⟨found', exp', -, hanswer⟩⟩ :=
      validate_lateral_movement_cases (H := H) (X := X) gw keys target_agent token secret now
    · exact hrejects served (by rw [hanswer])
    · rw [hbefore] at heval'
      cases heval'
    · exact hrejects found' (by rw [hanswer])

omit hmode hblanket hrevoked hregistry

theorem revoke_token_below_cap (hroom : gw.revoked_tokens.len < REVOKED_TOKENS_MAX)
    (token : List UInt8) (clock : ℚ) :
    (gw.revoke_token H X token clock).1 = gw ∨ ∃ sig_hash exp, (gw.revoke_token H X token clock).1 =
        ({ gw with revoked_tokens := gw.revoked_tokens.insert sig_hash exp }.clear_token_cache
          |>.update_epochs fun e => { e with revocation_epoch := e.revocation_epoch + 1 }) := by
  unfold ZeroTrustGateway.revoke_token
  split
  · exact .inl rfl
  · rename_i json sig hwire
    split
    · exact .inl rfl
    · refine .inr ⟨sha256_hex H sig, revocation_deadline X json clock, ?_⟩
      have hlen := Table.len_insert_le gw.revoked_tokens (sha256_hex H sig)
        (revocation_deadline X json clock)
      rw [ZeroTrustGateway.enforce_revoked_tokens_cap, if_pos (hlen.trans hroom)]

theorem Rejects.revoke {r : Revocation} (hnarrowing : gw.Narrowing X token r)
    (h : gw.Rejects H X keys target_agent token secret now) :
    (gw.revoke H X r).Rejects H X keys target_agent token secret now := by
  cases r with
  | revoke_token revoked clock =>
    obtain hsame | ⟨sig_hash, exp, hrevoked⟩ :=
      revoke_token_below_cap (H := H) (X := X) hnarrowing revoked clock
    · rw [ZeroTrustGateway.revoke, hsame]
      exact h
    · rw [ZeroTrustGateway.revoke, hrevoked]
      refine rejects_narrow ?_ ?_ ?_ ?_ (fun _ => rfl) h
      · rfl
      · exact le_refl _
      swap
      · exact .inl rfl
      intro sig_hash' hyes
      show (gw.revoked_tokens.insert sig_hash exp).contains sig_hash' = true
      rw [Table.contains, Table.get_insert]
      split_ifs
      · rfl
      · exact hyes
  | revoke_all_tokens clock =>
    obtain ⟨hclock, hkeys⟩ := hnarrowing
    refine rejects_narrow ?_ ?_ ?_ ?_ (fun _ => rfl) h
    · rfl
    · exact hclock
    · exact fun _ hyes => hyes
    · rcases hkeys with hnone | hasymmetric
      · exact .inl (Table.eq_empty_of_len hnone).symm
      · exact .inr hasymmetric

end Narrow

/-- **Revoking narrows access.** A token that is rejected is still rejected, for the same target,
with the same secret and at the same second, after any revocations that meet the conditions. -/
theorem revoking_narrows {H : Hashes} {X : Crates} {keys : KeySources} {target_agent : Text}
    {token_b64 issuer_secret : List UInt8} {now : ℚ} (gw : ZeroTrustGateway) (rs : List Revocation)
    (hnarrowing : gw.NarrowingEach H X token_b64 rs)
    (h : gw.Rejects H X keys target_agent token_b64 issuer_secret now) :
    (gw.revoke_each H X rs).Rejects H X keys target_agent token_b64 issuer_secret now := by
  induction rs generalizing gw with
  | nil => exact h
  | cons r rs ih => exact ih (gw.revoke H X r) hnarrowing.2 (Rejects.revoke hnarrowing.1 h)

def sampleNarrow (key : List UInt8) : ZeroTrustGateway :=
  { ZeroTrustGateway.new with
    trusted_issuer_keys := Table.empty.insert (ascii "ops") key }

def sampleNoKeys : KeySources := ⟨fun _ => none, fun _ => none⟩

theorem revoking_narrows_sample : (ZeroTrustGateway.new.revoke_each sampleHashes sampleCrates
      [.revoke_token sampleToken 1000, .revoke_all_tokens 1010]).Rejects sampleHashes sampleCrates
      sampleNoKeys (ascii "svc") sampleToken (List.replicate 32 9) 1000 := by
  obtain ⟨hroom, hclock, hnone, hrejected⟩ : new.revoked_tokens.len < REVOKED_TOKENS_MAX ∧
      (new.revoke sampleHashes sampleCrates
        (.revoke_token sampleToken 1000)).epochs.blanket_revoked_before ≤ (1010 : ℚ).floor ∧
      (new.revoke sampleHashes sampleCrates
        (.revoke_token sampleToken 1000)).trusted_issuer_keys.len = 0 ∧
      ((new.validate_lateral_movement sampleHashes sampleCrates sampleNoKeys
        (ascii "svc") sampleToken (List.replicate 32 9) 1000).2).isOk = false := by
    decide +kernel
  exact revoking_narrows _ _ ⟨hroom, ⟨hclock, .inl hnone⟩, trivial⟩ (rejects_iff.mpr hrejected)

/-- **A recall lets a token in.** The issuer has a key that the token is not signed with; after the
recall, in the second in which the token was issued, the secret of the caller is taken instead. -/
theorem recall_readmits : let gw := sampleNarrow (List.replicate 32 9)
    gw.Rejects sampleHashes sampleCrates sampleNoKeys (ascii "svc") sampleToken
        (List.replicate 32 7) 1000 ∧
      ¬ (gw.revoke_each sampleHashes sampleCrates [.revoke_all_tokens 500]).Rejects sampleHashes
        sampleCrates sampleNoKeys (ascii "svc") sampleToken (List.replicate 32 7) 1000 := by
  simp only [rejects_iff]
  decide +kernel

end Saacp
