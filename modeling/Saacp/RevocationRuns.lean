/-
**Revocation over runs**: a token that `revoke_token` has taken back stays out.

A revocation entry keeps the signature hash of a token; as long as it is kept every evaluation of
the token fails, and a verdict from before it is never served. So everything rests on the entry, and
`Retained` is what is needed of it: it is dropped only when the token has expired.
`retained_below_cap` says when the program keeps it so long.
-/
import Saacp.GatewayRuns

set_option autoImplicit false

open ByteCodec Atomic

namespace Saacp

open Execution List Table GatewayAnswer GatewaySection Prog GatewayCall Option Nat

/-! ## What a section does to the revocations -/

namespace GatewaySection

def revokes {γ : Type} : GatewaySection γ → Option (Text × ℚ)
  | .revoke sig_hash exp => some (sig_hash, exp)
  | _ => none

def prunes {γ : Type} : GatewaySection γ → Option ℚ
  | .revoked_prune _ limit => some limit
  | _ => none

end GatewaySection

section Frame

variable {H : Hashes} {s : SharedGateway} {γ : Type} {act : GatewaySection γ} {sig_hash : Text}
  {exp : ℚ}

theorem exec_revocation (h : (s.exec H act).1.gateway.revoked_tokens.get sig_hash = some exp) :
    act.revokes = some (sig_hash, exp) ∨ s.gateway.revoked_tokens.get sig_hash = some exp := by
  cases act with
  | revoke sig_hash' exp' =>
    apply forall_insert (t := s.gateway.revoked_tokens) _ _ sig_hash exp h
    · exact fun _ _ => .inr
    · exact .inl rfl
  | revoked_prune shard now => exact .inr (retain_le _ _ _ _ h)
  | revoked_remove sig_hash' => exact .inr (remove_le _ _ _ _ h)
  | issuer_insert issuer secret =>
    obtain ⟨keys, hkeys⟩ := insert_issuer_frame H s issuer secret
    rw [hkeys] at h
    exact .inr h
  | _ => exact .inr h

theorem exec_dropped (h : s.gateway.revoked_tokens.get sig_hash = some exp)
    (hnot : (s.exec H act).1.gateway.is_token_revoked sig_hash = false) :
    act.kind = .forget ∧ ∀ now, act.prunes = some now → exp ≤ now := by
  have hstill : s.gateway.is_token_revoked sig_hash = true := by
    rw [ZeroTrustGateway.is_token_revoked, Table.contains, h]
    rfl
  cases act with
  | revoke sig_hash' exp' =>
    have hget : ((s.gateway.revoked_tokens.insert sig_hash' exp').get sig_hash).isSome = false :=
      hnot
    rw [get_insert] at hget
    split at hget
    · cases hget
    · rw [h] at hget
      cases hget
  | revoked_prune shard now =>
    refine ⟨rfl, fun now' hnow => ?_⟩
    cases hnow
    by_contra hlt
    have hkept : (s.gateway.revoked_tokens.retain fun hash exp =>
        revoked_token_shard_index hash != shard || now < exp).get sig_hash = some exp := by
      refine get_retain.mpr ⟨h, ?_⟩
      rw [decide_eq_true (not_le.mp hlt), Bool.or_true]
    cases (congrArg Option.isSome hkept).symm.trans hnot
  | revoked_remove sig_hash' => exact ⟨rfl, by rintro _ ⟨⟩⟩
  | issuer_insert issuer secret =>
    obtain ⟨keys, hkeys⟩ := insert_issuer_frame H s issuer secret
    rw [hkeys] at hnot
    cases hstill.symm.trans hnot
  | _ => cases hstill.symm.trans hnot

end Frame

def claimed_expiry (X : Crates) (token_json : List UInt8) : Option ℚ :=
  ((X.json_from_slice token_json).bind (·.get "exp")).bind Json.as_rat

def GatewayCall.revoked_hash (H : Hashes) (X : Crates) : GatewayCall → Option Text
  | .revoke_token token => (parse_revoked H X token).toOption.map Prod.snd
  | _ => none

theorem claimed_expiry_of_decode {X : Crates} {token_b64 json sig signature' : List UInt8}
    {data : Json} (hwire : parse_token_wire X token_b64 = .ok (json, signature'))
    (hdecode : decode_token X token_b64 = some (data, sig)) (hexp : 0 < token_exp data) :
    claimed_expiry X json = some (token_exp data) := by
  obtain ⟨token_json', hwire', hclaims⟩ := decode_token_eq_some.mp hdecode
  cases hwire.symm.trans hwire'
  have hjson : X.json_from_slice json = some data := by
    unfold parse_claims at hclaims
    split at hclaims
    · cases hclaims
    · rename_i fields hsome
      cases hclaims
      exact hsome
    · cases hclaims
  rw [claimed_expiry, hjson, bind_some]
  -- a token that has an expiry at all has an integer there
  unfold token_exp claim_u64 at hexp ⊢
  cases hget : data.get "exp" with
  | none =>
    rw [hget] at hexp
    exact absurd hexp (by decide)
  | some v =>
    cases v with
    | pos_int n => rfl
    | _ =>
      rw [hget] at hexp
      exact absurd hexp (by simp [Json.as_u64])

theorem wire_of_parse_revoked {H : Hashes} {X : Crates} {token json : List UInt8}
    {sig_hash : Text} (h : parse_revoked H X token = .ok (json, sig_hash)) :
    ∃ sig, parse_token_wire X token = .ok (json, sig) ∧ sig_hash = sha256_hex H sig := by
  unfold parse_revoked at h
  split at h
  · cases h
  · rename_i token_json' sig hwire
    split at h
    · cases h
    · cases h
      exact ⟨sig, hwire, rfl⟩

def GatewayAnswer.revokes : GatewayAnswer → Bool
  | .revoked (.ok _) => true
  | _ => false

theorem GatewayAnswer.revokes_iff {answer : Option GatewayAnswer} :
    answer.any revokes = true ↔ answer = some (.revoked (.ok ())) := by
  cases answer with
  | none => simp
  | some a => fun_cases revokes a <;> simp_all [revokes]

/-- What `revoke_token` does after it has made its entry. -/
def after_revoking : Prog GatewaySection (Except String Unit) :=
  enforce_revoked_tokens_cap.bind fun _ =>
    clear_token_cache.bind fun _ =>
      (update_epochs fun e => { e with revocation_epoch := e.revocation_epoch + 1 }).map
        fun _ => .ok ()

theorem after_revoking_only : after_revoking.Only (OfKinds [.read, .forget, .clear, .publish]) := by
  refine (enforce_revoked_tokens_cap_only (.head _) (.tail _ (.head _))).bind fun _ => ?_
  refine (clear_token_cache_only (.tail _ (.tail _ (.head _)))).bind fun _ => ?_
  exact (update_epochs_only (.tail _ (.tail _ (.tail _ (.head _)))) fun _ => rfl).map _

namespace GatewayRun

variable {H : Hashes} {X : Crates} {r : GatewayRun H X}

/-! ## Revoked, and kept -/

/-- The signature is revoked, or the time of the token is over. -/
def Out (r : GatewayRun H X) (n : ℕ) (sig_hash : Text) (exp : ℚ) : Prop :=
  (r.run.state n).gateway.is_token_revoked sig_hash = true ∨ exp < (r.run.state n).clock

/-- A revocation is dropped only when the time of the token is over. -/
def Retained (r : GatewayRun H X) (sig_hash : Text) (exp : ℚ) : Prop :=
  ∀ n, (r.run.state n).gateway.is_token_revoked sig_hash = true →
    (r.run.state (n + 1)).gateway.is_token_revoked sig_hash = false → exp < (r.run.state n).clock

variable {n i : ℕ} {sig_hash : Text} {exp : ℚ} {token : List UInt8}

/-- **Once out, out for good.** -/
theorem Out.mono {m : ℕ} (hretained : r.Retained sig_hash exp)
    (h : r.Out n sig_hash exp) (hnm : n ≤ m) : r.Out m sig_hash exp := by
  induction m, hnm using le_induction with
  | base => exact h
  | succ m hnm ih =>
    rcases ih with hrevoked | hover
    · by_cases hstill : (r.run.state (m + 1)).gateway.is_token_revoked sig_hash = true
      · exact .inl hstill
      · have hover := hretained m hrevoked (Bool.not_eq_true _ ▸ hstill)
        exact .inr (hover.trans_le (clock_mono (le_succ m)))
    · exact .inr (hover.trans_le (clock_mono (le_succ m)))

/-! ## When a revocation is retained -/

def revocations (r : GatewayRun H X) : List Text := r.calls.filterMap (·.revoked_hash H X)

/-- A call of the run revokes this hash, with this expiry if its token names one. -/
def Revoked (r : GatewayRun H X) (sig_hash : Text) (exp : ℚ) : Prop :=
  ∃ token token_json, .revoke_token token ∈ r.calls ∧
    parse_revoked H X token = .ok (token_json, sig_hash) ∧
    ∀ exp', claimed_expiry X token_json = some exp' → exp = exp'

theorem Revoked.mem_revocations (h : r.Revoked sig_hash exp) : sig_hash ∈ r.revocations := by
  obtain ⟨token, json, hmem, hparse, -⟩ := h
  refine mem_filterMap.mpr ⟨_, hmem, ?_⟩
  rw [revoked_hash, hparse]
  rfl

theorem revoke_trail_step {γ : Type} {act : GatewaySection γ}
    {k : γ → Prog GatewaySection (Except String Unit)}
    (h : r.run.Trail i (revoke_token H X token) 0 (.step act k) n) (hkind : act.kind ≠ .read) :
    ∃ json sig_hash exp m, parse_revoked H X token = .ok (json, sig_hash) ∧
      (∀ exp', claimed_expiry X json = some exp' → exp = exp') ∧
      r.run.Trail i (.step (.revoke sig_hash exp) fun _ => after_revoking) m (.step act k) n := by
  obtain ⟨parsed, n₁, hparse, htrail⟩ | ⟨γ, act, k', -, hnone⟩ := h.of_bind
  · have hparsed := ret.inj hparse.of_ret
    cases parsed with
    | error err => cases htrail.of_ret
    | ok parsed =>
      obtain ⟨json, sig_hash⟩ := parsed
      obtain ⟨exp, n₂, hexp, htrail⟩ | ⟨γ', act', k', hsame, hexp⟩ := htrail.of_bind
      · refine ⟨json, sig_hash, exp, n₂, hparsed.symm, fun exp' hclaim => ?_, htrail⟩
        unfold revocation_expiry at hexp
        rw [claimed_expiry] at hclaim
        rw [hclaim] at hexp
        exact ret.inj hexp.of_ret
      · -- the clock, for a token without an expiry, is only read
        have honly : (revocation_expiry X json).Only (OfKinds [.read]) :=
          revocation_expiry_only _ (.head _)
        cases hsame
        exact absurd (mem_singleton.mp (hexp.only honly).1.1) hkind
  · cases hnone.of_ret

theorem revoked_of_performs
    (h : r.run.Performs n i (.revoke sig_hash exp)) : r.Revoked sig_hash exp := by
  obtain ⟨c, hc, hkind⟩ := call_of_performs h
  cases c with
  | revoke_token token =>
    obtain ⟨k, -, htrail⟩ := h.trail_map (prog_zero hc)
    obtain ⟨json, sig_hash', exp', m, hparse, hclaim, htrail⟩ := revoke_trail_step htrail nofun
    obtain hsame | ⟨_, _, -, -, -, -, htrail⟩ := htrail.of_step
    · cases hsame
      exact ⟨token, json, mem_of_getElem? hc, hparse, hclaim⟩
    · exact nomatch (htrail.only after_revoking_only).1
  | _ => exact absurd hkind.1 (by simp [kinds, kind])

variable (hstart : r.start.gateway.revoked_tokens = .empty)
include hstart

theorem revocation_origin (n : ℕ)
    (h : (r.run.state n).gateway.revoked_tokens.get sig_hash = some exp) :
    r.Revoked sig_hash exp := by
  induction n with
  | zero =>
    have hnone : r.start.gateway.revoked_tokens.get sig_hash = none := by
      rw [hstart, get_empty]
    cases hnone.symm.trans h
  | succ n ih =>
    refine r.run.rel_succ (fun s s' => s'.gateway.revoked_tokens.get sig_hash = some exp →
      (s.gateway.revoked_tokens.get sig_hash = some exp → r.Revoked sig_hash exp) →
        r.Revoked sig_hash exp) ?_ ?_ ?_ h ih
    · intro hget hold
      exact hold hget
    · intro now hget hold
      exact hold hget
    · intro i inp γ act hact hget hold
      obtain hrevokes | hget := exec_revocation hget
      · cases act with
        | revoke sig_hash' exp' =>
          cases hrevokes
          exact revoked_of_performs hact
        | _ => cases hrevokes
      · exact hold hget

theorem length_revoked_shard_le (n : ℕ) (shard : Fin REVOKED_TOKENS_SHARDS) :
    ((r.run.state n).revoked_shard shard).length ≤
      (r.revocations.filter fun hash => revoked_token_shard_index hash == shard).length := by
  have hnodup : (((r.run.state n).revoked_shard shard).map Prod.fst).Nodup :=
    ((r.run.state n).gateway.revoked_tokens.nodup_entries).sublist
      (List.Sublist.map Prod.fst filter_sublist)
  rw [← length_map (f := Prod.fst)]
  refine (subperm_of_subset hnodup ?_).length_le
  intro hash hmem
  obtain ⟨⟨hash', exp⟩, hentry, rfl⟩ := mem_map.mp hmem
  obtain ⟨hentry, hshard⟩ := mem_filter.mp hentry
  exact mem_filter.mpr
    ⟨(revocation_origin hstart n (mem_entries.mp hentry)).mem_revocations, hshard⟩

theorem revoked_tokens_len_le {l total : ℕ}
    (h : r.run.Trail i revoked_tokens_len n (.ret total) l) : total ≤ r.revocations.length := by
  obtain ⟨lens, m, hlens, hsum⟩ := h.of_bind_ret
  cases hsum.of_ret
  rw [← sum_length_shards revoked_token_shard_index r.revocations]
  have hanswers := hlens.of_each_ret
  clear h hlens hsum
  generalize List.finRange REVOKED_TOKENS_SHARDS = shards at hanswers
  induction hanswers with
  | nil => exact le_refl _
  | cons hlen _ ih =>
    obtain ⟨x, _, rfl⟩ := hlen
    rw [sum_cons, map_cons, sum_cons]
    exact Nat.add_le_add (length_revoked_shard_le hstart x _) ih

variable (hcap : r.revocations.length ≤ REVOKED_TOKENS_MAX)
include hcap

theorem enforce_below_cap {l : ℕ} {γ : Type}
    {act : GatewaySection γ} {k : γ → Prog GatewaySection Unit}
    (h : r.run.Trail i enforce_revoked_tokens_cap n (.step act k) l) : act.kind = .read := by
  obtain ⟨before, m, hlen, htrail⟩ | ⟨γ', act', k', hsame, hlen⟩ := h.of_bind
  · rw [if_pos ((revoked_tokens_len_le hstart hlen).trans hcap)] at htrail
    cases htrail.of_ret
  · have honly : revoked_tokens_len.Only fun act => act.kind = .read :=
      (Prog.Only.each (fun _ => rfl) _).map _
    cases hsame
    exact (hlen.only honly).1

theorem forget_below_cap {γ : Type} {act : GatewaySection γ} (h : r.run.Performs n i act)
    (hkind : act.kind = .forget) : ∃ w, w < n ∧ act.prunes = some (r.run.state w).clock := by
  obtain ⟨c, hc, hkinds⟩ := call_of_performs h
  have hforget := hkinds.1
  rw [hkind] at hforget
  cases c with
  | revoke_token token =>
    obtain ⟨k, -, htrail⟩ := h.trail_map (prog_zero hc)
    obtain ⟨json, sig_hash, exp, m, -, -, htrail⟩ := revoke_trail_step htrail (by rw [hkind]; nofun)
    obtain hsame | ⟨_, _, -, -, -, -, htrail⟩ := htrail.of_step
    · have hnext := congrArg (next kind) hsame
      cases hkind.symm.trans (some.inj hnext)
    obtain ⟨_, m', -, htrail⟩ | ⟨γ', act', k', hsame, htrail⟩ := htrail.of_bind
    · -- what comes after it clears and publishes
      have honly : (clear_token_cache.bind fun _ => (update_epochs fun e => { e with
          revocation_epoch := e.revocation_epoch + 1 }).map fun _ =>
            (Except.ok () : Except String Unit)).Only (OfKinds [.clear, .publish]) :=
        (clear_token_cache_only (.head _)).bind fun _ =>
          (update_epochs_only (.tail _ (.head _)) fun _ => rfl).map _
      have hmem := (htrail.only honly).1.1
      rw [hkind] at hmem
      exact absurd hmem (by decide)
    · have hnext := congrArg (next kind) hsame
      have hread := enforce_below_cap hstart hcap htrail
      rw [Prog.next, Prog.bind, Prog.next, hkind, hread] at hnext
      cases hnext
  | prune_expired_revocations =>
    obtain ⟨k, -, htrail⟩ := h.trail_map (prog_zero hc)
    obtain hsame | ⟨w, _, -, hwn, -, -, htrail⟩ := htrail.of_step
    · have hnext := congrArg (next kind) hsame
      cases hkind.symm.trans (some.inj hnext)
    have honly : ((each_shard fun shard : Fin REVOKED_TOKENS_SHARDS =>
        .revoked_prune shard (r.run.state w).clock).map List.sum).Only
          fun act => act.prunes = some (r.run.state w).clock :=
      (Prog.Only.each (fun _ => rfl) _).map _
    exact ⟨w, hwn, (htrail.only honly).1⟩
  | _ => exact absurd hforget (by simp [kinds])

/-- **A revocation is retained** below the cap, if no other token with its signature claims another
expiry and the clock never stands at the expiry. -/
theorem retained_below_cap (hsame : ∀ token json, .revoke_token token ∈ r.calls →
      parse_revoked H X token = .ok (json, sig_hash) →
      claimed_expiry X json = some exp) (hclock : ∀ n, (r.run.state n).clock ≠ exp) :
    r.Retained sig_hash exp := by
  intro n hrevoked hnot
  obtain ⟨exp', hget⟩ := isSome_iff_exists.mp hrevoked
  obtain ⟨token, json, hmem, hparse, hclaim⟩ := revocation_origin hstart n hget
  obtain rfl : exp' = exp := hclaim exp (hsame token json hmem hparse)
  -- the step is a section, and it prunes
  have hdropped : ∃ w, w < n ∧ exp' ≤ (r.run.state w).clock := by
    refine r.run.rel_succ (fun s s' => s.gateway.is_token_revoked sig_hash = true →
      s'.gateway.is_token_revoked sig_hash = false →
        ∃ w, w < n ∧ exp' ≤ (r.run.state w).clock) ?_ ?_ ?_ hrevoked hnot
    · intro hyes hno
      cases hyes.symm.trans hno
    · intro now hyes hno
      cases hyes.symm.trans hno
    · intro i inp γ act hact _ hno
      obtain ⟨hkind, hprunes⟩ := exec_dropped hget hno
      obtain ⟨w, hwn, hnow⟩ := forget_below_cap hstart hcap hact hkind
      exact ⟨w, hwn, hprunes _ hnow⟩
  obtain ⟨w, hwn, hle⟩ := hdropped
  exact lt_of_le_of_ne (hle.trans (clock_mono hwn.le)) (hclock n).symm

omit hcap

omit hstart

/-! ## Revoked for good -/

theorem revoke_trail (hc : r.calls[i]? = some (.revoke_token token))
    (h : r.run.answer n i = some (.revoked (.ok ()))) :
    ∃ json sig a y mutate, parse_token_wire X token = .ok (json, sig) ∧ a < y ∧ y < n ∧
      (r.run.state (a + 1)).gateway.is_token_revoked (sha256_hex H sig) = true ∧
      r.run.Performs y i (.publish mutate) := by
  obtain ⟨c, hsame, htrail⟩ := trail_map_answer h (prog_zero hc)
  cases hsame
  obtain ⟨⟨json, sig_hash⟩, n₁, hparse, htrail⟩ := htrail.of_andThen_ok
  obtain ⟨exp, n₂, -, htrail⟩ := htrail.of_bind_ret
  obtain ⟨a, _, -, -, -, hentry, htrail⟩ := htrail.of_step_ret
  obtain ⟨_, n₃, hcap, htrail⟩ := htrail.of_bind_ret
  obtain ⟨_, n₄, hclear, htrail⟩ := htrail.of_bind_ret
  obtain ⟨_, n₅, hpublish, hdone⟩ := htrail.of_bind_ret
  obtain ⟨y, _, hny, hyn, hy, -, -⟩ := hpublish.of_step_ret
  have hle₁ := hcap.le
  have hle₂ := hclear.le
  have hle₃ := hdone.le
  have hparsed : parse_revoked H X token = .ok (json, sig_hash) := (ret.inj hparse.of_ret).symm
  obtain ⟨sig, hwire, rfl⟩ := wire_of_parse_revoked hparsed
  refine ⟨json, sig, a, y, _, hwire, by omega, by omega, ?_, hy⟩
  rw [hentry]
  show ((Table.insert _ _ _).get _).isSome = true
  rw [get_insert_self]
  rfl

theorem not_evaluated_of_out {k z l : ℕ} {target : Text} {secret json sig : List UInt8}
    {result : TokenValidationResult} (hwire : parse_token_wire X token = .ok (json, sig))
    (hretained : ∀ data, decode_token X token = some (data, sig) →
      r.Retained (sha256_hex H sig) (token_exp data))
    (hrevoked : (r.run.state n).gateway.is_token_revoked (sha256_hex H sig) = true) (hnz : n ≤ z) :
    ¬ r.Evaluated k target token secret z l result exp := by
  rintro ⟨-, g, m, hzg, -, htrail⟩
  obtain ⟨token_json', signature', data, a, b, c, hparse, hga, hab, hbc, -, hnot, -, -, hfresh,
      -⟩ :=
    evaluate_trail htrail
  obtain ⟨hwire', hdecode⟩ := decode_of_parse hparse
  cases hwire.symm.trans hwire'
  -- it is out when the revocations are looked up, so its time was over already
  have hout : r.Out a (sha256_hex H sig) (token_exp data) :=
    Out.mono (hretained data hdecode) (.inl hrevoked) (by omega)
  rcases hout with hstill | hover
  · rw [hstill] at hnot
    cases hnot
  · have hclock : (r.run.state a).clock ≤ (r.run.state c).clock := clock_mono (by omega)
    exact absurd (check_expiry_ok hfresh) (not_le.mpr (hover.trans_le hclock))

theorem same_key {z z' : ℕ} {target target' : Text} {token token' secret secret' : List UInt8}
    (hH : H.Sized) (hpub : r.publications z' = r.publications z)
    (hkey : (r.run.state z).gateway.epochs.snapshot.cache_key H target token secret =
      (r.run.state z').gateway.epochs.snapshot.cache_key H target' token' secret') :
    target = target' ∧ H.sha256 token = H.sha256 token' ∧ H.sha256 secret = H.sha256 secret' := by
  have hepochs : (r.run.state z').gateway.epochs = (r.run.state z).gateway.epochs := by
    rcases le_total z z' with hle | hle
    · exact epochs_eq hle hpub.symm
    · exact (epochs_eq hle hpub).symm
  rw [hepochs] at hkey
  exact cache_key_parts hH hkey

/-- **Revocation is permanent**, as long as its entry is retained: once `revoke_token` has returned
`Ok`, no validation of the token that starts later succeeds, for any target and any secret. -/
theorem revocation_permanent (hH : H.Sized)
    (hcache : ∀ shard, r.start.gateway.token_cache shard = .empty)
    (hwrap : r.publications r.ticks.length < 2 ^ 64) {i j n : ℕ} {target_agent : Text}
    {token_b64 issuer_secret : List UInt8} (hi : r.calls[i]? = some (.revoke_token token_b64))
    (hreturned : r.run.answer n i = some (.revoked (.ok ())))
    (hj : r.calls[j]? = some (.validate_lateral_movement target_agent token_b64 issuer_secret))
    (hstarts : ∀ m < n, r.run.moves m j = false)
    (hretained : ∀ data signature, decode_token X token_b64 = some (data, signature) →
      r.Retained (sha256_hex H signature) (token_exp data))
    (hfree : ∀ target token secret, .validate_lateral_movement target token secret ∈ r.calls →
      H.sha256 token_b64 = H.sha256 token → token = token_b64) (m : ℕ)
    (result : TokenValidationResult) : r.run.answer m j ≠ some (.verdict (.ok result)) := by
  intro hanswer
  obtain ⟨token_json, signature, a, y, mutate, hwire, hay, hyn, hrevoked, hy⟩ :=
    revoke_trail hi hreturned
  obtain ⟨w, z, g, -, hzg, hgm, -, hz, hg, hfound⟩ := verdict_origin hj hanswer
  have hnz : n ≤ z := by
    by_contra hlt
    have hmoves := hz.moves
    rw [hstarts z (Nat.lt_of_not_le hlt)] at hmoves
    cases hmoves
  -- nothing that loads the epochs after the publication evaluates the token
  have hlate : ∀ {k z l : ℕ} {target : Text} {secret : List UInt8} {exp : ℚ}, y < z →
      ¬ r.Evaluated k target token_b64 secret z l result exp := by
    intro k z l target secret exp hyz
    exact not_evaluated_of_out hwire (fun data => hretained data signature) hrevoked (by omega)
  rcases hfound with ⟨hserved, -⟩ | ⟨exp, x, entry, -, heval⟩
  · obtain ⟨x, k, entry, target, token, secret, z', exp, hxg, -, -, -, -, hk, -, hpub, hkey,
        heval⟩ :=
      served_origin hcache hwrap hz.lt.le hg.lt.le hserved
    obtain rfl : token = token_b64 :=
      hfree target token secret (mem_of_getElem? hk) (same_key hH hpub hkey).2.1
    have hyz : y < z' := by
      by_contra hle
      have hlt : r.publications z' < r.publications z :=
        count_lt_count (Nat.le_of_not_lt hle) (by omega) (does_iff.mpr ⟨i, _, _, hy, rfl⟩)
      omega
    exact hlate hyz heval
  · exact hlate (by omega) heval

def sampleRevoked : GatewayRun sampleHashes sampleCrates where
  calls := [.revoke_token sampleToken,
    .validate_lateral_movement (ascii "svc") sampleToken (List.replicate 32 7)]
  start := .new 1000
  ticks := List.replicate 34 (.thread 0 ()) ++ List.replicate 4 (.thread 1 ())

theorem revocation_permanent_sample : (sampleRevoked.run.answer 38 1).isSome = true ∧
      ∀ m result, sampleRevoked.run.answer m 1 ≠ some (.verdict (.ok result)) := by
  obtain ⟨hdone, hrevokes, hclock, hexp⟩ : (sampleRevoked.run.answer 38 1).isSome = true ∧
      (sampleRevoked.run.answer 34 0).any revokes = true ∧
      (∀ n < 39, (sampleRevoked.run.state n).clock = 1000) ∧
      (decode_token sampleCrates sampleToken).all (fun d => token_exp d.1 = 2000) = true := by
    decide +kernel
  have hclocks : ∀ n, (sampleRevoked.run.state n).clock = 1000 := by
    intro n
    by_cases hn : n < 39
    · exact hclock n hn
    · rw [state_of_length_le (le_of_lt (not_lt.mp hn))]
      exact hclock 38 (by decide)
  refine ⟨hdone, ?_⟩
  refine revocation_permanent (H := sampleHashes) Sha256.length_sha256 (fun _ => rfl)
    (count_le.trans_lt (by decide)) rfl (revokes_iff.mp hrevokes) rfl
    (by decide) ?_ ?_
  · intro data signature hdecode
    have hexp2000 : token_exp data = 2000 := by
      rw [hdecode] at hexp
      exact of_decide_eq_true hexp
    refine retained_below_cap rfl ((length_filterMap_le _ _).trans (by decide)) ?_ ?_
    · intro token_b64 token_json hmem hparse
      obtain rfl : token_b64 = sampleToken := by simpa [sampleRevoked] using hmem
      obtain ⟨signature', hwire, -⟩ := wire_of_parse_revoked hparse
      exact claimed_expiry_of_decode hwire hdecode (by rw [hexp2000]; decide)
    · intro n
      rw [hclocks n, hexp2000]
      decide
  · intro target token secret hmem _
    have hparts : target = ascii "svc" ∧ token = sampleToken ∧ secret = List.replicate 32 7 := by
      simpa only [sampleRevoked, mem_cons, not_mem_nil, or_false, false_or, reduceCtorEq,
        validate_lateral_movement.injEq] using hmem
    exact hparts.2.1

def sampleForgotten : GatewayRun sampleHashes sampleCrates where
  calls := [.revoke_token sampleToken, .prune_expired_revocations,
    .validate_lateral_movement (ascii "svc") sampleToken (List.replicate 32 7)]
  start := .new 1000
  ticks := List.replicate 34 (.thread 0 ()) ++ .daemon 2000 :: List.replicate 17 (.thread 1 ()) ++
    List.replicate 8 (.thread 2 ())

/-- **A revoked token is accepted.** The pruning takes it for expired, the validator does not. -/
theorem forgotten_revocation : sampleForgotten.calls[0]? = some (.revoke_token sampleToken) ∧
      sampleForgotten.run.answer 34 0 = some (.revoked (.ok ())) ∧
      sampleForgotten.calls[2]? =
        some (.validate_lateral_movement (ascii "svc") sampleToken (List.replicate 32 7)) ∧
      (∀ m < 34, sampleForgotten.run.moves m 2 = false) ∧
      ∃ result, sampleForgotten.run.answer 60 2 = some (.verdict (.ok result)) := by
  obtain ⟨hrevokes, hmoves, haccepts⟩ : (sampleForgotten.run.answer 34 0).any revokes = true ∧
      (∀ m < 34, sampleForgotten.run.moves m 2 = false) ∧
      (sampleForgotten.run.answer 60 2).any accepts = true := by
    decide +kernel
  exact ⟨rfl, revokes_iff.mp hrevokes, rfl, hmoves, accepts_iff.mp haccepts⟩

end GatewayRun

end Saacp
