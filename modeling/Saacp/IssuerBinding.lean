/-
**Who has signed a token**: whether the agent that an accepted token names as its issuer is the
agent whose key has signed it.

The key comes out of one of three stores. The issuer registry and the trust store are asked for a
key of the issuer. The capability authority is asked for a key under the id that the token itself
names, and nobody compares the owner of that key with the issuer.
-/
import Saacp.GatewayLinear

set_option autoImplicit false

open ByteCodec Atomic

namespace Saacp

open Option ZeroTrustGateway List GatewayCall

/-! ## The key of an accepted signature -/

theorem verify_hmac_ok {H : Hashes} {gw : ZeroTrustGateway} {data : Json}
    {json sig secret : List UInt8} (hregistry : gw.trusted_issuer_keys.len ≠ 0)
    (h : gw.verify_hmac H data json sig secret = .ok ()) :
    ∃ key, gw.trusted_issuer_keys.get (token_issuer data) = some key ∧
      hmac_sha256 H key json = sig := by
  unfold verify_hmac at h
  cases hkey : gw.trusted_issuer_keys.get (token_issuer data) with
  | none =>
    rw [hkey] at h
    rw [if_pos ⟨hregistry, rfl⟩] at h
    cases h
  | some key =>
    refine ⟨key, rfl, ?_⟩
    rw [hkey] at h
    by_contra hne
    simp [hregistry, hne] at h

theorem verify_ed25519_ok {X : Crates} {keys : KeySources} {data : Json} {json sig : List UInt8}
    (h : ZeroTrustGateway.verify_ed25519 X keys data json sig = .ok ()) :
    ∃ key, keys.key_for data = some key ∧ X.ed25519_verify key json sig = true := by
  unfold ZeroTrustGateway.verify_ed25519 at h
  unfold KeySources.key_for
  cases hkid : claim_str data "kid" with
  | none =>
    rw [hkid] at h
    cases h
  | some kid =>
    rw [hkid] at h
    rw [bind_some]
    cases hkey : (keys.verification_key kid).or (keys.pinned_key (token_issuer data)) with
    | none =>
      simp only [hkey] at h
      cases h
    | some key =>
      refine ⟨key, rfl, ?_⟩
      simp only [hkey, verify_ed25519_signature_inner] at h
      split_ifs at h with hlen hsig hbytes hverify
      exact Bool.not_eq_false _ ▸ hverify

def GatewayAnswer.names (agent : Text) : GatewayAnswer → Bool
  | .verdict (.ok result) => result.source_agent = agent
  | _ => false

namespace GatewayRun

variable {H : Hashes} {X : Crates} {r : GatewayRun H X} {owns : Text → List UInt8 → Prop}
  {signed : List UInt8 → List UInt8 → Prop}

/-! ## Owners of keys -/

/-- Every key in the stores belongs to the agent it was registered or pinned for. -/
structure Owned (r : GatewayRun H X) (owns : Text → List UInt8 → Prop) : Prop where
  unique : ∀ agent agent' key, owns agent key → owns agent' key → agent = agent'
  registry : ∀ n agent key,
    (r.run.state n).gateway.trusted_issuer_keys.get agent = some key → owns agent key
  pinned : ∀ n ts agent key,
    ((r.run.state n).trust_stores ts).get_pinned_key agent = some key → owns agent key
  authority : ∀ n ca kid key,
    ((r.run.state n).authorities ca).get_verification_key kid = some key → ∃ agent, owns agent key

/-- Nobody forges: what verifies under the key of an agent was signed with that key. -/
def Unforged (r : GatewayRun H X) (owns : Text → List UInt8 → Prop)
    (signed : List UInt8 → List UInt8 → Prop) : Prop :=
  ∀ target_agent token secret,
    .validate_lateral_movement target_agent token secret ∈ r.calls →
    ∀ token_json signature data, parse_token X token = .ok (token_json, signature, data) →
      ∀ agent key, owns agent key → (hmac_sha256 H key token_json = signature ∨
          X.ed25519_verify key token_json signature = true) → signed key token_json

/-- The key under the id that an Ed25519 token names, of the authority that is registered at `a`,
which is asked at `b`. -/
def kid_key (r : GatewayRun H X) (data : Json) (a b : ℕ) : Option (List UInt8) :=
  if token_sig_alg data = ascii "ed25519" then
    (claim_str data "kid").bind fun kid => (r.run.state a).capability_authority.bind fun ca =>
      ((r.run.state b).authorities ca).get_verification_key kid
  else none

/-- The key the authority has under the id a token names belongs to its issuer. -/
def KidOfIssuer (r : GatewayRun H X) (owns : Text → List UInt8 → Prop) (token_b64 : List UInt8) :
    Prop :=
  ∀ data signature, decode_token X token_b64 = some (data, signature) →
    ∀ a b key, r.kid_key data a b = some key → owns (token_issuer data) key

/-- **What is evaluated to `Ok`** verifies under the key of the authority, or else under one of the
issuer. -/
theorem evaluated_under (howned : r.Owned owns)
    (hregistry : ∀ n, (r.run.state n).gateway.trusted_issuer_keys.len ≠ 0) {k z l : ℕ}
    {target : Text} {token secret : List UInt8} {result : TokenValidationResult} {exp : ℚ}
    (h : r.Evaluated k target token secret z l result exp) :
    ∃ json sig data key, parse_token X token = .ok (json, sig, data) ∧
      result.source_agent = token_issuer data ∧
      (hmac_sha256 H key json = sig ∨ X.ed25519_verify key json sig = true) ∧
      (∃ agent, owns agent key) ∧ ∃ a b, r.kid_key data a b = some key ∨
        (r.kid_key data a b = none ∧ owns (token_issuer data) key) := by
  obtain ⟨-, g, m, -, -, htrail⟩ := h
  obtain ⟨json, sig, data, a, b, c, hparse, -, -, -, -, -, hverify, -, -, hclaims, -⟩ :=
    evaluate_trail htrail
  have hsource := (claims_verdict_ok hclaims).1
  obtain ⟨halg, -, b', -, -, -, hhmac⟩ | ⟨halg, keys, m', hkeys, hed⟩ :=
    verify_signature_trail hverify
  · obtain ⟨key, hkey, hsig⟩ := verify_hmac_ok (hregistry b') hhmac
    have howns := howned.registry b' _ _ hkey
    exact ⟨json, sig, data, key, hparse, hsource, .inl hsig, ⟨_, howns⟩, b', b',
      .inr ⟨if_neg halg, howns⟩⟩
  · obtain ⟨key, hkey, hsig⟩ := verify_ed25519_ok hed
    refine ⟨json, sig, data, key, hparse, hsource, .inr hsig, ?_⟩
    -- the key is one of the authority, or one that is pinned to the issuer
    obtain ⟨n₁, n₂, n₃, n₄, hfound⟩ := read_keys_trail hkeys
    rw [hkey] at hfound
    obtain ⟨kid, hclaim, hstores⟩ := bind_eq_some_iff.mp hfound.symm
    have hlookup : r.kid_key data n₁ n₂ = (r.run.state n₁).capability_authority.bind fun ca =>
        ((r.run.state n₂).authorities ca).get_verification_key kid := by
      rw [kid_key, if_pos halg, hclaim, bind_some]
    rcases or_eq_some_iff.mp hstores with hauthority | ⟨hnone, hpinned⟩
    · obtain ⟨ca, -, hget⟩ := bind_eq_some_iff.mp hauthority
      exact ⟨howned.authority n₂ ca kid key hget, n₁, n₂, .inl (hlookup.trans hauthority)⟩
    · obtain ⟨ts, -, hget⟩ := bind_eq_some_iff.mp hpinned
      have howns := howned.pinned n₄ ts _ _ hget
      exact ⟨⟨_, howns⟩, n₁, n₂, .inr ⟨hlookup.trans hnone, howns⟩⟩

/-- **When an accepted token was signed by its issuer**: if the key under the id that it names
belongs to the issuer. An agent that has made all the signatures of the token, each with a key of
its own, then is the one the result names; and only then, if the authority gives the same key
throughout. -/
theorem accepted_signed_by_issuer (hH : H.Sized)
    (hcache : ∀ shard, r.start.gateway.token_cache shard = .empty)
    (hwrap : r.publications r.ticks.length < 2 ^ 64) (howned : r.Owned owns)
    (hregistry : ∀ n, (r.run.state n).gateway.trusted_issuer_keys.len ≠ 0)
    (hunforged : r.Unforged owns signed) {j n : ℕ} {target_agent : Text}
    {token_b64 issuer_secret : List UInt8} {result : TokenValidationResult}
    (hj : r.calls[j]? = some (.validate_lateral_movement target_agent token_b64 issuer_secret))
    (hfree : ∀ target token secret, .validate_lateral_movement target token secret ∈ r.calls →
      H.sha256 token_b64 = H.sha256 token → token = token_b64)
    (hanswer : r.run.answer n j = some (.verdict (.ok result))) :
    ∃ token_json signature data, parse_token X token_b64 = .ok (token_json, signature, data) ∧
      (r.KidOfIssuer owns token_b64 →
        ∃ key, owns result.source_agent key ∧ signed key token_json) ∧
      ∀ agent, (∀ key, signed key token_json → owns agent key) →
        (r.KidOfIssuer owns token_b64 → agent = result.source_agent) ∧
        ((∀ a b a' b', r.kid_key data a b = r.kid_key data a' b') → agent = result.source_agent →
          r.KidOfIssuer owns token_b64) := by
  have hevaluated : ∃ k z l target secret exp,
      r.Evaluated k target token_b64 secret z l result exp := by
    obtain ⟨w, z, g, -, -, -, -, hz, hg, ⟨hserved, -⟩ | ⟨exp, x, entry, -, heval⟩⟩ :=
      verdict_origin hj hanswer
    · obtain ⟨x, k, entry, target, token, secret, z', exp, -, -, -, -, -, hk, -, hpub, hkey,
          heval⟩ :=
        served_origin hcache hwrap hz.lt.le hg.lt.le hserved
      obtain rfl : token = token_b64 :=
        hfree target token secret (mem_of_getElem? hk) (same_key hH hpub hkey).2.1
      exact ⟨k, z', x, target, secret, exp, heval⟩
    · exact ⟨j, z, n, target_agent, issuer_secret, exp, heval⟩
  obtain ⟨k, z, l, target, secret, exp, heval⟩ := hevaluated
  obtain ⟨token_json, signature, data, key, hparse, hsource, hverifies, ⟨owner, howner⟩, a, b,
      hkey⟩ := evaluated_under howned hregistry heval
  have hsigned : signed key token_json :=
    hunforged _ _ _ (mem_of_getElem? hj) _ _ _ hparse _ _ howner hverifies
  have hdecode := (decode_of_parse hparse).2
  have howns : r.KidOfIssuer owns token_b64 → owns result.source_agent key := by
    intro hkid
    rw [hsource]
    exact hkey.elim (hkid data signature hdecode a b key) And.right
  refine ⟨token_json, signature, data, hparse, fun hkid => ⟨key, howns hkid, hsigned⟩,
    fun agent hall => ⟨fun hkid => howned.unique _ _ _ (hall key hsigned) (howns hkid), ?_⟩⟩
  intro hsame hagent data' signature' hdecode' a' b' key' hkey'
  obtain ⟨rfl, -⟩ := Prod.mk.inj (some.inj (hdecode.symm.trans hdecode'))
  rw [hsame a' b' a b] at hkey'
  rcases hkey with hkey | ⟨hnone, -⟩
  · obtain rfl := some.inj (hkey'.symm.trans hkey)
    rw [← hsource, ← hagent]
    exact hall key' hsigned
  · cases hkey'.symm.trans hnone

/-! ## Two agents -/

/-- `ops` has a registered secret, `bob` a key that the authority knows as `bob-1`. -/
def sampleOwners (agent : Text) (key : List UInt8) : Prop :=
  (agent = ascii "ops" ∧ key = List.replicate 32 7) ∨ (agent = ascii "bob" ∧ key = sampleKidKey)

theorem sampleOwners_unique (agent agent' : Text) (key : List UInt8) (h : sampleOwners agent key)
    (h' : sampleOwners agent' key) : agent = agent' := by
  have hne : replicate 32 7 ≠ sampleKidKey := by decide
  rcases h with ⟨rfl, hkey⟩ | ⟨rfl, hkey⟩ <;> rcases h' with ⟨rfl, hkey'⟩ | ⟨rfl, hkey'⟩
  · rfl
  · exact absurd (hkey.symm.trans hkey') hne
  · exact absurd (hkey'.symm.trans hkey) hne
  · rfl

def sampleTwoAgents (X : Crates) (token_b64 : List UInt8) : GatewayRun sampleHashes X where
  calls := [.validate_lateral_movement (ascii "svc") token_b64 []]
  start :=
    { SharedGateway.new 1000 with
      gateway :=
        { ZeroTrustGateway.new with
          trusted_issuer_keys := Table.empty.insert (ascii "ops") (List.replicate 32 7) }
      capability_authority := some 0
      authorities := fun _ => CapabilityVerificationAuthority.new.register_key (ascii "bob-1")
        sampleKidKey }
  ticks := List.replicate 9 (.thread 0 ())

section TwoAgents

variable {token : List UInt8}

theorem sampleTwoAgents_registry (n : ℕ) :
    ((sampleTwoAgents X token).run.state n).gateway.trusted_issuer_keys =
      Table.empty.insert (ascii "ops") (List.replicate 32 7) := by
  refine registry_eq (Nat.zero_le n) fun x _ _ => ?_
  rw [← Bool.not_eq_true]
  intro hdoes
  obtain ⟨i, γ, act, hact, hkind⟩ := Execution.does_iff.mp hdoes
  obtain ⟨c, hc, hkinds⟩ := call_of_performs hact
  obtain rfl : c = .validate_lateral_movement (ascii "svc") token [] :=
    mem_singleton.mp (mem_of_getElem? hc)
  have hmem := hkinds.1
  rw [of_decide_eq_true hkind] at hmem
  simp [kinds] at hmem

theorem sampleTwoAgents_sources (X : Crates) (token : List UInt8) (n : ℕ) :
    ((sampleTwoAgents X token).run.state n).sources = (sampleTwoAgents X token).start.sources := by
  refine sources_eq ?_ n
  intro c hc
  obtain rfl : c = .validate_lateral_movement (ascii "svc") token [] := List.mem_singleton.mp hc
  exact .inl rfl

theorem sampleTwoAgents_key {n ca : ℕ} {kid : Text} {key : List UInt8}
    (h : (((sampleTwoAgents X token).run.state n).authorities ca).get_verification_key kid =
      some key) : kid = ascii "bob-1" ∧ key = sampleKidKey := by
  have hsources := sampleTwoAgents_sources X token n
  simp only [SharedGateway.sources, Prod.mk.injEq] at hsources
  rw [hsources.2.2.1] at h
  have hget : (Table.empty.insert (ascii "bob-1") sampleKidKey).get kid = some key := h
  apply Table.forall_insert _ _ kid key hget
  · simp
  · exact ⟨rfl, rfl⟩

theorem sampleTwoAgents_owned : (sampleTwoAgents X token).Owned sampleOwners := by
  refine ⟨sampleOwners_unique, fun n agent key h => ?_, fun n ts agent key h => ?_,
    fun n ca kid key h => ?_⟩
  · rw [sampleTwoAgents_registry] at h
    revert agent key
    exact Table.forall_insert (by simp) (.inl ⟨rfl, rfl⟩)
  · have hsources := sampleTwoAgents_sources X token n
    simp only [SharedGateway.sources, Prod.mk.injEq] at hsources
    rw [hsources.2.2.2] at h
    have hget : (Table.empty : Table Text (List UInt8)).get agent = some key := h
    rw [Table.get_empty] at hget
    cases hget
  · exact ⟨ascii "bob", .inr ⟨rfl, (sampleTwoAgents_key h).2⟩⟩

theorem sampleTwoAgents_registered (n : ℕ) :
    ((sampleTwoAgents X token).run.state n).gateway.trusted_issuer_keys.len ≠ 0 := by
  rw [sampleTwoAgents_registry]
  decide

theorem sampleTwoAgents_unforged {signer other : List UInt8}
    (hkeys : ∀ agent key, sampleOwners agent key → key = signer ∨ key = other)
    (hother : (parse_token X token).toOption.all (fun parts =>
      hmac_sha256 sampleHashes other parts.1 != parts.2.1 &&
        !X.ed25519_verify other parts.1 parts.2.1) = true) :
    (sampleTwoAgents X token).Unforged sampleOwners fun key _ => key = signer := by
  intro target presented secret hmem json sig data hparse agent key howns hverifies
  obtain rfl : presented = token := by
    have hparts : target = ascii "svc" ∧ presented = token ∧ secret = [] := by
      simpa only [sampleTwoAgents, mem_singleton, validate_lateral_movement.injEq] using hmem
    exact hparts.2.1
  refine (hkeys agent key howns).resolve_right fun hkey => ?_
  subst hkey
  rw [hparse] at hother
  simp only [Except.toOption, all_some, Bool.and_eq_true, bne_iff_ne, ne_eq,
    Bool.not_eq_true'] at hother
  rcases hverifies with hhmac | hed
  · exact hother.1 hhmac
  · cases hother.2.symm.trans hed

end TwoAgents

theorem accepted_signed_by_issuer_sample : ∃ result token_json signature data,
      (sampleTwoAgents sampleCrates sampleToken).run.answer 9 0 = some (.verdict (.ok result)) ∧
      parse_token sampleCrates sampleToken = .ok (token_json, signature, data) ∧
      result.source_agent = ascii "ops" := by
  obtain ⟨haccepts, hother, hkid⟩ :
      ((sampleTwoAgents sampleCrates sampleToken).run.answer 9 0).any GatewayAnswer.accepts = true ∧
      (parse_token sampleCrates sampleToken).toOption.all (fun parts =>
        hmac_sha256 sampleHashes sampleKidKey parts.1 != parts.2.1 &&
          !sampleCrates.ed25519_verify sampleKidKey parts.1 parts.2.1) = true ∧
      (decode_token sampleCrates sampleToken).all
        (fun d => token_sig_alg d.1 ≠ ascii "ed25519") = true := by
    decide +kernel
  obtain ⟨result, hanswer⟩ := accepts_iff.mp haccepts
  have hkeys : ∀ agent key, sampleOwners agent key → key = replicate 32 7 ∨ key = sampleKidKey := by
    rintro agent key (⟨-, rfl⟩ | ⟨-, rfl⟩)
    · exact .inl rfl
    · exact .inr rfl
  have hissuer :
      (sampleTwoAgents sampleCrates sampleToken).KidOfIssuer sampleOwners sampleToken := by
    intro data signature hdecode a b key hkey
    rw [hdecode] at hkid
    cases (if_neg (of_decide_eq_true hkid)).symm.trans hkey
  obtain ⟨token_json, signature, data, hparse, -, honly⟩ :=
    accepted_signed_by_issuer (H := sampleHashes) Sha256.length_sha256 (fun _ => rfl)
      (Execution.count_le.trans_lt (by decide)) sampleTwoAgents_owned sampleTwoAgents_registered
      (sampleTwoAgents_unforged hkeys hother) rfl
      (fun target token secret hmem _ => by
        have hparts : target = ascii "svc" ∧ token = sampleToken ∧ secret = [] := by
          simpa only [sampleTwoAgents, mem_singleton, validate_lateral_movement.injEq] using hmem
        exact hparts.2.1) hanswer
  refine ⟨result, token_json, signature, data, hanswer, hparse, ?_⟩
  exact ((honly (ascii "ops") fun key hkey => .inl ⟨rfl, hkey⟩).1 hissuer).symm

/-- **An insider speaks for another agent.** The token was signed by `bob`, with the only key that
`bob` has, and is accepted as one of `ops`, who has signed nothing. -/
theorem insider_impersonates : let r := sampleTwoAgents sampleKidCrates sampleKidToken
    let signed : List UInt8 → List UInt8 → Prop := fun key _ => key = sampleKidKey
    r.Owned sampleOwners ∧ (∀ n, (r.run.state n).gateway.trusted_issuer_keys.len ≠ 0) ∧
      r.Unforged sampleOwners signed ∧
      (∀ key token_json, signed key token_json → sampleOwners (ascii "bob") key) ∧
      (∀ key token_json, signed key token_json → ¬ sampleOwners (ascii "ops") key) ∧
      ∃ result, r.run.answer 9 0 = some (.verdict (.ok result)) ∧
        result.source_agent = ascii "ops" := by
  intro r signed
  obtain ⟨hanswer, hother⟩ :
      (r.run.answer 9 0).any (fun answer => answer.names (ascii "ops")) = true ∧
      (parse_token sampleKidCrates sampleKidToken).toOption.all (fun parts =>
        hmac_sha256 sampleHashes (replicate 32 7) parts.1 != parts.2.1 &&
          !sampleKidCrates.ed25519_verify (replicate 32 7) parts.1 parts.2.1) = true := by
    decide +kernel
  have hkeys : ∀ agent key, sampleOwners agent key → key = sampleKidKey ∨ key = replicate 32 7 := by
    rintro agent key (⟨-, rfl⟩ | ⟨-, rfl⟩)
    · exact .inr rfl
    · exact .inl rfl
  refine ⟨sampleTwoAgents_owned, sampleTwoAgents_registered, sampleTwoAgents_unforged hkeys hother,
    fun key _ hkey => .inr ⟨rfl, hkey⟩, ?_, ?_⟩
  · rintro key token_json rfl (⟨-, hkey⟩ | ⟨hagent, -⟩)
    · exact absurd hkey (by decide)
    · exact absurd hagent (by decide)
  · obtain ⟨answer, hsome, hnames⟩ := (any_eq_true _ _).mp hanswer
    cases answer with
    | verdict v =>
      cases v with
      | ok result => exact ⟨result, hsome, of_decide_eq_true hnames⟩
      | error err => cases hnames
    | _ => cases hnames

end GatewayRun

end Saacp
