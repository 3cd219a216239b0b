/-
**M-of-N approval**: what `verify_threshold_token` counts.

The loop counts each issuer name once and each signature that verifies under the key the entry asks
for. It does not ask whether the issuer is one of the authorities, and nothing ties the name to the
key id. The proposals an issuer keeps are not needed here.
-/
import Saacp.Credentials
import Mathlib.Data.Finset.Card
import Mathlib.Data.Finset.Image

set_option autoImplicit false

open ByteCodec

namespace Saacp

open List

structure ThresholdSignatureEntry where
  kid : Text
  issuer_id : Text
  signature_hex : Text
  claims_bytes_hex : Text

structure ThresholdCapabilityToken where
  request_id : Text
  base_claims : Json
  signatures : List ThresholdSignatureEntry
  threshold_m : ℕ
  participating_authorities : List Text

structure ThresholdAuthorityIssuer where
  m : ℕ
  authorities : List Text
  proposal_ttl : Double

namespace ThresholdAuthorityIssuer

def not_positive : Double → Bool
  | .number x => x.toRat ≤ 0
  | .infinity negative => negative
  | .nan => false

def new (threshold_m : ℕ) (authority_issuer_ids : List Text) (proposal_ttl_seconds : Double) :
    Except String ThresholdAuthorityIssuer :=
  if threshold_m < 1 then .error "threshold_m must be >= 1"
  else if authority_issuer_ids.length < threshold_m then
    .error "threshold_m cannot exceed the number of authorities"
  else if not_positive proposal_ttl_seconds then .error "proposal_ttl_seconds must be positive"
  else .ok ⟨threshold_m, authority_issuer_ids.dedup, proposal_ttl_seconds⟩

/-- Whether the signature of an entry verifies, under the key that the entry asks for. -/
def entry_verifies (C : ClusterCrates) (ca : CapabilityVerificationAuthority)
    (claims_bytes : List UInt8) (entry : ThresholdSignatureEntry) : Bool :=
  match ca.get_verification_key entry.kid with
  | none => false
  | some key =>
    match hexDecode entry.signature_hex with
    | none => false
    | some sig => verify_ed25519 C key claims_bytes sig

def count_valid (C : ClusterCrates) (ca : CapabilityVerificationAuthority)
    (claims_bytes : List UInt8) : List ThresholdSignatureEntry → List Text → ℕ → ℕ
  | [], _, valid_count => valid_count
  | entry :: entries, seen_issuers, valid_count =>
    if entry.issuer_id ∈ seen_issuers then
      count_valid C ca claims_bytes entries seen_issuers valid_count
    else
      count_valid C ca claims_bytes entries (entry.issuer_id :: seen_issuers)
        (if entry_verifies C ca claims_bytes entry then valid_count + 1 else valid_count)

def verify_threshold_token (C : ClusterCrates) (issuer : ThresholdAuthorityIssuer)
    (token : ThresholdCapabilityToken) (ca : CapabilityVerificationAuthority) : Bool :=
  issuer.m ≤ count_valid C ca (C.json_to_vec token.base_claims) token.signatures [] 0

variable {C : ClusterCrates} {ca : CapabilityVerificationAuthority} {claims_bytes : List UInt8}

theorem count_valid_eq (C : ClusterCrates) (ca : CapabilityVerificationAuthority)
    (claims_bytes : List UInt8) (entries : List ThresholdSignatureEntry) (seen : List Text)
    (n : ℕ) :
    ∃ good : List ThresholdSignatureEntry, good.Sublist entries ∧
      (good.map ThresholdSignatureEntry.issuer_id).Nodup ∧
      (∀ e ∈ good, e.issuer_id ∉ seen ∧ entry_verifies C ca claims_bytes e = true) ∧
      count_valid C ca claims_bytes entries seen n = n + good.length := by
  induction entries generalizing seen n with
  | nil => exact ⟨[], List.Sublist.slnil, nodup_nil, nofun, rfl⟩
  | cons entry entries ih =>
    rw [count_valid]
    by_cases hseen : entry.issuer_id ∈ seen
    · rw [if_pos hseen]
      obtain ⟨good, hsub, hnodup, hgood, hcount⟩ := ih seen n
      exact ⟨good, hsub.cons entry, hnodup, hgood, hcount⟩
    rw [if_neg hseen]
    by_cases hverifies : entry_verifies C ca claims_bytes entry = true
    · rw [if_pos hverifies]
      obtain ⟨good, hsub, hnodup, hgood, hcount⟩ := ih (entry.issuer_id :: seen) (n + 1)
      refine ⟨entry :: good, hsub.cons_cons entry, ?_, ?_, ?_⟩
      · -- the others were counted with this name already seen
        refine nodup_cons.mpr ⟨?_, hnodup⟩
        intro hmem
        obtain ⟨e, he, heq⟩ := mem_map.mp hmem
        exact (hgood e he).1 (by rw [heq]; exact mem_cons_self)
      · refine forall_mem_cons.mpr ⟨⟨hseen, hverifies⟩, fun e hmem => ?_⟩
        exact ⟨fun h => (hgood e hmem).1 (mem_cons_of_mem _ h), (hgood e hmem).2⟩
      · rw [hcount, length_cons]
        omega
    · rw [if_neg hverifies]
      obtain ⟨good, hsub, hnodup, hgood, hcount⟩ := ih (entry.issuer_id :: seen) n
      exact ⟨good, hsub.cons entry, hnodup,
        fun e he => ⟨fun h => (hgood e he).1 (mem_cons_of_mem _ h), (hgood e he).2⟩, hcount⟩

/-- The members under whose keys some signature of the token verifies, whatever its entry says. -/
def shown (C : ClusterCrates) (issuer : ThresholdAuthorityIssuer) (key_of : Text → List UInt8)
    (token : ThresholdCapabilityToken) : Finset Text :=
  issuer.authorities.toFinset.filter fun a => ∃ e ∈ token.signatures,
    (hexDecode e.signature_hex).any (verify_ed25519 C (key_of a) (C.json_to_vec token.base_claims))

/-- **When an accepted token was signed by `m` authorities**, so that no smaller coalition has all
the keys that have signed: exactly if its signatures verify under the keys of `m` members. This is
so if every entry that verifies names an authority and its own key id. Unforgeability is about the
signatures in the token. -/
theorem threshold_authorities (C : ClusterCrates) (issuer : ThresholdAuthorityIssuer)
    (ca : CapabilityVerificationAuthority) (kid_of : Text → Text) (key_of : Text → List UInt8)
    (hkeys : ∀ a ∈ issuer.authorities, ca.get_verification_key (kid_of a) = some (key_of a))
    (token : ThresholdCapabilityToken)
    (haccepted : issuer.verify_threshold_token C token ca = true) :
    ((∀ signed : List UInt8 → Prop,
        (∀ e ∈ token.signatures, ∀ key, (hexDecode e.signature_hex).any
          (verify_ed25519 C key (C.json_to_vec token.base_claims)) = true → signed key) →
        ∀ coalition : Finset Text,
          (∀ a ∈ issuer.authorities, signed (key_of a) → a ∈ coalition) →
            issuer.m ≤ coalition.card) ↔
      issuer.m ≤ (issuer.shown C key_of token).card) ∧
    ((∀ e ∈ token.signatures, entry_verifies C ca (C.json_to_vec token.base_claims) e = true →
        e.issuer_id ∈ issuer.authorities ∧ e.kid = kid_of e.issuer_id) →
      issuer.m ≤ (issuer.shown C key_of token).card) := by
  have hshown a : a ∈ issuer.shown C key_of token ↔ a ∈ issuer.authorities ∧
      ∃ e ∈ token.signatures, (hexDecode e.signature_hex).any
        (verify_ed25519 C (key_of a) (C.json_to_vec token.base_claims)) = true := by
    rw [shown, Finset.mem_filter, mem_toFinset]
  refine ⟨⟨fun h => ?_, fun h signed hunforged coalition hcoalition => ?_⟩, fun hnamed => ?_⟩
  · -- nobody has signed but those whose signatures are in the token
    exact h (fun key => ∃ e ∈ token.signatures, (hexDecode e.signature_hex).any
        (verify_ed25519 C key (C.json_to_vec token.base_claims)) = true)
      (fun e he key hkey => ⟨e, he, hkey⟩) _ fun a ha hsigned => (hshown a).mpr ⟨ha, hsigned⟩
  · refine h.trans (Finset.card_le_card fun a ha => ?_)
    obtain ⟨hmember, e, he, hverify⟩ := (hshown a).mp ha
    exact hcoalition a hmember (hunforged e he _ hverify)
  · obtain ⟨good, hsub, hnodup, hgood, hcount⟩ := count_valid_eq C ca
      (C.json_to_vec token.base_claims) token.signatures [] 0
    have henough : issuer.m ≤ good.length := by
      rw [verify_threshold_token, decide_eq_true_eq, hcount] at haccepted
      omega
    rw [← length_map ThresholdSignatureEntry.issuer_id, ← toFinset_card_of_nodup hnodup] at henough
    refine henough.trans (Finset.card_le_card fun a ha => ?_)
    obtain ⟨e, he, rfl⟩ := mem_map.mp (mem_toFinset.mp ha)
    obtain ⟨hmember, hkid⟩ := hnamed e (hsub.subset he) (hgood e he).2
    have hverify := (hgood e he).2
    -- the key the entry asked for is that of the authority it names
    rw [entry_verifies, hkid, hkeys _ hmember] at hverify
    refine (hshown _).mpr ⟨hmember, e, hsub.subset he, ?_⟩
    cases hsig : hexDecode e.signature_hex with
    | none => simp [hsig] at hverify
    | some sig => simpa [hsig] using hverify

/-! ## Small tokens

Authorities `A` and `B`, of which both have to sign. -/

def sampleIssuer : ThresholdAuthorityIssuer := ⟨2, [[65], [66]], .number wall_12⟩

def sampleKid (issuer_id : Text) : Text := issuer_id ++ [107]

def samplePair (issuer_id : Text) : List UInt8 := issuer_id.flatMap sampleKey

def sampleAuthority : CapabilityVerificationAuthority :=
  [[65], [66]].foldl (fun ca a => ca.register_key (sampleKid a) (samplePair a)) .new

def sampleSigning (names : List Text) : ClusterCrates where
  json_to_vec _ := []
  ed25519_sign key _ := key ++ key
  ed25519_verify key _ signature := key ∈ names.map samplePair ∧ signature = key ++ key

def sampleEntry (issuer_id signer : Text) : ThresholdSignatureEntry :=
  ⟨sampleKid signer, issuer_id, hexText (samplePair signer ++ samplePair signer), []⟩

def sampleThresholdToken (entries : List ThresholdSignatureEntry) : ThresholdCapabilityToken :=
  ⟨[], .obj [("sub", .str [67])], entries, 2, []⟩

theorem threshold_authorities_sample :
    let token := sampleThresholdToken
      [sampleEntry [65] [65], sampleEntry [66] [66], sampleEntry [90] [65]]
    let C := sampleSigning [[65], [66]]
    sampleIssuer.verify_threshold_token C token sampleAuthority = true ∧
      ∀ signed : List UInt8 → Prop,
        (∀ e ∈ token.signatures, ∀ key, (hexDecode e.signature_hex).any
          (verify_ed25519 C key (C.json_to_vec token.base_claims)) = true → signed key) →
        ∀ coalition : Finset Text, (∀ a ∈ [[65], [66]], signed (samplePair a) → a ∈ coalition) →
          2 ≤ coalition.card := by
  intro token C
  have haccepted : sampleIssuer.verify_threshold_token C token sampleAuthority = true := by
    decide +kernel
  exact ⟨haccepted, (threshold_authorities C sampleIssuer sampleAuthority sampleKid samplePair
    (by decide +kernel) token haccepted).1.mpr (by decide +kernel)⟩

/-- **One authority suffices.** `A` alone has signed, and nobody can verify anything else. It writes
one entry under its own name and one under the name of an outsider, both with its own key id. The
token is accepted, though two have to sign. -/
theorem one_authority_suffices : let C := sampleSigning [[65]]
    let token := sampleThresholdToken [sampleEntry [65] [65], sampleEntry [90] [65]]
    (∃ issuer, new 2 [[65], [66]] (.number wall_12) = .ok issuer ∧
        issuer.verify_threshold_token C token sampleAuthority = true) ∧
      (∀ a ∈ [[65], [66]], sampleAuthority.get_verification_key (sampleKid a) =
        some (samplePair a)) ∧
      samplePair [65] ≠ samplePair [66] ∧
      ∀ key message signature, verify_data C key message signature = true →
        key = samplePair [65] := by
  intro C token
  have hnew : new 2 [[65], [66]] (.number wall_12) = .ok sampleIssuer := by
    have httl : not_positive (.number wall_12) = false := by decide +kernel
    rw [new, if_neg (by decide), if_neg (by decide), httl]
    rfl
  refine ⟨⟨sampleIssuer, hnew, by decide +kernel⟩, by decide +kernel, by decide, ?_⟩
  · intro key message signature hverify
    rw [verify_data, Bool.and_eq_true] at hverify
    exact mem_singleton.mp (of_decide_eq_true hverify.2).1

end ThresholdAuthorityIssuer

end Saacp
