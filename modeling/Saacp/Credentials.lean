/-
**FAITF credentials**: what an `AgentCredential` says and who has signed it, the `TrustStore` with
its anchors, and the records of the `DistributedRevocationInfrastructure`.

The payload of a credential is a JSON value. What is signed is its text with the keys in order, and
the fingerprint is a hash of that text and the signature; the id of the issuer's key travels beside
them and is covered by neither. Doubles are kept as they stand in the payload and compared by the
numbers they stand for; how they are added and how an integer is rounded to one is left to the
platform. The epochs of the trust store and unread fields of an anchor are left out.
-/
import Saacp.Cluster
import Mathlib.Data.List.Infix

set_option autoImplicit false

open ByteCodec

namespace Saacp

def FAITF_VERSION : Text := ascii "1.0"

inductive Double
  | number (x : F64)
  | infinity (negative : Bool)
  | nan
  deriving DecidableEq

structure FaitfCrates extends ClusterCrates where
  base64_encode : List UInt8 → Text
  base64_decode : Text → Except String (List UInt8)
  ed25519_from_bytes : List UInt8 → Except String Unit
  f64_of_u64 : UInt64 → F64
  f64_of_i64 : Int64 → F64
  f64_add : F64 → F64 → F64

/-- `sorted_json_bytes`: the text of a value, an object with its keys in order. -/
def sorted_json_bytes (C : FaitfCrates) (value : Json) : List UInt8 :=
  C.json_to_vec value.sort_keys

theorem verify_data_length {C : ClusterCrates} {key message sig : List UInt8}
    (h : verify_data C key message sig = true) : sig.length = 64 := by
  rw [verify_data, Bool.and_eq_true] at h
  exact of_decide_eq_true h.1

/-- `verify_ed25519` of the token chains: the same code once more. -/
def verify_ed25519 (C : ClusterCrates) (verifying_key message signature : List UInt8) : Bool :=
  verify_data C verifying_key message signature

/-! ## Identities -/

inductive AttestationType
  | None
  | Tpm
  | Hsm
  | Tee
  | Enclave
  deriving DecidableEq

def AttestationType.value : AttestationType → Text
  | None => ascii "none"
  | Tpm => ascii "tpm"
  | Hsm => ascii "hsm"
  | Tee => ascii "tee"
  | Enclave => ascii "secure_enclave"

structure ProvisionedIdentity extends AgentIdentity where
  issuer_id : Text
  credential_version : UInt32
  not_before : F64
  not_after : F64
  trust_policy : Json
  revocation_info : Text
  supported_protocols : List Text
  capability_constraints : Json
  attestation_type : AttestationType

/-! ## Credentials -/

structure AgentCredential where
  payload : Json
  signature : List UInt8
  issuer_public_key_id : Text

namespace AgentCredential

variable (C : FaitfCrates)

def credential_payload (identity : ProvisionedIdentity) : Json :=
  .obj [("faitf_version", .str FAITF_VERSION), ("agent_id", .str identity.agent_id),
    ("public_key_b64", .str (C.base64_encode identity.verifying_key)),
    ("issuer_id", .str identity.issuer_id),
    ("credential_version", .pos_int identity.credential_version.toUInt64),
    ("not_before", .float identity.not_before),
    ("not_after", .float identity.not_after),
    ("trust_policy", identity.trust_policy),
    ("revocation_info", .str identity.revocation_info),
    ("supported_protocols", .arr (identity.supported_protocols.map .str)),
    ("capability_constraints", identity.capability_constraints),
    ("attestation_type", .str identity.attestation_type.value)]

def issue (H : Hashes) (C : FaitfCrates) (identity : ProvisionedIdentity)
    (issuer_signing_key issuer_verifying_key : List UInt8) : AgentCredential :=
  let payload := credential_payload C identity
  { payload
    signature := C.ed25519_sign issuer_signing_key (sorted_json_bytes C payload)
    issuer_public_key_id := pub_key_fingerprint H issuer_verifying_key }

variable (cred : AgentCredential)

def agent_public_key : Except String (List UInt8) :=
  match (cred.payload.get "public_key_b64").bind Json.as_str with
  | none => .error "Missing public_key_b64"
  | some pk_b64 =>
    match C.base64_decode pk_b64 with
    | .error e => .error s!"Base64 decode error: {e}"
    | .ok pk_bytes =>
      if pk_bytes.length ≠ 32 then .error "Invalid public key length"
      else
        match C.ed25519_from_bytes pk_bytes with
        | .error e => .error s!"Invalid Ed25519 key: {e}"
        | .ok () => .ok pk_bytes

def agent_id (cred : AgentCredential) : Text :=
  ((cred.payload.get "agent_id").bind Json.as_str).getD []

def seconds (key : String) : F64 :=
  ((cred.payload.get key).bind (Json.as_f64 C.f64_of_u64 C.f64_of_i64)).getD ⟨0, F64.finite_zero⟩

def is_expired (now : ℚ) : Bool :=
  (cred.seconds C "not_after").toRat < now

def is_active (now : ℚ) : Bool :=
  (cred.seconds C "not_before").toRat ≤ now && now ≤ (cred.seconds C "not_after").toRat

def fingerprint (H : Hashes) (C : FaitfCrates) (cred : AgentCredential) : Text :=
  hexText (H.sha256 (sorted_json_bytes C cred.payload ++ cred.signature))

structure Same (a b : AgentCredential) : Prop where
  payload : a.payload.sort_keys = b.payload.sort_keys
  signature : a.signature = b.signature

namespace Same

variable {a b : AgentCredential}

theorem get (h : a.Same b) (key : String) : a.payload.get key = b.payload.get key := by
  rw [← Json.get_sort_keys a.payload, ← Json.get_sort_keys b.payload, h.payload]

theorem agent_id (h : a.Same b) : a.agent_id = b.agent_id := by
  rw [AgentCredential.agent_id, AgentCredential.agent_id, h.get]

theorem fingerprint (h : a.Same b) (H : Hashes) (C : FaitfCrates) :
    a.fingerprint H C = b.fingerprint H C := by
  rw [AgentCredential.fingerprint, AgentCredential.fingerprint, sorted_json_bytes,
    sorted_json_bytes, h.payload, h.signature]

end Same

theorem fingerprint_injective {H : Hashes} {C : FaitfCrates} {a b : AgentCredential}
    (hsha : Function.Injective H.sha256) (hjson : Function.Injective C.json_to_vec)
    (hlen : a.signature.length = b.signature.length)
    (h : a.fingerprint H C = b.fingerprint H C) : a.Same b := by
  have hhash : H.sha256 (sorted_json_bytes C a.payload ++ a.signature) =
      H.sha256 (sorted_json_bytes C b.payload ++ b.signature) := by
    have hdecoded := congrArg hexDecode h
    rw [fingerprint, fingerprint, hexDecode_hexText, hexDecode_hexText] at hdecoded
    exact Option.some.inj hdecoded
  obtain ⟨htext, hsig⟩ := List.append_inj' (hsha hhash) hlen
  exact ⟨hjson htext, hsig⟩

end AgentCredential

/-! ## Trust anchors -/

structure TrustAnchor where
  anchor_id : Text
  verifying_key : List UInt8
  trust_domains : List Text
  valid_until : ℚ

namespace TrustAnchor

def covers_domain (a : TrustAnchor) (domain : Text) : Bool :=
  a.trust_domains.isEmpty || a.trust_domains.any fun d => d = domain

/-- `verify_credential`, also as `verify_credential_fast` of a snapshot. -/
def verify_credential (H : Hashes) (C : FaitfCrates) (a : TrustAnchor) (cred : AgentCredential)
    (now : ℚ) : Bool :=
  now ≤ a.valid_until && pub_key_fingerprint H a.verifying_key = cred.issuer_public_key_id &&
    verify_data C.toClusterCrates a.verifying_key (sorted_json_bytes C cred.payload) cred.signature

end TrustAnchor

structure CheckTimes where
  expired : ℚ
  active : ℚ
  anchor : Text → ℚ

structure AnchoredTrustStore extends TrustStore where
  anchors : Table Text TrustAnchor

namespace AnchoredTrustStore

def new : AnchoredTrustStore := ⟨.new, .empty⟩

def register_anchor (ts : AnchoredTrustStore) (anchor : TrustAnchor) : AnchoredTrustStore :=
  { ts with anchors := ts.anchors.insert anchor.anchor_id anchor }

/-- `verify_credential`: by the key that is pinned to the agent, or by an anchor. -/
def verify_credential (H : Hashes) (C : FaitfCrates) (ts : AnchoredTrustStore)
    (cred : AgentCredential) (trust_domain : Text) (times : CheckTimes) : Bool × String :=
  if cred.is_expired C times.expired then (false, "credential_expired")
  else if !cred.is_active C times.active then (false, "credential_not_yet_active")
  else if (ts.pinned_keys.get cred.agent_id).any fun pinned_pub =>
      verify_data C.toClusterCrates pinned_pub (sorted_json_bytes C cred.payload) cred.signature
  then (true, "")
  else if ts.anchors.entries.any fun e =>
      (trust_domain.isEmpty || e.2.covers_domain trust_domain) &&
        e.2.verify_credential H C cred (times.anchor e.1)
  then (true, "")
  else if ts.anchors.len = 0 && ts.pinned_keys.len = 0 then (false, "no_trust_anchors_registered")
  else (false, "no_anchor_verified_credential")

theorem signature_length_of_verified {H : Hashes} {C : FaitfCrates} {ts : AnchoredTrustStore}
    {cred : AgentCredential} {trust_domain : Text} {times : CheckTimes}
    (h : (ts.verify_credential H C cred trust_domain times).1 = true) :
    cred.signature.length = 64 := by
  rw [verify_credential] at h
  split_ifs at h with hexpired hactive hpinned hanchor hempty
  · obtain ⟨key, -, hverify⟩ := (Option.any_eq_true _ _).mp hpinned
    exact verify_data_length hverify
  · obtain ⟨e, -, he⟩ := List.any_eq_true.mp hanchor
    rw [Bool.and_eq_true, TrustAnchor.verify_credential, Bool.and_eq_true] at he
    exact verify_data_length he.2.2

def remove_anchor (ts : AnchoredTrustStore) (anchor_id : Text) : AnchoredTrustStore × Bool :=
  ({ ts with anchors := ts.anchors.remove anchor_id }, ts.anchors.contains anchor_id)

/-! ### Pinned keys and keys by fingerprint -/

inductive Change
  | pin_identity (agent_id : Text) (public_key : List UInt8)
  | register_key_by_fingerprint (fingerprint : Text) (public_key : List UInt8)
  | register_anchor (anchor : TrustAnchor)
  | remove_anchor (anchor_id : Text)

variable (H : Hashes)

def change (ts : AnchoredTrustStore) : Change → AnchoredTrustStore
  | .pin_identity agent_id key => { ts with toTrustStore := ts.pin_identity H agent_id key }
  | .register_key_by_fingerprint fp key =>
    { ts with toTrustStore := ts.register_key_by_fingerprint fp key }
  | .register_anchor anchor => ts.register_anchor anchor
  | .remove_anchor anchor_id => (ts.remove_anchor anchor_id).1

def changed (changes : List Change) : AnchoredTrustStore := changes.foldl (change H) .new

variable {H}

/-- The change does not replace the key of an agent, and a key is registered under its own
fingerprint. -/
def Keeps (H : Hashes) (ts : AnchoredTrustStore) : Change → Prop
  | .pin_identity agent_id key => ∀ old, ts.get_pinned_key agent_id = some old → old = key
  | .register_key_by_fingerprint fp key => fp = pub_key_fingerprint H key
  | _ => True

/-- **A key that is found by its fingerprint is pinned or was registered**, after any sequence of
changes of which none replaces a key. -/
theorem found_key_pinned (H : Hashes) (changes : List Change)
    (hkeeps : ∀ before c after, changes = before ++ c :: after → (changed H before).Keeps H c) :
    ∀ fp key, (changed H changes).get_key_by_fingerprint fp = some key →
      fp = pub_key_fingerprint H key ∧
        ((∃ agent_id, (changed H changes).get_pinned_key agent_id = some key) ∨
          .register_key_by_fingerprint fp key ∈ changes) := by
  induction changes using List.reverseRecOn with
  | nil => exact fun fp key h => nomatch (Table.get_empty fp).symm.trans h
  | append_singleton changes c ih =>
    have hlast := hkeeps changes c [] rfl
    replace ih := ih fun before c' after heq =>
      hkeeps before c' (after ++ [c]) (by rw [heq, List.append_assoc, List.cons_append])
    rw [changed, List.foldl_concat]
    have hold : ∀ fp key, (changed H changes).keys_by_fp.get fp = some key →
        fp = pub_key_fingerprint H key ∧
          ((∃ agent_id, (changed H changes).get_pinned_key agent_id = some key) ∨
            .register_key_by_fingerprint fp key ∈ changes ++ [c]) := fun fp key h =>
      (ih fp key h).imp id (.imp id (List.mem_append_left _))
    cases c with
    | pin_identity agent_id key =>
      refine Table.forall_insert (fun fp' key' h => ?_)
        ⟨rfl, .inl ⟨agent_id, Table.get_insert_self _ _ _⟩⟩
      obtain ⟨hfp, ⟨a, ha⟩ | hreg⟩ := hold fp' key' h
      · refine ⟨hfp, .inl ⟨a, ?_⟩⟩
        show ((changed H changes).pinned_keys.insert agent_id key).get a = some key'
        rw [Table.get_insert]
        split_ifs with hagent
        · rw [hlast key' (hagent ▸ ha)]
        · exact ha
      · exact ⟨hfp, .inr hreg⟩
    | register_key_by_fingerprint fp key =>
      exact Table.forall_insert hold ⟨hlast, .inr (by simp)⟩
    | register_anchor | remove_anchor => exact hold

/-- Two agents are pinned, one of them again with its key, and a third key is registered. -/
theorem found_key_pinned_sample :
    let changes := [.pin_identity [65] [1], .pin_identity [66] [2], .pin_identity [65] [1],
      .register_key_by_fingerprint (hexText [3]) [3]]
    let ts := changed ⟨id, fun _ => id⟩ changes
    ts.get_key_by_fingerprint (hexText [2]) = some [2] ∧
      ∃ agent_id, ts.get_pinned_key agent_id = some [2] := by
  intro changes ts
  have hfound : ts.get_key_by_fingerprint (hexText [2]) = some [2] := by decide +kernel
  refine ⟨hfound, (found_key_pinned _ changes ?_ _ _ hfound).2.resolve_right (by simp [changes])⟩
  intro before c after heq
  dsimp only [changes] at heq
  obtain _ | ⟨c₁, _ | ⟨c₂, _ | ⟨c₃, _ | ⟨c₄, before⟩⟩⟩⟩ := before
  · cases heq
    exact fun old h => absurd (show none = some old from h) (by simp)
  · cases heq
    exact fun old h => absurd (show none = some old from h) (by simp)
  · cases heq
    exact fun old h => (Option.some.inj h).symm
  · cases heq
    rfl
  · simp at heq

/-- **The old key is still found** by its fingerprint after the agent was pinned to another. -/
theorem replaced_key_found :
    let ts := changed ⟨id, fun _ => id⟩ [.pin_identity [65] [1], .pin_identity [65] [2]]
    ts.get_key_by_fingerprint (hexText [1]) = some [1] ∧
      ts.pinned_keys.entries = [([65], [2])] := by
  decide +kernel

end AnchoredTrustStore

/-! ## Revocation -/

def DRI_MAX_RECORDS : ℕ := 100000
def REVOCATION_RETENTION_DAYS : ℚ := 90
def DRI_EVICT_BATCH : ℕ := 64

def HIGH_SEVERITY_REASON_MARKERS : List Text :=
  [ascii "compromise", ascii "collusion", ascii "security-incident", ascii "security_incident",
    ascii "malicious", ascii "key-leak", ascii "key_leak", ascii "critical"]

def lower (b : UInt8) : UInt8 := if 65 ≤ b ∧ b ≤ 90 then b + 32 else b

structure SignedRevocationRecord where
  agent_id : Text
  credential_fingerprint : Text
  reason : Text
  revoked_at : F64
  revoker_id : Text
  revoker_signature : List UInt8
  revoker_key_id : Text
  deriving DecidableEq

namespace SignedRevocationRecord

def body_bytes (C : FaitfCrates) (r : SignedRevocationRecord) : List UInt8 :=
  sorted_json_bytes C (.obj [("agent_id", .str r.agent_id),
    ("credential_fingerprint", .str r.credential_fingerprint),
    ("reason", .str r.reason),
    ("revoked_at", .float r.revoked_at),
    ("revoker_id", .str r.revoker_id)])

def age_days (r : SignedRevocationRecord) (now : ℚ) : ℚ := max (now - r.revoked_at.toRat) 0 / 86400

def is_high_severity (r : SignedRevocationRecord) : Bool :=
  HIGH_SEVERITY_REASON_MARKERS.any fun marker => marker <:+: r.reason.map lower

end SignedRevocationRecord

structure DistributedRevocationInfrastructure where
  revoked_agents : Table Text SignedRevocationRecord
  revoked_credentials : Table Text SignedRevocationRecord
  revocation_epoch : ℕ

namespace DistributedRevocationInfrastructure

def new : DistributedRevocationInfrastructure := ⟨.empty, .empty, 0⟩

/-- The oldest first, at most a batch of them. The clock is read for every record. -/
def evict_stale_low_severity (order : MapOrder SignedRevocationRecord) (now : Text → ℚ)
    (map : Table Text SignedRevocationRecord) : Table Text SignedRevocationRecord × ℕ :=
  let stale := (order.walk map.entries).filter fun e =>
    REVOCATION_RETENTION_DAYS < e.2.age_days (now e.1) && !e.2.is_high_severity
  let candidates := (stale.insertionSort fun a b =>
    a.2.revoked_at.toRat ≤ b.2.revoked_at.toRat).take DRI_EVICT_BATCH
  (map.removeAll (candidates.map Prod.fst), candidates.length)

def put_record (dri : DistributedRevocationInfrastructure) (record : SignedRevocationRecord) :
    DistributedRevocationInfrastructure :=
  let dri := { dri with revocation_epoch := dri.revocation_epoch + 1 }
  if record.credential_fingerprint ≠ [] then
    { dri with
      revoked_credentials := dri.revoked_credentials.insert record.credential_fingerprint record }
  else { dri with revoked_agents := dri.revoked_agents.insert record.agent_id record }

/-- `store_record`; `none` is `DRIError::AtCapacity`. -/
def store_record (order : MapOrder SignedRevocationRecord) (now : Text → ℚ)
    (dri : DistributedRevocationInfrastructure) (record : SignedRevocationRecord) :
    Option DistributedRevocationInfrastructure :=
  if DRI_MAX_RECORDS ≤ dri.revoked_agents.len + dri.revoked_credentials.len then
    if dri.revoked_credentials.len ≤ dri.revoked_agents.len then
      let (agents, evicted) := evict_stale_low_severity order now dri.revoked_agents
      if evicted = 0 then none
      else some ({ dri with revoked_agents := agents }.put_record record)
    else
      let (creds, evicted) := evict_stale_low_severity order now dri.revoked_credentials
      if evicted = 0 then none
      else some ({ dri with revoked_credentials := creds }.put_record record)
  else some (dri.put_record record)

/-- The clock is read for the record, and for each record that is looked at. -/
def revoke (H : Hashes) (C : FaitfCrates) (order : MapOrder SignedRevocationRecord)
    (revoked_at : F64) (now : Text → ℚ) (dri : DistributedRevocationInfrastructure)
    (agent_id reason : Text)
    (revoker_identity : AgentIdentity) (credential_fingerprint : Text) :
    Option DistributedRevocationInfrastructure :=
  let record : SignedRevocationRecord := {
    agent_id, credential_fingerprint, reason, revoked_at
    revoker_id := revoker_identity.agent_id
    revoker_signature := []
    revoker_key_id := pub_key_fingerprint H revoker_identity.verifying_key }
  store_record order now dri { record with
    revoker_signature := C.ed25519_sign revoker_identity.signing_key (record.body_bytes C) }

def is_revoked (dri : DistributedRevocationInfrastructure)
    (agent_id credential_fingerprint : Text) : Bool :=
  dri.revoked_agents.contains agent_id ||
    !credential_fingerprint.isEmpty && dri.revoked_credentials.contains credential_fingerprint

theorem is_revoked_revoke (H : Hashes) (C : FaitfCrates) (order : MapOrder SignedRevocationRecord)
    (revoked_at : F64) (now : Text → ℚ) (dri : DistributedRevocationInfrastructure)
    (agent_id reason : Text) (revoker_identity : AgentIdentity) (fp : Text)
    (hroom : dri.revoked_agents.len + dri.revoked_credentials.len < DRI_MAX_RECORDS)
    (hfp : fp ≠ []) :
    ∃ dri', dri.revoke H C order revoked_at now agent_id reason revoker_identity fp = some dri' ∧
      ∀ agent other, dri'.is_revoked agent other = (dri.is_revoked agent other || other = fp) := by
  rw [revoke, store_record, if_neg (by omega)]
  refine ⟨_, rfl, ?_⟩
  intro agent other
  simp only [put_record, ne_eq, hfp, not_false_eq_true, if_true, is_revoked, Table.contains,
    Table.get_insert]
  by_cases hother : other = fp
  · subst hother
    have hempty : other.isEmpty = false := List.isEmpty_eq_false_iff.mpr hfp
    simp [hempty]
  · rw [if_neg hother]
    simp [hother]

end DistributedRevocationInfrastructure

def sampleAnchors : AnchoredTrustStore :=
  AnchoredTrustStore.new.register_anchor ⟨[90], sampleKey 90, [], 12⟩

end Saacp
