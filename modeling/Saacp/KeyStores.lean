/-
The **stores of Ed25519 keys** that other components verify against: the trust store, where keys
are pinned to agents, and the capability authority, where they are registered under key ids.

Both are shared handles with their own locks, so each operation here is one step for whoever holds
a handle. Anchors, the verification epoch and the token registry of the authority are left out.
-/
import Saacp.Hashes
import Saacp.Table

set_option autoImplicit false

open ByteCodec

namespace Saacp

/-- The hex digest of the key. -/
def pub_key_fingerprint (H : Hashes) (key : List UInt8) : Text := hexText (H.sha256 key)

/-- Keys by agent and by fingerprint. -/
structure TrustStore where
  pinned_keys : Table Text (List UInt8)
  keys_by_fp : Table Text (List UInt8)

namespace TrustStore

def new : TrustStore := ⟨.empty, .empty⟩

/-- The last key that is pinned to an agent replaces those before it. -/
def pin_identity (H : Hashes) (t : TrustStore) (agent_id : Text) (key : List UInt8) : TrustStore :=
  ⟨t.pinned_keys.insert agent_id key, t.keys_by_fp.insert (pub_key_fingerprint H key) key⟩

/-- The fingerprint is taken as given. -/
def register_key_by_fingerprint (t : TrustStore) (fp : Text) (key : List UInt8) : TrustStore :=
  { t with keys_by_fp := t.keys_by_fp.insert fp key }

def get_pinned_key (t : TrustStore) (agent_id : Text) : Option (List UInt8) :=
  t.pinned_keys.get agent_id

def get_key_by_fingerprint (t : TrustStore) (fp : Text) : Option (List UInt8) :=
  t.keys_by_fp.get fp

end TrustStore

/-- Keys by key id. To whom a key belongs is not recorded. -/
structure CapabilityVerificationAuthority where
  keys : Table Text (List UInt8)

namespace CapabilityVerificationAuthority

def new : CapabilityVerificationAuthority := ⟨.empty⟩

variable (ca : CapabilityVerificationAuthority)

/-- A key id that is taken gets the new key. -/
def register_key (kid : Text) (key : List UInt8) : CapabilityVerificationAuthority :=
  ⟨ca.keys.insert kid key⟩

def get_verification_key (kid : Text) : Option (List UInt8) :=
  ca.keys.get kid

def revoke_trusted_key (kid : Text) : CapabilityVerificationAuthority :=
  ⟨ca.keys.remove kid⟩

end CapabilityVerificationAuthority

end Saacp
