/-
The **key schedule** of a session: epoch keys, the root ratchet, nonces and the keystream of
the context reference.

HKDF-SHA256 and AES-256-GCM are parameters; the only laws ever assumed of them are those of
`Crypto.Lawful`, and only where a frame has to be opened again. `schedule` is the abstract key
schedule, a function of the session identifier, the initial root, the ratchet setting and the epoch
number alone.
-/
import Saacp.ByteCodec

set_option autoImplicit false

open ByteCodec

namespace Saacp

open UInt32
open List hiding Vector

abbrev Key := Vector UInt8 32

abbrev SessionId := Vector UInt8 16

structure Crypto where
  /-- `Hkdf::<Sha256>::new(Some(salt), ikm)` expanded with `info` to `n` bytes. -/
  hkdf (salt ikm info : List UInt8) (n : ℕ) : Vector UInt8 n
  /-- `Hkdf::<Sha256>::from_prk(prk)` expanded with `info` to `n` bytes. -/
  hkdf_from_prk (prk info : List UInt8) (n : ℕ) : Vector UInt8 n
  /-- `Aes256Gcm::encrypt`: ciphertext followed by the tag. -/
  aes_gcm_encrypt (key : Key) (nonce : Vector UInt8 12) (msg aad : List UInt8) : Option (List UInt8)
  /-- `Aes256Gcm::decrypt`, of a ciphertext followed by its tag. -/
  aes_gcm_decrypt (key : Key) (nonce : Vector UInt8 12) (msg aad : List UInt8) : Option (List UInt8)

/-- Decryption inverts encryption, and the ciphertext is the message plus a sixteen-byte tag long.
-/
structure Crypto.Lawful (c : Crypto) : Prop where
  decrypt_encrypt : ∀ key nonce msg aad ct,
    c.aes_gcm_encrypt key nonce msg aad = some ct → c.aes_gcm_decrypt key nonce ct aad = some msg
  length_encrypt : ∀ key nonce msg aad ct,
    c.aes_gcm_encrypt key nonce msg aad = some ct → ct.length = msg.length + 16

def HKDF_EPOCH_KEY_INFO_PREFIX : List UInt8 := ascii "SAACP-MEASC-epoch-key-v1"
def HKDF_IV_INFO_PREFIX : List UInt8 := ascii "SAACP-MEASC-iv-v1"
def ROOT_RATCHET_INFO_PREFIX : List UInt8 := ascii "SAACP-MEASC-root-ratchet-v1"
def EASI_HKDF_INFO : List UInt8 := ascii "SAACP-EASI-context-ref-v1"

def be32 (n : UInt32) : List UInt8 := toBE 4 n.toNat

def be64 (n : UInt64) : List UInt8 := toBE 8 n.toNat

section

variable (c : Crypto)

def ratchet_root (old_root current_traffic_key : Key) (session_id : SessionId)
    (new_epoch_id : UInt32) : Key :=
  c.hkdf session_id.toList (xor old_root current_traffic_key).toList
    (ROOT_RATCHET_INFO_PREFIX ++ be32 new_epoch_id) 32

/-- The epoch key, mixed with the previous epoch's key when there is one. -/
def derive_epoch_key (session_secret : Key) (session_id : SessionId) (epoch_id : UInt32)
    (prev_key : Option Key) : Key :=
  match prev_key with
  | some pk =>
    c.hkdf session_id.toList (xor session_secret pk).toList
      (HKDF_EPOCH_KEY_INFO_PREFIX ++ be32 epoch_id) 32
  | none =>
    c.hkdf session_id.toList session_secret.toList
      (HKDF_EPOCH_KEY_INFO_PREFIX ++ be32 epoch_id) 32

def derive_iv (traffic_key : Key) (epoch_id : UInt32) (psn : UInt64) : Vector UInt8 12 :=
  c.hkdf_from_prk traffic_key.toList (HKDF_IV_INFO_PREFIX ++ be32 epoch_id ++ be64 psn) 12

def derive_pad (traffic_key : Key) (epoch_id : UInt32) (psn : UInt64) : Key :=
  c.hkdf (be32 epoch_id ++ be64 psn) traffic_key.toList EASI_HKDF_INFO 32

/-- `EasiEncryptor::encrypt`: the context reference under the frame's keystream. -/
def easi_encrypt (ctx_ref_id traffic_key : Key) (epoch_id : UInt32) (psn : UInt64) : Key :=
  xor ctx_ref_id (derive_pad c traffic_key epoch_id psn)

def easi_decrypt (encrypted traffic_key : Key) (epoch_id : UInt32) (psn : UInt64) : Key :=
  easi_encrypt c encrypted traffic_key epoch_id psn

theorem easi_decrypt_encrypt (ctx traffic_key : Key) (epoch_id : UInt32) (psn : UInt64) :
    easi_decrypt c (easi_encrypt c ctx traffic_key epoch_id psn) traffic_key epoch_id psn = ctx :=
  xor_cancel_right _ _

/-- The secret is bound to the negotiated suite when a transcript hash is given. -/
def bound_secret (session_secret : Key) (suite_transcript_hash : Option Key) : Key :=
  match suite_transcript_hash with
  | some tx_hash => c.hkdf tx_hash.toList session_secret.toList (ascii "SAACP-suite-binding") 32
  | none => session_secret

/-- The root `rotate_epoch` derives the next key from: ratcheted first when the ratchet is
on. -/
def next_root (root_ratchet : Bool) (root prev_key : Key) (session_id : SessionId)
    (new_epoch_id : UInt32) : Key :=
  if root_ratchet then ratchet_root c root prev_key session_id new_epoch_id else root

/-- **The abstract key schedule**: root and epoch key of epoch `n`. -/
def schedule (root_ratchet : Bool) (session_id : SessionId) (root : Key) : ℕ → Key × Key
  | 0 => (root, derive_epoch_key c root session_id 0 none)
  | n + 1 =>
    let prev := schedule root_ratchet session_id root n
    let new_root := next_root c root_ratchet prev.1 prev.2 session_id (UInt32.ofNat (n + 1))
    (new_root, derive_epoch_key c new_root session_id (UInt32.ofNat (n + 1)) (some prev.2))

theorem toNat_succ {n : UInt32} (hlt : n < n + 1) :
    (n + 1).toNat = n.toNat + 1 ∧ UInt32.ofNat (n.toNat + 1) = n + 1 := by
  have hnat : (n + 1).toNat = n.toNat + 1 := by
    rw [UInt32.lt_iff_toNat_lt, UInt32.toNat_add, UInt32.toNat_one] at hlt
    rw [UInt32.toNat_add, UInt32.toNat_one]
    omega
  exact ⟨hnat, by rw [← hnat, UInt32.ofNat_toNat]⟩

end

/-! ## A concrete instance

`sampleCrypto` agrees with HKDF-SHA256 and AES-256-GCM on the inputs of one small session
and is transparent elsewhere. Runs on fixed inputs are evaluated with it. -/

def sampleSid : SessionId := Vector.replicate 16 1
def sampleSecret : Key := Vector.replicate 32 2
def sampleKey0 : List UInt8 :=
  toBE 32 0x5a4382838fd34b59193cf1b0fe858f0141b487e87c45661fdb7061894f70cae4
def sampleRoot1 : List UInt8 :=
  toBE 32 0xbeb0d1ffb1de087c32daa808a37ef223558e249e570adcbda7c535cdda5cdc8a
def sampleKey1 : List UInt8 :=
  toBE 32 0x576acf430e1f8d70a1f8a2fc4ce263fd0a2432a51a20c0416c5c3df859cbc5f3

def sampleHkdf : List ((List UInt8 × List UInt8 × List UInt8) × List UInt8) :=
  [((sampleSid.toList, sampleSecret.toList, HKDF_EPOCH_KEY_INFO_PREFIX ++ be32 0), sampleKey0),
   ((sampleSid.toList, (xor sampleSecret (toArray 32 sampleKey0)).toList,
      ROOT_RATCHET_INFO_PREFIX ++ be32 1), sampleRoot1),
   ((sampleSid.toList, (xor (toArray 32 sampleRoot1) (toArray 32 sampleKey0)).toList,
      HKDF_EPOCH_KEY_INFO_PREFIX ++ be32 1), sampleKey1),
   ((be32 0 ++ be64 1, sampleKey0, EASI_HKDF_INFO),
      toBE 32 0xacc68f04a1facaf542b770582f7c1a807b5ddba96b570615d7ed884593c6989a),
   ((be32 0 ++ be64 2, sampleKey0, EASI_HKDF_INFO),
      toBE 32 0x9443714bb997a125a6afb70b1eb1df031afa67e913b6b6d6e8852400b7e255ae),
   ((be32 1 ++ be64 1, sampleKey1, EASI_HKDF_INFO),
      toBE 32 0x756deb56b6c474413201ecad902f25344595c6b12d85167715822155e5625678)]

def sampleIv : List ((List UInt8 × List UInt8) × List UInt8) :=
  [((sampleKey0, HKDF_IV_INFO_PREFIX ++ be32 0 ++ be64 1), toBE 12 0xc5008f746180e250c0abb556),
   ((sampleKey0, HKDF_IV_INFO_PREFIX ++ be32 0 ++ be64 2), toBE 12 0x4b336ecf7b263bf0db0ddf6f),
   ((sampleKey1, HKDF_IV_INFO_PREFIX ++ be32 1 ++ be64 1), toBE 12 0xa619b22d70718cc7d2bfaf0a)]

structure SealedSample where
  key : Key
  nonce : Vector UInt8 12
  msg : List UInt8
  aad : List UInt8
  ct : List UInt8

/-- Sample headers differ in the epoch number, the PSN and the context reference. -/
def sampleHeader (epoch_psn ctx : ℕ) : List UInt8 :=
  toBE 16 0x53414350000700010200000000000004 ++ List.replicate 16 1 ++ toBE 12 epoch_psn ++
    toBE 32 ctx ++ toBE 4 5 ++ List.replicate 24 4 ++ List.replicate 24 0

def sampleSealed : List SealedSample :=
  [{ key := toArray 32 sampleKey0
     nonce := toArray 12 (toBE 12 0xc5008f746180e250c0abb556)
     msg := ascii "ping"
     aad := sampleHeader 1
       0xafc58c07a2f9c9f641b4735b2c7f1983785ed8aa68540516d4ee8b4690c59b99
     ct := toBE 20 0xe2b836b67be71a057ecdab990d0cccc1e9183dd9 },
   { key := toArray 32 sampleKey0
     nonce := toArray 12 (toBE 12 0x4b336ecf7b263bf0db0ddf6f)
     msg := ascii "ping"
     aad := sampleHeader 2
       0x97407248ba94a226a5acb4081db2dc0019f964ea10b5b5d5eb862703b4e156ad
     ct := toBE 20 0x7f72b86e198200774e8d867cf761a818a8ba7e5f },
   { key := toArray 32 sampleKey1
     nonce := toArray 12 (toBE 12 0xa619b22d70718cc7d2bfaf0a)
     msg := ascii "ping"
     aad := sampleHeader 0x000000010000000000000001
       0x766ee855b5c777423102efae932c26374696c5b22e86157416812256e661557b
     ct := toBE 20 0x019da115ee651cc08e140864913dac466fc7dc34 }]

def sampleCrypto : Crypto where
  hkdf salt ikm info n := toArray n ((sampleHkdf.lookup (salt, ikm, info)).getD [])
  hkdf_from_prk prk info n := toArray n ((sampleIv.lookup (prk, info)).getD [])
  aes_gcm_encrypt key nonce msg aad :=
    match sampleSealed.find? fun s => s.key = key ∧ s.nonce = nonce ∧ s.msg = msg ∧ s.aad = aad with
    | some s => some s.ct
    | none => some (msg ++ List.replicate 16 0)
  aes_gcm_decrypt key nonce ct aad :=
    match sampleSealed.find? fun s => s.key = key ∧ s.nonce = nonce ∧ s.ct = ct ∧ s.aad = aad with
    | some s => some s.msg
    | none =>
      if ct.drop (ct.length - 16) = List.replicate 16 0 then some (ct.take (ct.length - 16))
      else none

theorem sampleCrypto_lawful : sampleCrypto.Lawful := by
  have hnonce : ∀ s ∈ sampleSealed, ∀ s' ∈ sampleSealed, s.nonce = s'.nonce → s.msg = s'.msg := by
    decide +kernel
  have htag : ∀ s ∈ sampleSealed, s.ct.drop (s.ct.length - 16) ≠ replicate 16 0 := by
    decide +kernel
  have hlen : ∀ s ∈ sampleSealed, s.ct.length = s.msg.length + 16 := by decide +kernel
  have hpad : ∀ msg : List UInt8, (msg ++ replicate 16 (0 : UInt8)).length - 16 = msg.length := by
    intro msg
    rw [length_append, length_replicate, Nat.add_sub_cancel]
  constructor
  · intro key nonce msg aad ct h
    simp only [sampleCrypto] at h ⊢
    split at h
    · rename_i s hs
      obtain rfl := Option.some.inj h
      have hmem := mem_of_find?_eq_some hs
      have hprop := find?_some hs
      simp only [decide_eq_true_eq] at hprop
      obtain ⟨hkey, hn, hmsg, haad⟩ := hprop
      split
      · rename_i s' hs'
        have hprop' := find?_some hs'
        simp only [decide_eq_true_eq] at hprop'
        rw [hnonce s' (mem_of_find?_eq_some hs') s hmem (hprop'.2.1.trans hn.symm), hmsg]
      · rename_i hnone
        have := find?_eq_none.mp hnone s hmem
        simp [hkey, hn, haad] at this
    · obtain rfl := Option.some.inj h
      split
      · rename_i s' hs'
        have hprop' := find?_some hs'
        simp only [decide_eq_true_eq] at hprop'
        refine absurd ?_ (htag s' (mem_of_find?_eq_some hs'))
        rw [hprop'.2.2.1, hpad, drop_left]
      · rw [hpad, drop_left, if_pos rfl, take_left]
  · intro key nonce msg aad ct h
    simp only [sampleCrypto] at h
    split at h
    · rename_i s hs
      obtain rfl := Option.some.inj h
      have hprop := find?_some hs
      simp only [decide_eq_true_eq] at hprop
      rw [hlen s (mem_of_find?_eq_some hs), hprop.2.2.1]
    · obtain rfl := Option.some.inj h
      rw [length_append, length_replicate]

end Saacp
