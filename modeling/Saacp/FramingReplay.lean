/-
**Raw frames with replay protection**: `framing::MEASCFrame`, which is used without an epoch
manager, and a nonce tracker.

Key and nonce of a frame are derived from session, epoch and PSN; what the tracker keeps of it is a
hash of session and PSN alone. The header has the layout of the frames of an epoch.
-/
import Saacp.Handler
import Saacp.MeascFrame
import Saacp.NonceTracker

set_option autoImplicit false

open ByteCodec

namespace Saacp

open NonceTracker Table
open List hiding Vector

def FRAMING_MEASC_HKDF_INFO : List UInt8 := ascii "SAACP-FRAMING-MEASCFrame-key-iv-v1"

namespace Framing

/-- What a sender fills in; the length of the payload is computed. -/
structure MEASCFrame where
  args : FrameArgs
  session_id : SessionId
  epoch_id : UInt32
  psn : UInt64
  deriving DecidableEq

section

variable (c : Crypto) (H : Hashes) (secret_key : List UInt8)

def derive_frame_key_iv (session_id : SessionId) (epoch_id : UInt32) (psn : UInt64) :
    Key × Vector UInt8 12 :=
  let okm := (c.hkdf session_id.toList secret_key
    (FRAMING_MEASC_HKDF_INFO ++ be32 epoch_id ++ be64 psn) 44).toList
  (toArray 32 (slice okm 0 32), toArray 12 (slice okm 32 44))

def encode_encrypted (f : MEASCFrame) : Result (List UInt8) :=
  if MEASC_MAX_PAYLOAD < f.args.payload.length then
    .error ⟨.PayloadTooLarge, "MEASCFrame: payload exceeds 10MB MTU limit"⟩
  else
    let header := encode_header f.args f.session_id f.epoch_id f.psn f.args.context_ref_id
    let (key, iv) := derive_frame_key_iv c secret_key f.session_id f.epoch_id f.psn
    match c.aes_gcm_encrypt key iv f.args.payload header with
    | none => .error ⟨.InvalidSignature, "AES-256-GCM encryption failed: aead::Error"⟩
    | some encrypted =>
      let at_ := encrypted.length - 16
      .ok (header ++ encrypted.drop at_ ++ encrypted.take at_)

/-- `decode`, and the two checks of `parse_header_inner` that follow it. -/
def decode (packet : List UInt8) : Result FrameHeader :=
  let header := slice packet 0 MEASC_HEADER_SIZE
  let payload_length := (UInt32.ofNat (ofBE (slice header 12 16))).toNat
  let ciphertext_end := MEASC_HEADER_SIZE + MEASC_AUTH_TAG_SIZE + payload_length
  if packet.length < MEASC_HEADER_SIZE then
    .error ⟨.MalformedHeader, "MEASCFrame too short: expected " ++ toString MEASC_HEADER_SIZE ++
      " bytes, got " ++ toString packet.length⟩
  else if slice header 0 4 ≠ MEASC_MAGIC then
    .error ⟨.MalformedHeader, "MEASCFrame: invalid magic bytes: expected " ++
      debug_bytes MEASC_MAGIC ++ ", got " ++ debug_bytes (slice header 0 4)⟩
  else if MEASC_MAX_PAYLOAD < payload_length then
    .error ⟨.PayloadTooLarge, "MEASCFrame: payload_length " ++ toString payload_length ++
      " exceeds " ++ toString MEASC_MAX_PAYLOAD ++ " byte MTU"⟩
  else if packet.length < ciphertext_end then
    .error ⟨.MalformedHeader, "MEASCFrame: packet too short for tag+payload: need " ++
      toString ciphertext_end ++ " bytes, got " ++ toString packet.length⟩
  else decode_header packet

def parsed (h : FrameHeader) (payload : List UInt8) : ParsedFrame where
  schema_id := h.schema_id
  status_code := h.status_code
  flags := h.flags
  action_class := h.action_class
  session_uuid := hexText h.session_id.toList
  sequence_id := h.psn
  context_state_id := hexText h.context_ref_id.toList
  context_version := h.context_version.toUInt64
  traceparent := h.traceparent.toList
  payload := payload

/-- The tracker is asked before anything is decrypted, and told only afterwards. -/
def parse_header_with_replay (t : NonceTracker) (packet : List UInt8) (now : ℚ) :
    NonceTracker × Result ParsedFrame :=
  match decode packet with
  | .error e => (t, .error e)
  | .ok h =>
    let session_hex := hexText h.session_id.toList
    if t.contains (composite_key H session_hex h.psn) then
      (t, .error ⟨.InvalidSignature, "REPLAY ATTACK DETECTED: (session, psn) already used."⟩)
    else
      let (key, iv) := derive_frame_key_iv c secret_key h.session_id h.epoch_id h.psn
      match c.aes_gcm_decrypt key iv (h.ciphertext ++ h.auth_tag) h.header with
      | none =>
        (t, .error ⟨.InvalidSignature, "AES-GCM Authentication Failed. Tampering Detected."⟩)
      | some payload =>
        match t.track_scoped H session_hex h.psn now with
        | (t, .error e) => (t, .error e)
        | (t, .ok ()) => (t, .ok (parsed h payload))

/-- The tracker after a sequence of deliveries. -/
def deliver (t : NonceTracker) (packets : List (List UInt8 × ℚ)) : NonceTracker :=
  packets.foldl (fun t p => (parse_header_with_replay c H secret_key t p.1 p.2).1) t

end

/-- What the tracker keeps of a frame. -/
def MEASCFrame.replay_key (H : Hashes) (f : MEASCFrame) : UInt64 :=
  composite_key H (hexText f.session_id.toList) f.psn

/-! ## One delivery -/

variable {c : Crypto} {H : Hashes} {secret_key : List UInt8} {t t' : NonceTracker} {f : MEASCFrame}
  {packet : List UInt8}

theorem decode_of_header {h : FrameHeader} (hheader : decode_header packet = .ok h) :
    decode packet = .ok h := by
  have hread := hheader
  unfold decode_header at hread
  unfold decode
  simp only at hread
  split_ifs at hread with hshort hmagic hlong hend
  have hsize : ¬ packet.length < MEASC_HEADER_SIZE := by
    unfold MIN_FRAME_SIZE at hshort
    omega
  rw [if_neg hsize, if_neg hmagic, if_neg hlong, if_neg hend, hheader]

/-- **A frame reads back.** -/
theorem parse_encoded (hc : c.Lawful) (h : encode_encrypted c secret_key f = .ok packet) (now : ℚ) :
    (t.contains (f.replay_key H) = true →
      ∃ e, parse_header_with_replay c H secret_key t packet now = (t, .error e)) ∧
    (t.contains (f.replay_key H) = false → t.track_key (f.replay_key H) now = (t', .ok ()) →
      ∃ p, parse_header_with_replay c H secret_key t packet now = (t', .ok p)) := by
  unfold encode_encrypted at h
  split_ifs at h with hlong
  dsimp only at h
  split at h
  · cases h
  rename_i ct hct
  have hlen := hc.length_encrypt _ _ _ _ _ hct
  have hcut : ct.length - 16 = f.args.payload.length := by omega
  rw [hcut, Except.ok.injEq] at h
  have hdecode := decode_of_header (decode_header_frame f.args f.session_id f.epoch_id f.psn
    f.args.context_ref_id (not_lt.mp hlong) hlen)
  rw [h] at hdecode
  unfold parse_header_with_replay track_scoped
  rw [hdecode]
  dsimp only
  rw [take_append_drop, hc.decrypt_encrypt _ _ _ _ _ hct, ← MEASCFrame.replay_key]
  constructor
  · intro hseen
    rw [if_pos hseen]
    exact ⟨_, rfl⟩
  · intro hfresh htrack
    rw [if_neg (by simp [hfresh])]
    simp only [htrack]
    exact ⟨_, rfl⟩

/-! ## Every delivery -/

/-- A frame that has been sent: what it was built from, and the packet. -/
abbrev Sent := MEASCFrame × List UInt8

variable {frames delivered : List Sent} {f : Sent}

/-- The tracker holds the keys of what has been delivered, and nothing else. -/
def Holds (H : Hashes) (t : NonceTracker) (delivered : List Sent) : Prop :=
  ∀ k, t.contains k = true ↔ ∃ f ∈ delivered, f.1.replay_key H = k

theorem holds_inserted (h : Holds H t delivered) (f : Sent) (now : ℚ) :
    Holds H (t.inserted (f.1.replay_key H) now) (delivered ++ [f]) := by
  intro k
  have hk := h k
  unfold NonceTracker.contains Table.contains at hk ⊢
  rw [inserted, get_insert]
  split_ifs with heq
  · exact iff_of_true rfl ⟨f, by simp, heq.symm⟩
  · rw [hk]
    simp only [mem_append, mem_singleton, or_and_right, exists_or, exists_eq_left, Ne.symm heq,
      or_false]

/-- Below its capacity the tracker takes every key that it does not hold. -/
theorem track_of_room (hholds : Holds H t delivered)
    (hdelivered : ∀ g ∈ delivered ++ [f], g ∈ frames) (hroom : frames.length ≤ t.max_entries)
    (hfresh : t.contains (f.1.replay_key H) = false) (now : ℚ) :
    t.track_key (f.1.replay_key H) now = (t.inserted (f.1.replay_key H) now, .ok ()) := by
  have hcount : (t.inserted (f.1.replay_key H) now).count ≤ t.max_entries := by
    have hkeys : (frames.map fun g => g.1.replay_key H).length ≤ t.max_entries :=
      (length_map _).trans_le hroom
    refine le_trans (len_le_length fun k seen hk => ?_) hkeys
    have hcontains : (t.inserted (f.1.replay_key H) now).contains k = true := by
      rw [NonceTracker.contains, Table.contains, hk]
      rfl
    obtain ⟨g, hg, rfl⟩ := (holds_inserted hholds f now k).mp hcontains
    exact mem_map_of_mem (hdelivered g hg)
  rw [track_key, if_neg (by simp [hfresh]), if_neg]
  exact fun hdue => absurd hdue.2 (not_lt.mpr hcount)

/-- **One delivery**: it is accepted if no frame with its key has been delivered. -/
theorem deliver_one (hc : c.Lawful) (hmade : encode_encrypted c secret_key f.1 = .ok f.2)
    (hroom : frames.length ≤ t.max_entries) (hdelivered : ∀ g ∈ delivered ++ [f], g ∈ frames)
    (hholds : Holds H t delivered) (now : ℚ) :
    let parsed := parse_header_with_replay c H secret_key t f.2 now
    (parsed.2.isOk = true ↔ ∀ g ∈ delivered, g.1.replay_key H ≠ f.1.replay_key H) ∧
      parsed.1.max_entries = t.max_entries ∧ Holds H parsed.1 (delivered ++ [f]) := by
  obtain ⟨hold, hnew⟩ := parse_encoded (H := H) (t := t) hc hmade now
  have hkey := hholds (f.1.replay_key H)
  cases hseen : t.contains (f.1.replay_key H) with
  | true =>
    obtain ⟨e, hparse⟩ := hold hseen
    obtain ⟨g, hg, hsame⟩ := hkey.mp hseen
    rw [hparse]
    refine ⟨iff_of_false Bool.false_ne_true fun hne => hne g hg hsame, rfl, ?_⟩
    intro k
    rw [hholds k]
    simp only [mem_append, mem_singleton, or_and_right, exists_or, exists_eq_left]
    exact ⟨.inl, fun h => h.elim id fun hk => ⟨g, hg, hsame.trans hk⟩⟩
  | false =>
    obtain ⟨p, hparse⟩ := hnew hseen (track_of_room hholds hdelivered hroom hseen now)
    rw [hparse]
    refine ⟨iff_of_true rfl fun g hg hsame => ?_, rfl, holds_inserted hholds f now⟩
    exact absurd (hkey.mpr ⟨g, hg, hsame⟩) (by simp [hseen])

/-- **Every sequence of deliveries.** -/
theorem deliver_holds (hc : c.Lawful)
    (hmade : ∀ f ∈ frames, encode_encrypted c secret_key f.1 = .ok f.2)
    (max_age : MaxAge) {max_entries : ℕ} (hroom : frames.length ≤ max_entries)
    (before : List (Sent × ℚ)) (hbefore : ∀ g ∈ before.map Prod.fst, g ∈ frames) :
    (deliver c H secret_key (with_limits max_age max_entries)
        (before.map fun d => (d.1.2, d.2))).max_entries = max_entries ∧
      Holds H (deliver c H secret_key (with_limits max_age max_entries)
        (before.map fun d => (d.1.2, d.2))) (before.map Prod.fst) := by
  induction before using List.reverseRecOn with
  | nil =>
    refine ⟨rfl, fun k => ?_⟩
    simp [deliver, NonceTracker.contains, with_limits, Table.contains]
  | append_singleton before d ih =>
    rw [map_append] at hbefore
    obtain ⟨hmax, hholds⟩ := ih fun g hg => hbefore g (mem_append_left _ hg)
    have hd : d.1 ∈ frames := hbefore d.1 (by simp)
    obtain ⟨-, hmax', hholds'⟩ := deliver_one hc (hmade d.1 hd) (hroom.trans_eq hmax.symm) hbefore
      hholds d.2
    rw [map_append, map_append, deliver, foldl_append]
    exact ⟨hmax'.trans hmax, hholds'⟩

/-- **Each frame is accepted exactly once**: in every sequence of deliveries of the packets of
`frames`, to a tracker with room for all of them, a delivery is accepted if it is the first one of
its packet, and only then. No two of the frames may share session and PSN, and no two of their keys
may collide. -/
theorem frames_accepted_once (hc : c.Lawful) (secret_key : List UInt8) (frames : List Sent)
    (hmade : ∀ f ∈ frames, encode_encrypted c secret_key f.1 = .ok f.2)
    (hcollision : ∀ f ∈ frames, ∀ g ∈ frames, f.1.replay_key H = g.1.replay_key H →
      f.1.session_id = g.1.session_id ∧ f.1.psn = g.1.psn)
    (hpsn : ∀ f ∈ frames, ∀ g ∈ frames, f.1.session_id = g.1.session_id → f.1.psn = g.1.psn → f = g)
    (max_age : MaxAge) {max_entries : ℕ} (hroom : frames.length ≤ max_entries)
    (before : List (Sent × ℚ)) (hbefore : ∀ g ∈ before.map Prod.fst, g ∈ frames) {f : Sent}
    (hf : f ∈ frames) (now : ℚ) :
    (parse_header_with_replay c H secret_key (deliver c H secret_key
        (with_limits max_age max_entries) (before.map fun d => (d.1.2, d.2))) f.2 now).2.isOk =
      decide (f ∉ before.map Prod.fst) := by
  obtain ⟨hmax, hholds⟩ := deliver_holds (H := H) hc hmade max_age hroom before hbefore
  have hdelivered : ∀ g ∈ before.map Prod.fst ++ [f], g ∈ frames := by
    simpa [or_imp, forall_and, hf] using hbefore
  obtain ⟨hone, -⟩ := deliver_one hc (hmade f hf) (hroom.trans_eq hmax.symm) hdelivered hholds now
  rw [Bool.eq_iff_iff, hone, decide_eq_true_iff]
  constructor
  · exact fun hne hmem => hne f hmem rfl
  · intro hfirst g hg hsame
    obtain ⟨hsession, hpsns⟩ := hcollision g (hbefore g hg) f hf hsame
    exact hfirst (hpsn g (hbefore g hg) f hf hsession hpsns ▸ hg)

/-! ## Two epochs -/

def sampleFrame (epoch_id : UInt32) (psn : UInt64) : MEASCFrame :=
  ⟨sampleArgs, Vector.replicate 16 9, epoch_id, psn⟩

def samplePacket (epoch_id : UInt32) (psn : UInt64) : List UInt8 :=
  match encode_encrypted sampleCrypto (ascii "secret") (sampleFrame epoch_id psn) with
  | .ok packet => packet
  | .error _ => []

/-- The second frame comes first: both are accepted, and the second one only once. -/
theorem frames_accepted_once_sample :
    let first : Sent := (sampleFrame 1 1, samplePacket 1 1)
    let second : Sent := (sampleFrame 1 2, samplePacket 1 2)
    let accepts (before : List (List UInt8 × ℚ)) (f : Sent) (now : ℚ) : Bool :=
      (parse_header_with_replay sampleCrypto sampleHashes (ascii "secret")
        (deliver sampleCrypto sampleHashes (ascii "secret") (with_limits (.seconds 300) 2) before)
        f.2 now).2.isOk
    accepts [(second.2, 0)] first 1 = true ∧
      accepts [(second.2, 0), (first.2, 1)] second 2 = false := by
  intro first second accepts
  have hdiffer : first ≠ second := fun h => absurd (congrArg (·.1.psn) h) (by decide)
  have honce := frames_accepted_once (H := sampleHashes) sampleCrypto_lawful (ascii "secret")
    [first, second] (by decide +kernel) (by decide +kernel) (by simp [first, second, sampleFrame])
    (.seconds 300) (le_refl _)
  refine ⟨(honce [(second, 0)] (by simp) mem_cons_self 1).trans ?_,
    (honce [(second, 0), (first, 1)] (by simp) (by simp) 2).trans ?_⟩
  · simp [hdiffer]
  · simp

/-- **The first frame of the next epoch is refused** as a replay of that of the epoch before. -/
theorem next_epoch_refused :
    encode_encrypted sampleCrypto (ascii "secret") (sampleFrame 1 1) = .ok (samplePacket 1 1) ∧
      encode_encrypted sampleCrypto (ascii "secret") (sampleFrame 2 1) = .ok (samplePacket 2 1) ∧
      (parse_header_with_replay sampleCrypto sampleHashes (ascii "secret")
        (deliver sampleCrypto sampleHashes (ascii "secret") .new [(samplePacket 1 1, 0)])
        (samplePacket 2 1) 1).2.isOk = false := by
  decide +kernel

end Framing

end Saacp
