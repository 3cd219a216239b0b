/-
The **frame format**: a 128-byte authenticated header, the sixteen-byte tag, the ciphertext.

`build_frame` is the sender's side, on one epoch. `decode_header` is what the receiver does with a
buffer before it looks at any state. `decode_header_frame` composes the two hand-written sides.
-/
import Saacp.SessionEpoch

set_option autoImplicit false

open ByteCodec

namespace Saacp

open List hiding Vector

def MEASC_MAGIC : List UInt8 := ascii "SACP"
def MEASC_HEADER_SIZE : ℕ := 128
def MEASC_AUTH_TAG_SIZE : ℕ := 16
def MIN_FRAME_SIZE : ℕ := MEASC_HEADER_SIZE + MEASC_AUTH_TAG_SIZE

def MEASC_MAX_PAYLOAD : ℕ := 10000000

structure FrameArgs where
  schema_id : UInt16
  status_code : UInt8
  flags : UInt8
  action_class : UInt8
  payload : List UInt8
  context_ref_id : Key
  traceparent : Vector UInt8 24
  context_version : UInt32
  deriving DecidableEq

def sampleArgs : FrameArgs where
  schema_id := 7
  status_code := 0
  flags := 1
  action_class := 2
  payload := ascii "ping"
  context_ref_id := Vector.replicate 32 3
  traceparent := Vector.replicate 24 4
  context_version := 5

/-- The fields copied into the header, by offset. Bytes 9 to 11 and 104 to 127 stay zero. -/
def header_fields (a : FrameArgs) (session_id : SessionId) (epoch_id : UInt32) (psn : UInt64)
    (easi_ctx_ref_id : Key) : List (ℕ × List UInt8) :=
  [(0, MEASC_MAGIC), (4, toBE 2 a.schema_id.toNat), (6, [a.status_code]), (7, [a.flags]),
   (8, [a.action_class]),
   (12, be32 (UInt32.ofNat a.payload.length)),
   (16, session_id.toList),
   (32, be32 epoch_id),
   (36, be64 psn),
   (44, easi_ctx_ref_id.toList),
   (76, be32 a.context_version),
   (80, a.traceparent.toList)]

def encode_header (a : FrameArgs) (session_id : SessionId) (epoch_id : UInt32) (psn : UInt64)
    (easi_ctx_ref_id : Key) : List UInt8 :=
  putAll (List.replicate MEASC_HEADER_SIZE 0)
    (header_fields a session_id epoch_id psn easi_ctx_ref_id)

/-- The PSN is drawn before the key is asked for, so a refusal has already used one up. -/
def build_frame (c : Crypto) (e : SessionEpoch) (a : FrameArgs) :
    SessionEpoch × Result (List UInt8 × UInt64) :=
  match e.sequencer.next_psn with
  | (_, .error err) => (e, .error err)
  | (sequencer, .ok psn) =>
    let e := { e with sequencer := sequencer }
    match e.traffic_key with
    | .error err => (e, .error err)
    | .ok traffic_key =>
      let iv := derive_iv c traffic_key e.epoch_id psn
      let easi_ctx_ref_id := easi_encrypt c a.context_ref_id traffic_key e.epoch_id psn
      let header := encode_header a e.session_id e.epoch_id psn easi_ctx_ref_id
      match c.aes_gcm_encrypt traffic_key iv a.payload header with
      | none => (e, .error ⟨.InvalidSignature, "AES-GCM encryption failed"⟩)
      | some ct_with_tag =>
        let ct_len := ct_with_tag.length - MEASC_AUTH_TAG_SIZE
        (e, .ok (header ++ ct_with_tag.drop ct_len ++ ct_with_tag.take ct_len, psn))

structure FrameHeader where
  schema_id : UInt16
  status_code : UInt8
  flags : UInt8
  action_class : UInt8
  payload_length : UInt32
  session_id : SessionId
  epoch_id : UInt32
  psn : UInt64
  context_ref_id : Key
  context_version : UInt32
  traceparent : Vector UInt8 24
  header : List UInt8
  auth_tag : List UInt8
  ciphertext : List UInt8
  deriving DecidableEq

def debug_bytes (bs : List UInt8) : String :=
  "[" ++ ", ".intercalate (bs.map fun b => toString b.toNat) ++ "]"

/-- Steps 1 to 3 of `MEASCFrame::parse_frame`, with the two slices Step 6 takes. -/
def decode_header (buffer : List UInt8) : Result FrameHeader :=
  if buffer.length < MIN_FRAME_SIZE then
    .error ⟨.MalformedHeader, "Buffer too short for MEASC frame"⟩
  else
    let header := slice buffer 0 MEASC_HEADER_SIZE
    if slice header 0 4 ≠ MEASC_MAGIC then
      .error ⟨.MalformedHeader, "Invalid MEASC magic: " ++ debug_bytes (slice header 0 4)⟩
    else
      let payload_length := UInt32.ofNat (ofBE (slice header 12 16))
      if payload_length.toNat > MEASC_MAX_PAYLOAD then
        .error ⟨.PayloadTooLarge,
          "MEASC payload " ++ toString payload_length.toNat ++ " > 10MB MTU"⟩
      else
        let expected_total := MEASC_HEADER_SIZE + MEASC_AUTH_TAG_SIZE + payload_length.toNat
        if buffer.length < expected_total then
          .error ⟨.MalformedHeader, "Buffer too short for declared payload length"⟩
        else
          .ok
            { schema_id := UInt16.ofNat (ofBE (slice header 4 6))
              status_code := header.getD 6 0
              flags := header.getD 7 0
              action_class := header.getD 8 0
              payload_length := payload_length
              session_id := toArray 16 (slice header 16 32)
              epoch_id := UInt32.ofNat (ofBE (slice header 32 36))
              psn := UInt64.ofNat (ofBE (slice header 36 44))
              context_ref_id := toArray 32 (slice header 44 76)
              context_version := UInt32.ofNat (ofBE (slice header 76 80))
              traceparent := toArray 24 (slice header 80 104)
              header := header
              auth_tag := slice buffer MEASC_HEADER_SIZE (MEASC_HEADER_SIZE + MEASC_AUTH_TAG_SIZE)
              ciphertext := slice buffer (MEASC_HEADER_SIZE + MEASC_AUTH_TAG_SIZE)
                expected_total }

/-! ## What building a frame does to the epoch -/

theorem build_frame_ok {c : Crypto} {e e' : SessionEpoch} {a : FrameArgs} {frame : List UInt8}
    {psn : UInt64} (h : build_frame c e a = (e', .ok (frame, psn))) :
    let header := encode_header a e.session_id e.epoch_id psn
      (easi_encrypt c a.context_ref_id e.key e.epoch_id psn)
    e.destroyed = false ∧ psn = e.sequencer.next ∧ psn < MEASC_PSN_MAX ∧
      e' = { e with sequencer := ⟨psn + 1⟩ } ∧
      ∃ ct, c.aes_gcm_encrypt e.key (derive_iv c e.key e.epoch_id psn) a.payload header = some ct ∧
        frame = header ++ ct.drop (ct.length - MEASC_AUTH_TAG_SIZE) ++
          ct.take (ct.length - MEASC_AUTH_TAG_SIZE) := by
  unfold build_frame PacketSequencer.next_psn at h
  by_cases hmax : e.sequencer.next ≥ MEASC_PSN_MAX
  · simp [hmax] at h
  by_cases hdead : e.destroyed = true
  · simp [hmax, hdead, SessionEpoch.traffic_key] at h
  have hlive : e.destroyed = false := Bool.eq_false_iff.mpr hdead
  rw [if_neg hmax] at h
  simp only [SessionEpoch.traffic_key, hlive, Bool.false_eq_true, if_false] at h
  split at h
  · cases h
  · rename_i ct hct
    simp only [Prod.mk.injEq, Except.ok.injEq] at h
    obtain ⟨rfl, rfl, rfl⟩ := h
    exact ⟨hlive, rfl, UInt64.not_le.mp hmax, by rw [hlive], ct, hct, rfl⟩

theorem build_frame_epoch (c : Crypto) (e : SessionEpoch) (a : FrameArgs) :
    (build_frame c e a).1 = e ∨ e.sequencer.next < MEASC_PSN_MAX ∧
      (build_frame c e a).1 = { e with sequencer := ⟨e.sequencer.next + 1⟩ } := by
  unfold build_frame PacketSequencer.next_psn
  by_cases hmax : e.sequencer.next ≥ MEASC_PSN_MAX
  · rw [if_pos hmax]
    exact Or.inl rfl
  · rw [if_neg hmax]
    refine Or.inr ⟨UInt64.not_le.mp hmax, ?_⟩
    dsimp only
    split
    · rfl
    · split <;> rfl

theorem lt_succ_of_lt_psn_max {psn : UInt64} (h : psn < MEASC_PSN_MAX) : psn < psn + 1 := by
  have hbound : MEASC_PSN_MAX.toNat = 9223372036854775807 := rfl
  rw [UInt64.lt_iff_toNat_lt] at h ⊢
  rw [UInt64.toNat_add, UInt64.toNat_one]
  omega

theorem build_frame_only_sequencer (c : Crypto) (e : SessionEpoch) (a : FrameArgs) :
    (build_frame c e a).1 = { e with sequencer := (build_frame c e a).1.sequencer } := by
  rcases build_frame_epoch c e a with heq | ⟨-, heq⟩
  · rw [heq]
  · rw [heq]

theorem build_frame_next_le (c : Crypto) (e : SessionEpoch) (a : FrameArgs) :
    e.sequencer.next ≤ (build_frame c e a).1.sequencer.next := by
  rcases build_frame_epoch c e a with heq | ⟨hmax, heq⟩
  · rw [heq]
    exact UInt64.le_refl _
  · rw [heq]
    exact UInt64.le_of_lt (lt_succ_of_lt_psn_max hmax)

/-! ## The header reads back -/

section

variable (a : FrameArgs) (session_id : SessionId) (epoch_id : UInt32) (psn : UInt64)
  (ctx : Key)

@[simp] theorem length_MEASC_MAGIC : MEASC_MAGIC.length = 4 := by decide +kernel

theorem header_fields_fit : ∀ f ∈ header_fields a session_id epoch_id psn ctx,
    f.1 + f.2.length ≤ (List.replicate MEASC_HEADER_SIZE (0 : UInt8)).length := by
  intro f hf
  simp only [header_fields, mem_cons, not_mem_nil, or_false] at hf
  rw [length_replicate, MEASC_HEADER_SIZE]
  rcases hf with rfl | rfl | rfl | rfl | rfl | rfl | rfl | rfl | rfl | rfl | rfl | rfl <;>
    simp [be32, be64]

theorem header_fields_disjoint : (header_fields a session_id epoch_id psn ctx).Pairwise
    fun f g => f.1 + f.2.length ≤ g.1 := by
  simp [header_fields, be32, be64]

theorem length_encode_header :
    (encode_header a session_id epoch_id psn ctx).length = MEASC_HEADER_SIZE := by
  rw [encode_header, length_putAll (header_fields_fit a session_id epoch_id psn ctx),
    length_replicate]

theorem slice_encode_header {start stop : ℕ} {bs : List UInt8}
    (hf : (start, bs) ∈ header_fields a session_id epoch_id psn ctx)
    (hstop : start + bs.length = stop) :
    slice (encode_header a session_id epoch_id psn ctx) start stop = bs := by
  subst hstop
  exact slice_putAll (header_fields_fit a session_id epoch_id psn ctx)
    (header_fields_disjoint a session_id epoch_id psn ctx) hf

end

@[simp] theorem length_be32 (n : UInt32) : (be32 n).length = 4 := length_toBE 4 _

@[simp] theorem length_be64 (n : UInt64) : (be64 n).length = 8 := length_toBE 8 _

theorem ofNat_ofBE_be32 (n : UInt32) : UInt32.ofNat (ofBE (be32 n)) = n := by
  rw [be32, ofBE_toBE_of_lt n.toNat_lt, UInt32.ofNat_toNat]

theorem ofNat_ofBE_be64 (n : UInt64) : UInt64.ofNat (ofBE (be64 n)) = n := by
  rw [be64, ofBE_toBE_of_lt n.toNat_lt, UInt64.ofNat_toNat]

theorem ofNat_ofBE_be16 (n : UInt16) : UInt16.ofNat (ofBE (toBE 2 n.toNat)) = n := by
  rw [ofBE_toBE_of_lt n.toNat_lt, UInt16.ofNat_toNat]

/-- **The two sides of the format agree.** -/
theorem decode_header_frame (a : FrameArgs) (session_id : SessionId) (epoch_id : UInt32)
    (psn : UInt64) (ctx : Key) {ct : List UInt8}
    (hpayload : a.payload.length ≤ MEASC_MAX_PAYLOAD) (hct : ct.length = a.payload.length + 16) :
    decode_header (encode_header a session_id epoch_id psn ctx ++ ct.drop a.payload.length ++
        ct.take a.payload.length) =
      .ok
        { schema_id := a.schema_id
          status_code := a.status_code
          flags := a.flags
          action_class := a.action_class
          payload_length := UInt32.ofNat a.payload.length
          session_id := session_id
          epoch_id := epoch_id
          psn := psn
          context_ref_id := ctx
          context_version := a.context_version
          traceparent := a.traceparent
          header := encode_header a session_id epoch_id psn ctx
          auth_tag := ct.drop a.payload.length
          ciphertext := ct.take a.payload.length } := by
  have hlen := length_encode_header a session_id epoch_id psn ctx
  have hread := @slice_encode_header a session_id epoch_id psn ctx
  generalize hh : encode_header a session_id epoch_id psn ctx = header at hlen hread
  have hbyte : ∀ {i b}, (i, [b]) ∈ header_fields a session_id epoch_id psn ctx →
      header.getD i 0 = b := by
    intro i b hf
    rw [getD_eq_slice, show slice header i (i + 1) = [b] from hread hf rfl]
    rfl
  -- the frame in three parts: header, tag, ciphertext
  have htag : (ct.drop a.payload.length).length = 16 := by
    rw [length_drop]
    omega
  have hbody : (ct.take a.payload.length).length = a.payload.length := by
    rw [length_take]
    omega
  generalize ct.drop a.payload.length = tag at htag ⊢
  generalize ct.take a.payload.length = body at hbody ⊢
  have htotal : (header ++ tag ++ body).length = 144 + a.payload.length := by
    rw [length_append, length_append, hlen, htag, hbody, MEASC_HEADER_SIZE]
  have hfront : slice (header ++ tag ++ body) 0 MEASC_HEADER_SIZE = header := by
    rw [append_assoc, slice_append_left (by rw [hlen]), ← hlen, slice_zero_length]
  -- the fields of the header, in the order the receiver reads them
  have hpl : (UInt32.ofNat a.payload.length).toNat = a.payload.length := by
    rw [UInt32.toNat_ofNat']
    unfold MEASC_MAX_PAYLOAD at hpayload
    exact Nat.mod_eq_of_lt (by omega)
  obtain ⟨hmagic, hplen, hschema, hsid, heid, hpsn, hctx, hver, htrace⟩ :
      slice header 0 4 = MEASC_MAGIC ∧ slice header 12 16 = be32 (UInt32.ofNat a.payload.length) ∧
      slice header 4 6 = toBE 2 a.schema_id.toNat ∧ slice header 16 32 = session_id.toList ∧
      slice header 32 36 = be32 epoch_id ∧ slice header 36 44 = be64 psn ∧
      slice header 44 76 = ctx.toList ∧ slice header 76 80 = be32 a.context_version ∧
      slice header 80 104 = a.traceparent.toList := by
    refine ⟨hread ?_ ?_, hread ?_ ?_, hread ?_ ?_, hread ?_ ?_, hread ?_ ?_, hread ?_ ?_,
      hread ?_ ?_, hread ?_ ?_, hread ?_ ?_⟩
    all_goals simp [header_fields]
  have hstatus : header.getD 6 0 = a.status_code := hbyte (by simp [header_fields])
  have hflags : header.getD 7 0 = a.flags := hbyte (by simp [header_fields])
  have hclass : header.getD 8 0 = a.action_class := hbyte (by simp [header_fields])
  have hmid : slice (header ++ tag ++ body) 128 144 = tag :=
    slice_append_middle _ _ _ hlen.symm (by rw [hlen, htag]; rfl)
  have hend : slice (header ++ tag ++ body) 144 (144 + a.payload.length) = body := by
    rw [← append_nil (header ++ tag ++ body)]
    exact slice_append_middle (header ++ tag) body [] (by rw [length_append, hlen, htag]; rfl)
      (by rw [length_append, hlen, htag, hbody]; rfl)
  -- none of the four refusals applies
  unfold decode_header
  rw [if_neg (by rw [htotal, MIN_FRAME_SIZE, MEASC_HEADER_SIZE, MEASC_AUTH_TAG_SIZE]; omega)]
  simp only [hfront, hmagic, hplen, ofNat_ofBE_be32, hpl, ne_eq, not_true, if_false]
  rw [if_neg (by omega), if_neg (by rw [htotal, MEASC_HEADER_SIZE, MEASC_AUTH_TAG_SIZE]; omega)]
  simp only [hschema, hsid, heid, hpsn, hctx, hver, htrace, hstatus, hflags, hclass,
    ofNat_ofBE_be16, ofNat_ofBE_be32, ofNat_ofBE_be64, toArray_toList, MEASC_HEADER_SIZE,
    MEASC_AUTH_TAG_SIZE, Nat.reduceAdd, hmid, hend]

end Saacp
