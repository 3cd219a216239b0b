/-
The **session epoch manager**: three tables, each behind its own lock, and the operations on them.

No method ever holds two locks. `Section` lists the lock scopes, indexed by what the scope hands
back, and `exec` says what each does to the tables. A method is a program over sections, so that one
definition of `rotate_epoch` can be run alone and interleaved scope by scope. Each section gets the
instant at which it runs; a clock read outside a lock is a section of its own, `now`.
-/
import Saacp.Atomic
import Saacp.MeascFrame
import Saacp.Table

set_option autoImplicit false

open ByteCodec Atomic

namespace Saacp

def MEASC_MAX_TRACKED_SESSIONS : ℕ := 4096
def MEASC_UNAUTH_SESSION_IDLE_SECS : Secs := 60
def MEASC_AUTH_SESSION_IDLE_SECS : Secs := 1800
def MEASC_EPOCH_GRACE_PERIOD_SECONDS : Secs := 60

structure SessionMeta where
  secret : Key
  current_epoch : UInt32
  packet_threshold : UInt64
  time_threshold_secs : Secs
  suite_transcript_hash_hex : String
  last_active : Instant
  authenticated : Bool
  deriving DecidableEq

structure ManagerConfig where
  session_cap : ℕ
  unauth_idle_secs : Secs
  auth_idle_secs : Secs
  root_ratchet : Bool
  deriving DecidableEq

def ManagerConfig.new : ManagerConfig where
  session_cap := MEASC_MAX_TRACKED_SESSIONS
  unauth_idle_secs := MEASC_UNAUTH_SESSION_IDLE_SECS
  auth_idle_secs := MEASC_AUTH_SESSION_IDLE_SECS
  root_ratchet := true

structure EpochTables where
  sessions : Table SessionId (Table UInt32 SessionEpoch)
  metas : Table SessionId SessionMeta
  grace : Table SessionId (Table UInt32 Instant)
  deriving DecidableEq

namespace EpochTables

def empty : EpochTables := ⟨Table.empty, Table.empty, Table.empty⟩

def epoch (t : EpochTables) (sid : SessionId) (eid : UInt32) : Option SessionEpoch :=
  (t.sessions.get sid).bind fun epochs => epochs.get eid

def with_epoch {R : Type} (t : EpochTables) (sid : SessionId) (eid : UInt32)
    (f : SessionEpoch → R) : Option R := (t.epoch sid eid).map f

def modify_epoch (t : EpochTables) (sid : SessionId) (eid : UInt32)
    (f : SessionEpoch → SessionEpoch) : EpochTables :=
  { t with sessions := t.sessions.modify sid fun epochs => epochs.modify eid f }

def with_epoch_mut {R : Type} (t : EpochTables) (sid : SessionId) (eid : UInt32)
    (f : SessionEpoch → SessionEpoch × R) : EpochTables × Option R :=
  (t.modify_epoch sid eid fun e => (f e).1, (t.epoch sid eid).map fun e => (f e).2)

end EpochTables

/-! ## Lock scopes -/

/-- One lock scope of the manager, or one clock reading outside of every lock. -/
inductive Section : Type → Type
  /-- `Instant::now()` outside a lock. -/
  | now : Section Instant
  /-- `create_session`: check for the session and the cap, then insert the first epoch. -/
  | open_session (sid : SessionId) (session_cap : ℕ) (epoch : SessionEpoch) :
    Section (Result Unit)
  /-- `create_session`: the meta entry, `last_active` read under the lock. -/
  | insert_meta (sid : SessionId) (m : Instant → SessionMeta) : Section Unit
  /-- `create_session`: an empty grace entry. -/
  | insert_grace (sid : SessionId) : Section Unit
  /-- `get_current_epoch_id`. -/
  | current_epoch_id (sid : SessionId) : Section (Option UInt32)
  /-- `with_epoch(.., |e| !e.is_destroyed())`. -/
  | epoch_alive (sid : SessionId) (eid : UInt32) : Section (Option Bool)
  /-- `with_epoch(.., |e| e.replay_window.peek(psn))`. -/
  | peek (sid : SessionId) (eid : UInt32) (psn : UInt64) : Section (Option (Bool × Reason))
  /-- `with_epoch(.., |e| e.traffic_key().copied())`. -/
  | traffic_key (sid : SessionId) (eid : UInt32) : Section (Option (Result Key))
  /-- `with_epoch(.., |e| e.should_rotate())`. -/
  | should_rotate (sid : SessionId) (eid : UInt32) : Section (Option Bool)
  /-- `with_epoch_mut(.., |e| e.replay_window.check_and_accept(psn))`. -/
  | check_and_accept (sid : SessionId) (eid : UInt32) (psn : UInt64) :
    Section (Option (Bool × Reason))
  /-- `with_epoch_mut(.., |e| MEASCFrame::build_frame(e, ..))`. -/
  | build_frame (sid : SessionId) (eid : UInt32) (a : FrameArgs) :
    Section (Option (Result (List UInt8 × UInt64)))
  /-- `rotate_epoch`: what the rotation starts from. -/
  | rotation_meta (sid : SessionId) :
    Section (Result (UInt32 × Key × UInt64 × Secs))
  /-- `rotate_epoch`: the key of the current epoch. -/
  | rotation_key (sid : SessionId) (current_id : UInt32) : Section (Result Key)
  /-- `rotate_epoch`: insert the new epoch. -/
  | insert_epoch (sid : SessionId) (new_epoch_id : UInt32) (epoch : SessionEpoch) :
    Section (Result Unit)
  /-- `rotate_epoch`: move `current_epoch`, and the root when it was ratcheted. -/
  | commit_meta (sid : SessionId) (new_epoch_id : UInt32) (ratcheted_root : Option Key) :
    Section Unit
  /-- `rotate_epoch`: note when the old epoch entered its grace period. -/
  | note_grace (sid : SessionId) (current_id : UInt32) : Section Unit
  /-- `rotate_epoch`: put the old epoch into its grace period and destroy it. -/
  | retire_epoch (sid : SessionId) (current_id : UInt32) : Section Unit
  /-- `destroy_session`: the epochs. -/
  | remove_session (sid : SessionId) : Section Unit
  /-- `destroy_session`: the meta entry. -/
  | remove_meta (sid : SessionId) : Section Unit
  /-- `destroy_session`: the grace entry. -/
  | remove_grace (sid : SessionId) : Section Unit
  /-- `note_authenticated`. -/
  | note_authenticated (sid : SessionId) : Section Unit
  /-- `reap_idle_sessions`: the sessions idle for too long at `now`. -/
  | idle_sessions (cfg : ManagerConfig) (now : Instant) : Section (List SessionId)
  /-- `expire_old_epochs`: the epochs whose grace period is over. -/
  | expired_epochs (grace : Secs) : Section (List (SessionId × UInt32))
  /-- `expire_old_epochs`: remove the epoch; whether there was one. -/
  | remove_epoch (sid : SessionId) (eid : UInt32) : Section Bool
  /-- `expire_old_epochs`: remove the grace entry. -/
  | remove_grace_entry (sid : SessionId) (eid : UInt32) : Section Unit

variable (t : EpochTables)

def EpochTables.open_session (sid : SessionId) (session_cap : ℕ)
    (epoch : SessionEpoch) : EpochTables × Result Unit :=
  if t.sessions.contains sid then
    (t, .error ⟨.SchemaMismatch, "Session " ++ hexEncode sid.toList ++ " already exists"⟩)
  else if t.sessions.len ≥ session_cap then
    (t, .error ⟨.CircuitBreakerOpen,
      "Session table at capacity (" ++ toString session_cap ++ ") — refusing new session. " ++
      "Reap idle sessions (reap_idle_sessions) or raise the cap (with_session_cap)."⟩)
  else
    ({ t with sessions := t.sessions.insert sid (Table.empty.insert 0 epoch) }, .ok ())

def EpochTables.rotation_meta (sid : SessionId) :
    Result (UInt32 × Key × UInt64 × Secs) :=
  match t.metas.get sid with
  | none =>
    .error ⟨.EpochExpired, "Cannot rotate: session " ++ hexEncode sid.toList ++ " not found"⟩
  | some m => .ok (m.current_epoch, m.secret, m.packet_threshold, m.time_threshold_secs)

def EpochTables.rotation_key (sid : SessionId) (current_id : UInt32) : Result Key :=
  match t.sessions.get sid with
  | none => .error ⟨.EpochExpired, "Session not found"⟩
  | some epochs =>
    match epochs.get current_id with
    | none => .error ⟨.EpochExpired, "Current epoch " ++ toString current_id.toNat ++ " not found"⟩
    | some e => e.traffic_key

def EpochTables.insert_epoch (sid : SessionId) (new_epoch_id : UInt32)
    (epoch : SessionEpoch) : EpochTables × Result Unit :=
  match t.sessions.get sid with
  | none => (t, .error ⟨.EpochExpired, "Session disappeared during rotation"⟩)
  | some _ =>
    -- an epoch that is there under this number is replaced
    ({ t with sessions := t.sessions.modify sid fun epochs =>
        epochs.insert new_epoch_id epoch }, .ok ())

/-- The grace scope of `rotate_epoch`: `entry(sid).or_default().insert(current_id, now)`. -/
def EpochTables.note_grace (sid : SessionId) (current_id : UInt32) (now : Instant) : EpochTables :=
  let eids := ((t.grace.get sid).getD Table.empty).insert current_id now
  { t with grace := t.grace.insert sid eids }

def SessionMeta.idle (m : SessionMeta) (cfg : ManagerConfig) (now : Instant) : Bool :=
  if m.authenticated then elapsed_ge m.last_active now cfg.auth_idle_secs
  else elapsed_ge m.last_active now cfg.unauth_idle_secs

def EpochTables.expired_epochs (grace : Secs) (now : Instant) : List (SessionId × UInt32) :=
  t.grace.entries.flatMap fun s =>
    (s.2.entries.filter fun e => elapsed_ge e.2 now grace).map fun e => (s.1, e.1)

def exec (c : Crypto) {β : Type} (act : Section β) (now : Instant) (t : EpochTables) :
    EpochTables × β :=
  match act with
  | .now => (t, now)
  | .open_session sid session_cap epoch => t.open_session sid session_cap epoch
  | .insert_meta sid m => ({ t with metas := t.metas.insert sid (m now) }, ())
  | .insert_grace sid => ({ t with grace := t.grace.insert sid Table.empty }, ())
  | .current_epoch_id sid => (t, (t.metas.get sid).map fun m => m.current_epoch)
  | .epoch_alive sid eid => (t, t.with_epoch sid eid fun e => !e.destroyed)
  | .peek sid eid psn => (t, t.with_epoch sid eid fun e => e.replay_window.peek psn)
  | .traffic_key sid eid => (t, t.with_epoch sid eid fun e => e.traffic_key)
  | .should_rotate sid eid => (t, t.with_epoch sid eid fun e => e.should_rotate now)
  | .check_and_accept sid eid psn =>
    t.with_epoch_mut sid eid fun e =>
      let (w, verdict) := e.replay_window.check_and_accept now psn
      ({ e with replay_window := w }, verdict)
  | .build_frame sid eid a => t.with_epoch_mut sid eid fun e => build_frame c e a
  | .rotation_meta sid => (t, t.rotation_meta sid)
  | .rotation_key sid current_id => (t, t.rotation_key sid current_id)
  | .insert_epoch sid new_epoch_id epoch => t.insert_epoch sid new_epoch_id epoch
  | .commit_meta sid new_epoch_id ratcheted_root =>
    ({ t with metas := t.metas.modify sid fun m =>
        { m with current_epoch := new_epoch_id, secret := ratcheted_root.getD m.secret } }, ())
  | .note_grace sid current_id => (t.note_grace sid current_id now, ())
  | .retire_epoch sid current_id =>
    (t.modify_epoch sid current_id fun e => e.enter_grace_period.destroy, ())
  | .remove_session sid => ({ t with sessions := t.sessions.remove sid }, ())
  | .remove_meta sid => ({ t with metas := t.metas.remove sid }, ())
  | .remove_grace sid => ({ t with grace := t.grace.remove sid }, ())
  | .note_authenticated sid =>
    ({ t with metas := t.metas.modify sid fun m =>
        { m with last_active := now, authenticated := true } }, ())
  | .idle_sessions cfg read_at =>
    (t, (t.metas.entries.filter fun e => e.2.idle cfg read_at).map fun e => e.1)
  | .expired_epochs grace => (t, t.expired_epochs grace now)
  | .remove_epoch sid eid =>
    ({ t with sessions := t.sessions.modify sid fun epochs => epochs.remove eid },
      (t.epoch sid eid).isSome)
  | .remove_grace_entry sid eid =>
    ({ t with grace := t.grace.modify sid fun eids => eids.remove eid }, ())

def sections (c : Crypto) : Semantics Section Instant EpochTables where
  exec := fun _ _ act now t => exec c act now t

/-! ## Operations -/

section

variable (c : Crypto) (cfg : ManagerConfig)

def create_session (sid : SessionId) (session_secret : Key) (packet_threshold : UInt64)
    (time_threshold_secs : Secs) (suite_transcript_hash : Option Key) :
    Prog Section (Result UInt32) :=
  let secret := bound_secret c session_secret suite_transcript_hash
  let suite_hex := (suite_transcript_hash.map fun tx_hash => hexEncode tx_hash.toList).getD ""
  let initial_key := derive_epoch_key c secret sid 0 none
  .step .now fun created_at =>
  .step (.open_session sid cfg.session_cap
    (SessionEpoch.new sid 0 initial_key packet_threshold time_threshold_secs created_at)) fun
  | .error e => .ret (.error e)
  | .ok () =>
    -- the session can be found before it has a meta entry
    .step (.insert_meta sid fun now =>
      { secret := secret
        current_epoch := 0
        packet_threshold := packet_threshold
        time_threshold_secs := time_threshold_secs
        suite_transcript_hash_hex := suite_hex
        last_active := now
        authenticated := false }) fun _ =>
    .step (.insert_grace sid) fun _ =>
    .ret (.ok 0)

def checked_succ (n : UInt32) : Option UInt32 := if n = 4294967295 then none else some (n + 1)

/-- The key and the root of the next epoch are computed between the scopes. -/
def rotate_epoch (sid : SessionId) : Prog Section (Result UInt32) :=
  .step (.rotation_meta sid) fun
  | .error e => .ret (.error e)
  | .ok (current_id, secret, packet_threshold, time_threshold_secs) =>
    .step (.rotation_key sid current_id) fun
    | .error e => .ret (.error e)
    | .ok prev_key =>
      match checked_succ current_id with
      | none => .ret (.error ⟨.SequenceOverflow, "Epoch ID exhausted — u32 overflow"⟩)
      | some new_epoch_id =>
        let root := next_root c cfg.root_ratchet secret prev_key sid new_epoch_id
        let new_key := derive_epoch_key c root sid new_epoch_id (some prev_key)
        -- by now another rotation may have done the same
        .step .now fun created_at =>
        .step (.insert_epoch sid new_epoch_id
          (SessionEpoch.new sid new_epoch_id new_key packet_threshold time_threshold_secs
            created_at)) fun
        | .error e => .ret (.error e)
        | .ok () =>
          .step (.commit_meta sid new_epoch_id (if cfg.root_ratchet then some root else none))
            fun _ =>
          .step (.note_grace sid current_id) fun _ =>
          .step (.retire_epoch sid current_id) fun _ =>
          .ret (.ok new_epoch_id)

def check_and_rotate (sid : SessionId) : Prog Section (Option UInt32) :=
  .step (.current_epoch_id sid) fun
  | none => .ret none
  | some current_id =>
    .step (.should_rotate sid current_id) fun
    | some true => (rotate_epoch c cfg sid).map Except.toOption -- a failure is not reported
    | _ => .ret none

def destroy_session (sid : SessionId) : Prog Section Unit :=
  .step (.remove_session sid) fun _ =>
  .step (.remove_meta sid) fun _ =>
  .step (.remove_grace sid) fun _ =>
  .ret ()

def reap_idle_sessions : Prog Section ℕ :=
  .step .now fun now =>
  .step (.idle_sessions cfg now) fun doomed =>
  (Prog.all (doomed.map destroy_session)).map fun _ => doomed.length

def expire_epoch (p : SessionId × UInt32) : Prog Section Bool :=
  .step (.remove_epoch p.1 p.2) fun collected =>
  .step (.remove_grace_entry p.1 p.2) fun _ =>
  .ret collected

def expire_old_epochs (grace_seconds : Option Secs) : Prog Section ℕ :=
  .step (.expired_epochs (grace_seconds.getD MEASC_EPOCH_GRACE_PERIOD_SECONDS)) fun to_remove =>
  (Prog.all (to_remove.map expire_epoch)).map fun collected => collected.countP id

def build_frame_on (sid : SessionId) (eid : UInt32) (a : FrameArgs) :
    Prog Section (Option (Result (List UInt8 × UInt64))) :=
  .step (.build_frame sid eid a) .ret

end

/-! ## Receiving a frame -/

/-- JSON decoding and the precompiled schemas, as `parse_frame` uses them. -/
structure SchemaRegistry where
  Value : Type
  from_slice : List UInt8 → Option Value
  validate_payload : UInt16 → Value → Result Unit

def sampleSchemas : SchemaRegistry where
  Value := Empty
  from_slice := fun _ => none
  validate_payload := fun _ v => nomatch v

structure ParsedMEASCFrame where
  schema_id : UInt16
  status_code : UInt8
  flags : UInt8
  action_class : UInt8
  payload_length : UInt32
  session_id : SessionId
  epoch_id : UInt32
  psn : UInt64
  context_ref_id : Key
  context_version : UInt32
  traceparent : Vector UInt8 24
  payload : List UInt8
  deriving DecidableEq

def psn_rejection (psn : UInt64) (epoch_id : UInt32) (reason : Reason) : SAACPHardDrop :=
  let p := toString psn.toNat
  let e := toString epoch_id.toNat
  match reason with
  | .duplicate => ⟨.PsnReplayDetected, "PSN " ++ p ++ " already accepted in epoch " ++ e⟩
  | .advance_too_large =>
    ⟨.PsnOutOfWindow,
      "PSN " ++ p ++ " advance exceeds max " ++ toString MEASC_MAX_PSN_ADVANCE.toNat⟩
  | .rate_limit_exceeded =>
    ⟨.PsnOutOfWindow, "PSN " ++ p ++ " rate limit exceeded in epoch " ++ e⟩
  | .quarantined =>
    ⟨.PsnReplayDetected, "PSN " ++ p ++ " rejected — epoch " ++ e ++ " window quarantined"⟩
  | .negative_psn => ⟨.PsnOutOfWindow, "PSN " ++ p ++ " out of window (negative_psn)"⟩
  | .psn_above_max => ⟨.PsnOutOfWindow, "PSN " ++ p ++ " out of window (psn_above_max)"⟩
  | .out_of_window => ⟨.PsnOutOfWindow, "PSN " ++ p ++ " out of window (out_of_window)"⟩
  | .ok => ⟨.PsnOutOfWindow, "PSN " ++ p ++ " out of window (ok)"⟩
  | .ok_anomaly_recorded =>
    ⟨.PsnOutOfWindow, "PSN " ++ p ++ " out of window (ok_anomaly_recorded)"⟩

/-- The rejection of a frame whose epoch is not there, with what happened to it. -/
def epoch_expired (h : FrameHeader) (what : String) : SAACPHardDrop :=
  ⟨.EpochExpired, "Epoch (session=" ++ hexEncode (h.session_id.toList.take 4) ++ ", epoch_id=" ++
    toString h.epoch_id.toNat ++ ") " ++ what⟩

section

variable (c : Crypto) (cfg : ManagerConfig) (schemas : SchemaRegistry)

/-- Steps 1 to 6 of `MEASCFrame::parse_frame`: everything up to and including AES-GCM. -/
def authenticate (buffer : List UInt8) :
    Prog Section (Result (FrameHeader × Key × List UInt8)) :=
  match decode_header buffer with
  | .error e => .ret (.error e)
  | .ok h =>
    .step (.epoch_alive h.session_id h.epoch_id) fun
    | none => .ret (.error (epoch_expired h "unknown or destroyed"))
    | some false => .ret (.error (epoch_expired h "unknown or destroyed"))
    | some true =>
      -- read-only: a frame that has not been authenticated moves no window
      .step (.peek h.session_id h.epoch_id h.psn) fun
      | none => .ret (.error (epoch_expired h
          "was destroyed between existence check and replay-window pre-check."))
      | some (false, rw_reason) => .ret (.error (psn_rejection h.psn h.epoch_id rw_reason))
      | some (true, _) =>
        .step (.traffic_key h.session_id h.epoch_id) fun
        | none => .ret (.error (epoch_expired h
            "was destroyed between existence check and traffic-key use."))
        | some (.error e) => .ret (.error e)
        | some (.ok traffic_key) =>
          match c.aes_gcm_decrypt traffic_key (derive_iv c traffic_key h.epoch_id h.psn)
            (h.ciphertext ++ h.auth_tag) h.header with
          | none => .ret (.error ⟨.InvalidSignature,
              "MEASC AES-GCM auth failed — tampering or replay"⟩)
          | some plaintext => .ret (.ok (h, traffic_key, plaintext))

def validate_schema (skip_schema_validation : Bool) (schema_id : UInt16)
    (plaintext : List UInt8) : Result Unit :=
  if skip_schema_validation then .ok ()
  else
    match schemas.from_slice plaintext with
    | none => .error ⟨.SchemaMismatch, "MEASC payload is not valid JSON for schema validation"⟩
    | some json_val => schemas.validate_payload schema_id json_val

def parsed_frame (h : FrameHeader) (traffic_key : Key) (plaintext : List UInt8) :
    ParsedMEASCFrame where
  schema_id := h.schema_id
  status_code := h.status_code
  flags := h.flags
  action_class := h.action_class
  payload_length := h.payload_length
  session_id := h.session_id
  epoch_id := h.epoch_id
  psn := h.psn
  context_ref_id := easi_decrypt c h.context_ref_id traffic_key h.epoch_id h.psn
  context_version := h.context_version
  traceparent := h.traceparent
  payload := plaintext

/-- Steps 6.5 to 9 of `MEASCFrame::parse_frame`, on an authenticated frame. -/
def accept_authenticated (skip_schema_validation : Bool) (h : FrameHeader) (traffic_key : Key)
    (plaintext : List UInt8) : Prog Section (Result ParsedMEASCFrame) :=
  .step (.check_and_accept h.session_id h.epoch_id h.psn) fun
  | none => .ret (.error (epoch_expired h
      "was destroyed between authentication and replay-window acceptance."))
  | some (false, rw_reason) => .ret (.error (psn_rejection h.psn h.epoch_id rw_reason))
  | some (true, _) =>
    .step (.note_authenticated h.session_id) fun _ =>
    -- a frame that fails its schema has used up its PSN all the same
    match validate_schema schemas skip_schema_validation h.schema_id plaintext with
    | .error e => .ret (.error e)
    | .ok () =>
      .step (.should_rotate h.session_id h.epoch_id) fun
      | some true =>
        (check_and_rotate c cfg h.session_id).map fun _ =>
          .ok (parsed_frame c h traffic_key plaintext)
      | _ => .ret (.ok (parsed_frame c h traffic_key plaintext))

def parse_frame (buffer : List UInt8) (skip_schema_validation : Bool) :
    Prog Section (Result ParsedMEASCFrame) :=
  (authenticate c buffer).bind fun
  | .error e => .ret (.error e)
  | .ok (h, traffic_key, plaintext) =>
    accept_authenticated c cfg schemas skip_schema_validation h traffic_key plaintext

end

end Saacp
