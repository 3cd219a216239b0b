/-
The **stream registry** of one process: which streams are open, how far each has come, and
what each one carries over from the capability token that started it.

The shards only spread the lock and are one table; among sessions of the same age the one the
table lists first counts as the oldest. Times are exact rationals.

`tokens` is the view Gate 1.0 and Gate 2.5 take of a stream. `Carries` says that an operation
opened no stream and swapped no token; every operation but `start_stream` and
`set_stream_token_info` is of this kind.
-/
import Saacp.Errors
import Saacp.Hashes
import Saacp.Table
import Mathlib.Algebra.Order.Ring.Rat

set_option autoImplicit false

open ByteCodec

namespace Saacp

def STREAM_MAX_TOTAL_BYTES : ℕ := 5 * 1024 * 1024
def STREAM_MAX_DURATION_SECONDS : ℚ := 120
def STREAM_MAX_FRAME_GAP_SECONDS : ℚ := 10
def MAX_ACTIVE_STREAMS : ℕ := 1000
def MAX_STREAMS_PER_AGENT : ℕ := 10

structure StreamSession where
  stream_id : Text
  agent_id : Text
  source_agent : Text
  last_sequence : UInt64
  last_sequence_id : Option UInt64
  total_bytes : ℕ
  frame_count : UInt64
  started_at : ℚ
  last_frame_at : ℚ
  closed : Bool
  token_sig_hash : Text
  token_exp : ℚ
  max_action_class : UInt8

def StreamSession.new (stream_id agent_id : Text) (first_frame_bytes : ℕ) (now : ℚ) :
    StreamSession where
  stream_id := stream_id
  agent_id := agent_id
  source_agent := []
  last_sequence := 0
  last_sequence_id := none
  total_bytes := first_frame_bytes
  frame_count := 0
  started_at := now
  last_frame_at := now
  closed := false
  token_sig_hash := []
  token_exp := 0
  max_action_class := 0

/-- `{:.1}`: one decimal, ties to even. -/
def one_decimal (x : ℚ) : String :=
  let below := (x * 10).floor
  let rest := x * 10 - below
  let n := if rest < 1 / 2 then below
    else if 1 / 2 < rest then below + 1
    else if below % 2 = 0 then below else below + 1
  (if n < 0 then "-" else "") ++ toString (n.natAbs / 10) ++ "." ++ toString (n.natAbs % 10)

def StreamSession.validate_continuation (s : StreamSession) (sequence : UInt64)
    (frame_bytes : ℕ) (now : ℚ) : StreamSession × Result Unit :=
  if s.closed then
    (s, .error ⟨.StreamAbort, "Stream session is already closed."⟩)
  else if sequence ≤ s.last_sequence then
    (s, .error ⟨.StreamAbort, "Frame sequence " ++ toString sequence.toNat ++
      " is not strictly greater than last accepted " ++ toString s.last_sequence.toNat ++ "."⟩)
  else if STREAM_MAX_TOTAL_BYTES < s.total_bytes + frame_bytes then
    (s, .error ⟨.StreamAbort, "Cumulative bytes " ++ toString (s.total_bytes + frame_bytes) ++
      " would exceed cap of " ++ toString STREAM_MAX_TOTAL_BYTES ++ "."⟩)
  else if STREAM_MAX_DURATION_SECONDS < now - s.started_at then
    (s, .error ⟨.StreamAbort, "Stream duration " ++ one_decimal (now - s.started_at) ++
      "s exceeds limit of 120s."⟩)
  else if STREAM_MAX_FRAME_GAP_SECONDS < now - s.last_frame_at then
    (s, .error ⟨.StreamAbort, "Frame gap " ++ one_decimal (now - s.last_frame_at) ++
      "s exceeds limit of 10s."⟩)
  else
    ({ s with
       last_sequence := sequence
       last_sequence_id := some sequence
       total_bytes := s.total_bytes + frame_bytes
       frame_count := s.frame_count + 1
       last_frame_at := now }, .ok ())

open StreamSession Table

theorem validate_continuation_cases (s : StreamSession) (sequence : UInt64) (frame : ℕ) (now : ℚ) :
    (∃ err, s.validate_continuation sequence frame now = (s, .error err)) ∨
      (s.last_sequence < sequence ∧ s.total_bytes + frame ≤ STREAM_MAX_TOTAL_BYTES ∧
        (now - s.started_at ≤ STREAM_MAX_DURATION_SECONDS ∧
          now - s.last_frame_at ≤ STREAM_MAX_FRAME_GAP_SECONDS) ∧
        s.validate_continuation sequence frame now = ({ s with
             last_sequence := sequence
             last_sequence_id := some sequence
             total_bytes := s.total_bytes + frame
             frame_count := s.frame_count + 1
             last_frame_at := now }, .ok ())) := by
  unfold validate_continuation
  split_ifs with hclosed hseq hcap hdur hgap
  · exact .inl ⟨_, rfl⟩
  · exact .inl ⟨_, rfl⟩
  · exact .inl ⟨_, rfl⟩
  · exact .inl ⟨_, rfl⟩
  · exact .inl ⟨_, rfl⟩
  · exact .inr ⟨UInt64.not_le.mp hseq, Nat.le_of_not_lt hcap, ⟨not_lt.mp hdur, not_lt.mp hgap⟩,
      rfl⟩

/-- `StreamRegistry`, without a shared backend. -/
structure StreamRegistry where
  streams : Table Text StreamSession
  agent_counts : Table Text ℕ

structure StreamInfo where
  token_exp : ℚ
  token_sig_hash : Text
  last_sequence_id : Option UInt64
  max_action_class : UInt8
  source_agent : Text

namespace StreamRegistry

def new : StreamRegistry := ⟨.empty, .empty⟩

variable (r : StreamRegistry)

def agent_stream_count (agent_id : Text) : ℕ :=
  (r.agent_counts.get agent_id).getD 0

/-- The bookkeeping for a session that is gone: one stream fewer, and no entry at zero. -/
def release (agent_counts : Table Text ℕ) (agent_id : Text) : Table Text ℕ :=
  if (agent_counts.get agent_id).getD 0 - 1 = 0 then agent_counts.remove agent_id
  else agent_counts.insert agent_id ((agent_counts.get agent_id).getD 0 - 1)

def oldest : Option (Text × StreamSession) :=
  r.streams.entries.foldl (fun best e =>
    match best with
    | none => some e
    | some b => if e.2.started_at < b.2.started_at then some e else some b) none

def evict_oldest : StreamRegistry :=
  if r.streams.len < MAX_ACTIVE_STREAMS then r
  else
    match r.oldest with
    | none => r
    | some (id, evicted) => ⟨r.streams.remove id, release r.agent_counts evicted.agent_id⟩

/-- A session under the same id is replaced, and the agent is charged for the new one all the same.
-/
def insert_session (session : StreamSession) : StreamRegistry :=
  ⟨r.streams.insert session.stream_id session,
    r.agent_counts.insert session.agent_id (r.agent_stream_count session.agent_id + 1)⟩

def register_local (session : StreamSession) : StreamRegistry × Result Unit :=
  if MAX_STREAMS_PER_AGENT ≤ r.agent_stream_count session.agent_id then
    (r, .error ⟨.StreamAbort, "Agent '" ++ display session.agent_id ++ "' already has " ++
      toString (r.agent_stream_count session.agent_id) ++ " active streams (max " ++
      toString MAX_STREAMS_PER_AGENT ++ ")."⟩)
  else (r.evict_oldest.insert_session session, .ok ())

def register (session : StreamSession) :
    StreamRegistry × Result Unit := r.register_local session

def active_count : ℕ := r.streams.len

def no_active_stream (stream_id : Text) : SAACPHardDrop :=
  ⟨.StreamAbort, "No active stream with id '" ++ display stream_id ++ "'."⟩

def validate_frame (stream_id : Text) (sequence : UInt64)
    (frame_bytes : ℕ) (now : ℚ) : StreamRegistry × Result Unit :=
  match r.streams.get stream_id with
  | none => (r, .error (no_active_stream stream_id))
  | some session =>
    ({ r with
       streams := r.streams.modify stream_id fun s =>
         (s.validate_continuation sequence frame_bytes now).1 },
     (session.validate_continuation sequence frame_bytes now).2)

def start_stream (stream_id source_agent agent_id : Text) (now : ℚ) :
    StreamRegistry × Result Unit :=
  r.register_local
    { StreamSession.new stream_id agent_id 0 now with source_agent := source_agent }

def get_stream_info (stream_id : Text) : Option StreamInfo :=
  (r.streams.get stream_id).map fun s =>
    ⟨s.token_exp, s.token_sig_hash, s.last_sequence_id, s.max_action_class, s.source_agent⟩

def set_stream_token_info (stream_id token_sig_hash : Text) (token_exp : ℚ)
    (source_agent : Text) (max_action_class : UInt8) : StreamRegistry :=
  { r with
    streams := r.streams.modify stream_id fun s =>
      { s with token_sig_hash, token_exp, source_agent, max_action_class } }

/-- `continue_stream`; the caller throws the answer away. -/
def continue_stream (stream_id : Text) (sequence : UInt64)
    (frame_bytes : ℕ) (now : ℚ) : StreamRegistry :=
  { r with
    streams := r.streams.modify stream_id fun s =>
      (s.validate_continuation sequence frame_bytes now).1 }

def continue_answer (stream_id : Text) (sequence : UInt64)
    (frame_bytes : ℕ) (now : ℚ) : Except String Unit :=
  match r.streams.get stream_id with
  | none => .error ("No active stream '" ++ display stream_id ++ "'.")
  | some s => (s.validate_continuation sequence frame_bytes now).2.mapError (·.message)

/-- `abort_stream`. Unlike the other removals it leaves a count of zero in the map. -/
def abort_stream (stream_id : Text) : StreamRegistry :=
  match r.streams.get stream_id with
  | none => r
  | some session =>
    ⟨r.streams.remove stream_id,
      r.agent_counts.insert session.agent_id (r.agent_stream_count session.agent_id - 1)⟩

def drop_stream (stream_id : Text) : StreamRegistry :=
  match r.streams.get stream_id with
  | none => r
  | some session => ⟨r.streams.remove stream_id, release r.agent_counts session.agent_id⟩

def close (stream_id : Text) : StreamRegistry × Result Unit :=
  (r.drop_stream stream_id,
    if r.streams.contains stream_id then .ok () else .error (no_active_stream stream_id))

def end_stream (stream_id : Text) : StreamRegistry × Option StreamSession :=
  (r.drop_stream stream_id,
    (r.streams.get stream_id).map fun session => { session with closed := true })

def stale (now : ℚ) (s : StreamSession) : Bool :=
  STREAM_MAX_DURATION_SECONDS < now - s.started_at ||
    STREAM_MAX_FRAME_GAP_SECONDS < now - s.last_frame_at

def sweep_expired (now : ℚ) : StreamRegistry :=
  ((r.streams.entries.filter fun e => stale now e.2).map Prod.fst).foldl drop_stream r

end StreamRegistry

/-! ## The token of a stream -/

structure StreamToken where
  token_exp : ℚ
  token_sig_hash : Text
  max_action_class : UInt8

def StreamSession.token (s : StreamSession) : StreamToken :=
  ⟨s.token_exp, s.token_sig_hash, s.max_action_class⟩

theorem validate_continuation_token (s : StreamSession) (sequence : UInt64) (frame : ℕ)
    (now : ℚ) : (s.validate_continuation sequence frame now).1.token = s.token := by
  obtain ⟨err, hval⟩ | ⟨-, -, -, hval⟩ := validate_continuation_cases s sequence frame now
  · rw [hval]
  · rw [hval]
    rfl

namespace StreamRegistry

variable (r : StreamRegistry)

def tokens (id : Text) : Option StreamToken :=
  (r.streams.get id).map StreamSession.token

/-- Every stream of `r'` is one of `r`, with the token it has there. -/
def Carries (r' r : StreamRegistry) : Prop := ∀ id t, r'.tokens id = some t → r.tokens id = some t

theorem Carries.refl : Carries r r := fun _ _ h => h

theorem Carries.trans {r r' r'' : StreamRegistry} (h : Carries r'' r') (h' : Carries r' r) :
    Carries r'' r := fun id t ht => h' id t (h id t ht)

theorem carries_of_le {r r' : StreamRegistry} (hle : r'.streams ≤ r.streams) : Carries r' r := by
  intro id t ht
  obtain ⟨s, hs, rfl⟩ := Option.map_eq_some_iff.mp ht
  exact Option.map_eq_some_iff.mpr ⟨s, hle id s hs, rfl⟩

theorem tokens_modify {r : StreamRegistry} {stream_id : Text} {f : StreamSession → StreamSession}
    (id : Text) : ({ r with streams := r.streams.modify stream_id f }).tokens id =
      if id = stream_id then (r.streams.get stream_id).map fun s => (f s).token
      else r.tokens id := by
  unfold tokens
  rw [get_modify]
  split
  · rw [Option.map_map]
    rfl
  · rfl

theorem continue_stream_carries (stream_id : Text) (sequence : UInt64)
    (frame : ℕ) (now : ℚ) : Carries (r.continue_stream stream_id sequence frame now) r := by
  intro id t ht
  unfold continue_stream at ht
  rw [tokens_modify] at ht
  split at ht
  · rename_i hid
    simpa only [validate_continuation_token, hid, tokens] using ht
  · exact ht

theorem abort_stream_carries (stream_id : Text) : Carries (r.abort_stream stream_id) r := by
  apply carries_of_le
  unfold abort_stream
  split
  · exact le_refl _
  · exact remove_le _ _

theorem drop_stream_carries (stream_id : Text) : Carries (r.drop_stream stream_id) r := by
  apply carries_of_le
  unfold drop_stream
  split
  · exact le_refl _
  · exact remove_le _ _

theorem sweep_expired_carries (now : ℚ) : Carries (r.sweep_expired now) r := by
  unfold sweep_expired
  exact List.foldlRecOn (motive := (Carries · r)) _ _ (Carries.refl r)
    fun r' h id _ => (drop_stream_carries r' id).trans h

theorem evict_oldest_le : r.evict_oldest.streams ≤ r.streams := by
  unfold evict_oldest
  split
  · exact le_refl _
  · split
    · exact le_refl _
    · exact remove_le _ _

theorem evict_oldest_carries : Carries r.evict_oldest r :=
  carries_of_le (evict_oldest_le r)

/-! ## Starting a stream -/

def below_cap (agent_id : Text) : Bool :=
  r.agent_stream_count agent_id < MAX_STREAMS_PER_AGENT

variable {r : StreamRegistry} {stream_id source_agent agent_id : Text} {now : ℚ}

theorem start_stream_of_cap (h : r.below_cap agent_id = false) :
    (r.start_stream stream_id source_agent agent_id now).1 = r := by
  unfold start_stream register_local
  rw [if_pos]
  simpa [below_cap, StreamSession.new] using h

theorem start_stream_of_below_cap (h : r.below_cap agent_id = true) :
    (r.start_stream stream_id source_agent agent_id now).1 = r.evict_oldest.insert_session
      { StreamSession.new stream_id agent_id 0 now with source_agent := source_agent } := by
  unfold start_stream register_local
  rw [if_neg]
  simpa [below_cap, StreamSession.new] using h

theorem tokens_insert_session (session : StreamSession) (id : Text) :
    (r.insert_session session).tokens id =
      if id = session.stream_id then some session.token else r.tokens id := by
  unfold tokens insert_session
  rw [get_insert]
  split <;> rfl

theorem tokens_start_set {token_sig_hash : Text} {token_exp : ℚ} {source : Text}
    {max_action_class : UInt8} {id : Text} {t : StreamToken} (h : r.below_cap agent_id = true)
    (ht : ((r.start_stream stream_id source_agent agent_id now).1.set_stream_token_info stream_id
      token_sig_hash token_exp source max_action_class).tokens id = some t) :
    (id = stream_id ∧ t = ⟨token_exp, token_sig_hash, max_action_class⟩) ∨
      (id ≠ stream_id ∧ r.tokens id = some t) := by
  rw [start_stream_of_below_cap h, set_stream_token_info, tokens_modify] at ht
  by_cases hid : id = stream_id
  · rw [if_pos hid] at ht
    obtain ⟨s, -, hs⟩ := Option.map_eq_some_iff.mp ht
    exact .inl ⟨hid, hs.symm⟩
  · simp only [if_neg hid, tokens_insert_session, StreamSession.new] at ht
    exact .inr ⟨hid, evict_oldest_carries r id t ht⟩

end StreamRegistry

end Saacp
