/-
One **epoch** of a session: its traffic key, its sequencer for outgoing frames and its replay
window for incoming ones.

An epoch is created with a fresh sequencer and a fresh window. Destroying it zeroizes the
key and nothing else; a destroyed epoch refuses to give its key out.
-/
import Mathlib.Algebra.Order.Ring.Rat
import Saacp.KeySchedule
import Saacp.ReplayWindow

set_option autoImplicit false

open ByteCodec

namespace Saacp

/-- `Duration::from_secs_f64` panics on a negative value, so none is representable. -/
abbrev Secs := ℚ≥0

def elapsed_ge (since now : Instant) (threshold : Secs) : Bool :=
  decide (threshold * 1000000000 ≤ ((now - since : ℕ) : ℚ≥0))

/-! ## Sequencer -/

structure PacketSequencer where
  next : UInt64
  deriving DecidableEq

/-- `PacketSequencer::next_psn`: hands out the next PSN, and never moves past the largest. -/
def PacketSequencer.next_psn (s : PacketSequencer) :
    PacketSequencer × Result UInt64 :=
  if s.next ≥ MEASC_PSN_MAX then
    (s, .error ⟨.SequenceOverflow, "PSN would exceed MEASC_PSN_MAX"⟩)
  else (⟨s.next + 1⟩, .ok s.next)

def PacketSequencer.current (s : PacketSequencer) : UInt64 := s.next

/-! ## Epoch -/

structure SessionEpoch where
  session_id : SessionId
  epoch_id : UInt32
  key : Key
  created_at : Instant
  packet_threshold : UInt64
  time_threshold : Secs
  replay_window : ReplayWindow
  sequencer : PacketSequencer
  destroyed : Bool
  in_grace_period : Bool
  deriving DecidableEq

def SessionEpoch.new (session_id : SessionId) (epoch_id : UInt32) (traffic_key : Key)
    (packet_threshold : UInt64) (time_threshold_secs : Secs) (now : Instant) : SessionEpoch where
  session_id := session_id
  epoch_id := epoch_id
  key := traffic_key
  created_at := now
  packet_threshold := packet_threshold
  time_threshold := time_threshold_secs
  replay_window := ReplayWindow.with_default_policy now
  sequencer := ⟨1⟩
  destroyed := false
  in_grace_period := false

namespace SessionEpoch

variable (e : SessionEpoch)

def traffic_key : Result Key :=
  if e.destroyed then
    .error ⟨.EpochExpired, "Attempted to access destroyed epoch key material"⟩
  else .ok e.key

def should_rotate (now : Instant) : Bool :=
  if e.destroyed then false
  else decide (e.sequencer.current ≥ e.packet_threshold) ||
    elapsed_ge e.created_at now e.time_threshold

def enter_grace_period : SessionEpoch :=
  { e with
    in_grace_period := true
    replay_window := e.replay_window.lock_for_grace_period }

def destroy : SessionEpoch :=
  if e.destroyed then e
  else { e with key := Vector.replicate 32 0, destroyed := true }

@[simp] theorem destroy_destroyed : e.destroy.destroyed = true := by
  unfold destroy
  split
  · assumption
  · rfl

@[simp] theorem destroy_in_grace_period : e.destroy.in_grace_period = e.in_grace_period := by
  unfold destroy
  split <;> rfl

@[simp] theorem destroy_replay_window : e.destroy.replay_window = e.replay_window := by
  unfold destroy
  split <;> rfl

@[simp] theorem destroy_sequencer : e.destroy.sequencer = e.sequencer := by
  unfold destroy
  split <;> rfl

@[simp] theorem destroy_epoch_id : e.destroy.epoch_id = e.epoch_id := by
  unfold destroy
  split <;> rfl

@[simp] theorem destroy_session_id : e.destroy.session_id = e.session_id := by
  unfold destroy
  split <;> rfl

end SessionEpoch

end Saacp
