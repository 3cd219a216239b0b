/-
**The limits of a stream under concurrent continuations**: `stream_continuation_core` as a program
of critical sections, and what is known of the frames it accepts.

The registry checks the order of the frames, the bytes, the duration and the gap when the stream is
advanced, and by then something else may have advanced it or taken it away; the handler throws the
answer away. A call that runs alone does what `stream_continuation_core` does (`run_continuation`).
-/
import Saacp.Execution
import Saacp.Authorization
import Mathlib.Data.List.Chain

set_option autoImplicit false

open ByteCodec Atomic

namespace Saacp

open Execution List StreamRegistry Table
open Option hiding sequence

/-! ## The sections -/

/-- What a continuation does with the registry and the gateway in one piece. -/
inductive StreamSection : Type → Type
  | get_stream_info (stream_id : Text) : StreamSection (Option StreamInfo)
  | is_token_revoked (token_sig_hash : Text) : StreamSection Bool
  | abort_stream (stream_id : Text) : StreamSection Unit
  | append_event : StreamSection Unit
  | continue_stream (stream_id : Text) (sequence : UInt64) (frame_bytes : ℕ) :
      StreamSection (Except String Unit)

variable {γ : Type}

def Pipeline.exec (s : Pipeline) (now : ℚ) : StreamSection γ → Pipeline × γ
  | .get_stream_info stream_id => (s, s.streams.get_stream_info stream_id)
  | .is_token_revoked token_sig_hash => (s, s.gateway.is_token_revoked token_sig_hash)
  | .abort_stream stream_id => ({ s with streams := s.streams.abort_stream stream_id }, ())
  | .append_event => (s, ())
  | .continue_stream stream_id sequence frame_bytes =>
    ({ s with streams := s.streams.continue_stream stream_id sequence frame_bytes now },
      s.streams.continue_answer stream_id sequence frame_bytes now)

def stream_sections : Semantics StreamSection ℚ Pipeline where
  exec _ _ act now s := s.exec now act

def abort_and_refuse (p : ParsedPacket) (e : SAACPHardDrop) :
    Prog StreamSection (Result ParsedPacket) :=
  .step (.abort_stream p.session_uuid) fun _ => .ret (.error e)

def advance_stream (X : Crates) (p : ParsedPacket) :
    Prog StreamSection (Result ParsedPacket) :=
  .step .append_event fun _ =>
    -- the answer is thrown away
    .step (.continue_stream p.session_uuid p.sequence_id p.payload.length) fun _ =>
      .ret (.ok (p.with_stream_data X))

def gates_and_advance (X : Crates) (call : PacketCall) (info : StreamInfo) (p : ParsedPacket) :
    Prog StreamSection (Result ParsedPacket) :=
  match gate_2_5_kinetic_firewall p.action_class info.max_action_class
      call.subsystems.audit_health with
  | .error e => abort_and_refuse p e
  | .ok () =>
    match check_stream_sequence info p with
    | .error e => .ret (.error e)
    | .ok () =>
      match scan_stream_text X call p with
      | .error e => .ret (.error e)
      | .ok () => advance_stream X p

/-- The check of the token that the stream was started with, and the rest. -/
def continue_with (X : Crates) (call : PacketCall) (p : ParsedPacket) (info : StreamInfo) :
    Prog StreamSection (Result ParsedPacket) :=
  if 0 < info.token_exp ∧ info.token_exp < call.mono then
    abort_and_refuse p
      ⟨.TokenExpired, "Stream aborted: originating capability token has EXPIRED."⟩
  else if info.token_sig_hash.isEmpty = false then
    .step (.is_token_revoked info.token_sig_hash) fun revoked =>
      if revoked then
        abort_and_refuse p
          ⟨.LateralMovementBlocked, "Stream aborted: originating token has been REVOKED."⟩
      else gates_and_advance X call info p
  else gates_and_advance X call info p

def continuation (X : Crates) (call : PacketCall) (p : ParsedPacket) :
    Prog StreamSection (Result ParsedPacket) :=
  .step (.get_stream_info p.session_uuid) fun info =>
    match info with
    | none =>
      .ret (.error ⟨.MalformedHeader, "No active stream found for continuation frame."⟩)
    | some info => continue_with X call p info

variable {X : Crates}

section Alone

variable {call : PacketCall} {p : ParsedPacket} {info : StreamInfo}

theorem run_gates_and_advance (X : Crates) (call : PacketCall) (info : StreamInfo)
    (p : ParsedPacket) (s : Pipeline) :
    ((gates_and_advance X call info p).run stream_sections (fun _ => call.wall) s).2 =
      match gate_2_5_kinetic_firewall p.action_class info.max_action_class
          call.subsystems.audit_health with
      | .error e => ({ s with streams := s.streams.abort_stream p.session_uuid }, .error e)
      | .ok () =>
        match check_stream_sequence info p with
        | .error e => (s, .error e)
        | .ok () =>
          match scan_stream_text X call p with
          | .error e => (s, .error e)
          | .ok () =>
            ({ s with
               streams := s.streams.continue_stream p.session_uuid p.sequence_id p.payload.length
                 call.wall }, .ok (p.with_stream_data X)) := by
  unfold gates_and_advance
  cases gate_2_5_kinetic_firewall p.action_class info.max_action_class
      call.subsystems.audit_health with
  | error e => rfl
  | ok u =>
    simp only
    cases check_stream_sequence info p with
    | error e => rfl
    | ok u =>
      simp only
      cases scan_stream_text X call p with
      | error | ok => rfl

theorem run_section {γ α : Type} (act : StreamSection γ) (k : γ → Prog StreamSection α) (now : ℚ)
    (s : Pipeline) :
    (Prog.step act k).run stream_sections (fun _ => now) s =
      (k (s.exec now act).2).run stream_sections (fun _ => now) (s.exec now act).1 := rfl

/-- **On its own** a continuation does what the sequential model does. -/
theorem run_continuation (X : Crates) (call : PacketCall) (p : ParsedPacket) (s : Pipeline) :
    ((continuation X call p).run stream_sections (fun _ => call.wall) s).2 =
      stream_continuation_core X s call p := by
  unfold continuation stream_continuation_core
  rw [run_section]
  simp only [Pipeline.exec]
  cases s.streams.get_stream_info p.session_uuid with
  | none => rfl
  | some info =>
    simp only
    unfold continue_with stream_token_gates
    by_cases hexpired : 0 < info.token_exp ∧ info.token_exp < call.mono
    · rw [if_pos hexpired, if_pos hexpired]
      rfl
    rw [if_neg hexpired, if_neg hexpired]
    by_cases hhash : info.token_sig_hash.isEmpty = false
    · rw [if_pos hhash, run_section]
      by_cases hrevoked : (s.exec call.wall (.is_token_revoked info.token_sig_hash)).2 = true
      · rw [if_pos hrevoked, if_pos ⟨hhash, hrevoked⟩]
        rfl
      · rw [if_neg hrevoked, if_neg (fun h => hrevoked h.2)]
        exact run_gates_and_advance X call info p s
    · rw [if_neg hhash, if_neg (fun h => hhash h.1)]
      exact run_gates_and_advance X call info p s

end Alone

/-! ## Runs -/

/-- Continuations under way, and the order of their sections. In between the gateway may change in
any way. -/
structure StreamRun (X : Crates) where
  calls : List (PacketCall × ParsedPacket)
  start : Pipeline
  ticks : List (Tick ℚ ZeroTrustGateway)

structure ContinuedFrame where
  sequence : UInt64
  bytes : ℕ
  at_ : ℚ
  deriving DecidableEq

namespace StreamRun

variable (r : StreamRun X)

def run :
    Execution StreamSection ℚ Pipeline ZeroTrustGateway (Result ParsedPacket) where
  sem := stream_sections
  act gateway s := { s with gateway }
  start := ⟨r.calls.map fun c => continuation X c.1 c.2, r.start⟩
  ticks := r.ticks

/-- The frame for which entry `x` of the schedule makes the pipeline return `Ok`. -/
def accepted_at (stream_id : Text) (x : ℕ) : Option ContinuedFrame :=
  match r.ticks[x]? with
  | some (.thread i now) =>
    match r.run.answer x i, r.run.answer (x + 1) i with
    | none, some (.ok p) =>
      if p.session_uuid = stream_id then some ⟨p.sequence_id, p.payload.length, now⟩ else none
    | _, _ => none
  | _ => none

def accepted (stream_id : Text) (n : ℕ) : List ContinuedFrame :=
  (List.range n).filterMap (r.accepted_at stream_id)

/-- The registry refuses to advance the stream at entry `x`. -/
def refused_at (stream_id : Text) (x : ℕ) : Bool :=
  match r.ticks[x]? with
  | some (.thread i now) =>
    match r.run.prog x i with
    | some (.step (.continue_stream id sequence frame_bytes) _) =>
      id = stream_id &&
        !((r.run.state x).streams.continue_answer id sequence frame_bytes now).isOk
    | _ => false
  | _ => false

end StreamRun

/-- **The limits** of a stream that was started at `start`. -/
structure WithinLimits (start : ℚ) (frames : List ContinuedFrame) : Prop where
  increasing : frames.Pairwise fun f g => f.sequence < g.sequence
  bytes : (frames.map (·.bytes)).sum ≤ STREAM_MAX_TOTAL_BYTES
  duration : ∀ f ∈ frames, f.at_ - start ≤ STREAM_MAX_DURATION_SECONDS
  gap : (start :: frames.map (·.at_)).IsChain fun before after =>
    after - before ≤ STREAM_MAX_FRAME_GAP_SECONDS

/-! ## What accepts a frame -/

/-- A continuation returns `Ok` after it has advanced its stream, and then only. -/
def Advances (X : Crates) (p : ParsedPacket) (act : StreamSection γ)
    (k : γ → Prog StreamSection (Result ParsedPacket)) : Prop :=
  match act with
  | .continue_stream stream_id sequence frame_bytes =>
    stream_id = p.session_uuid ∧ sequence = p.sequence_id ∧ frame_bytes = p.payload.length ∧
      ∀ b, k b = .ret (.ok (p.with_stream_data X))
  | _ => ∀ b q, k b ≠ .ret (.ok q)

section Steps

variable (X : Crates) (call : PacketCall) (p : ParsedPacket)

theorem abort_and_refuse_steps (e : SAACPHardDrop) : (abort_and_refuse p e).Steps (Advances X p) :=
  ⟨fun _ _ => nofun, fun _ => trivial⟩

theorem gates_and_advance_steps (info : StreamInfo) :
    (gates_and_advance X call info p).Steps (Advances X p) ∧
      ∀ q, gates_and_advance X call info p ≠ .ret (.ok q) := by
  unfold gates_and_advance
  split
  · exact ⟨abort_and_refuse_steps X p _, nofun⟩
  · split
    · exact ⟨trivial, nofun⟩
    · split
      · exact ⟨trivial, nofun⟩
      · refine ⟨⟨fun _ _ => nofun, fun _ => ⟨⟨rfl, rfl, rfl, fun _ => rfl⟩, ?_⟩⟩, nofun⟩
        exact fun _ => trivial

theorem continuation_steps : (continuation X call p).Steps (Advances X p) := by
  have hrevoked : ∀ info : StreamInfo, (continue_with X call p info).Steps (Advances X p) ∧
      ∀ q, continue_with X call p info ≠ .ret (.ok q) := by
    intro info
    unfold continue_with
    split_ifs with hexpired hhash
    · exact ⟨abort_and_refuse_steps X p _, by rintro _ ⟨⟩⟩
    · refine ⟨⟨?_, ?_⟩, by rintro _ ⟨⟩⟩
      · intro revoked q
        cases revoked with
        | true => rintro ⟨⟩
        | false => exact (gates_and_advance_steps X call p info).2 q
      · intro revoked
        cases revoked with
        | true => exact abort_and_refuse_steps X p _
        | false => exact (gates_and_advance_steps X call p info).1
    · exact gates_and_advance_steps X call p info
  refine ⟨?_, ?_⟩
  · intro info q
    cases info with
    | none => rintro ⟨⟩
    | some info => exact (hrevoked info).2 q
  · intro info
    cases info with
    | none => trivial
    | some info => exact (hrevoked info).1

end Steps

namespace StreamRun

variable {i : ℕ} {f : ContinuedFrame} {now : ℚ}

section Accepted

variable {r : StreamRun X} {stream_id : Text} {x : ℕ}

theorem prog_zero {c : PacketCall × ParsedPacket} (h : r.calls[i]? = some c) :
    r.run.prog 0 i = some (continuation X c.1 c.2) :=
  prog_zero_of_call (f := fun c => continuation X c.1 c.2) rfl h

theorem advances_of_prog {act : StreamSection γ}
    {k : γ → Prog StreamSection (Result ParsedPacket)}
    (h : r.run.prog x i = some (.step act k)) : ∃ p, Advances X p act k := by
  obtain ⟨c, hc⟩ := call_of_prog rfl h
  exact ⟨c.2, steps_of_prog h (prog_zero hc) (continuation_steps X c.1 c.2)⟩

theorem accepted_at_shape (h : r.accepted_at stream_id x = some f) :
    ∃ i now p, r.ticks[x]? = some (.thread i now) ∧ r.run.answer x i = none ∧
      r.run.answer (x + 1) i = some (.ok p) ∧ p.session_uuid = stream_id ∧
      f = ⟨p.sequence_id, p.payload.length, now⟩ := by
  unfold accepted_at at h
  split at h
  · rename_i i now ht
    split at h
    · rename_i p hbefore hafter
      split_ifs at h with hid
      exact ⟨i, now, p, ht, hbefore, hafter, hid, (some.inj h).symm⟩
    · cases h
  · cases h

theorem last_step {a : Result ParsedPacket} (ht : r.ticks[x]? = some (.thread i now))
    (hbefore : r.run.answer x i = none) (hafter : r.run.answer (x + 1) i = some a) :
    ∃ (γ : Type) (act : StreamSection γ)
      (k : γ → Prog StreamSection (Result ParsedPacket)) (b : γ),
      r.run.prog x i = some (.step act k) ∧ k b = .ret a := by
  have hret := answer_eq_some.mp hafter
  obtain ⟨c, hc⟩ := call_of_prog rfl hret
  obtain ⟨q, hq, -⟩ := Execution.trail (prog_zero hc) (Nat.zero_le x)
  obtain ⟨b, rfl, -⟩ | ⟨γ, act, k, rfl, hperforms⟩ := moves_cases hq (moves_iff.mpr ⟨now, ht⟩)
  · rw [answer_eq_some.mpr hq] at hbefore
    cases hbefore
  · obtain ⟨inp, k', hprog, hnext, -⟩ := hperforms.succ
    rw [hret] at hnext
    exact ⟨γ, act, k', _, hprog, (some.inj hnext).symm⟩

/-- **A frame is accepted when its stream is advanced**, whether or not the registry lets it. -/
theorem accepted_at_eq_some : r.accepted_at stream_id x = some f ↔
      ∃ i k, r.ticks[x]? = some (.thread i f.at_) ∧
        r.run.prog x i = some (.step (.continue_stream stream_id f.sequence f.bytes) k) := by
  constructor
  · intro h
    obtain ⟨i, now, p, ht, hbefore, hafter, hid, rfl⟩ := accepted_at_shape h
    obtain ⟨γ, act, k, b, hprog, hnext⟩ := last_step ht hbefore hafter
    obtain ⟨p', hadvances⟩ := advances_of_prog hprog
    cases act with
    | continue_stream id sequence frame =>
      obtain ⟨rfl, rfl, rfl, hret⟩ := hadvances
      obtain rfl : p'.with_stream_data X = p := by
        rw [hret] at hnext
        cases hnext
        rfl
      cases hid
      exact ⟨i, k, ht, hprog⟩
    | _ => exact absurd hnext (hadvances b p)
  · rintro ⟨i, k, ht, hprog⟩
    obtain ⟨p, rfl, hsequence, hbytes, hret⟩ := advances_of_prog hprog
    have hperforms : r.run.Performs x i (.continue_stream p.session_uuid f.sequence f.bytes) :=
      ⟨f.at_, k, ht, hprog⟩
    obtain ⟨now, k', hprog', hnext, -⟩ := hperforms.succ
    obtain rfl : k = k' := by
      rw [hprog] at hprog'
      cases hprog'
      rfl
    rw [hret] at hnext
    have hbefore : r.run.answer x i = none := by
      cases hanswer : r.run.answer x i with
      | none => rfl
      | some a => cases hprog.symm.trans (answer_eq_some.mp hanswer)
    have hafter := answer_eq_some.mpr hnext
    unfold accepted_at
    simp only [ht, hbefore, hafter]
    rw [if_pos (show (p.with_stream_data X).session_uuid = p.session_uuid from rfl)]
    obtain ⟨sequence, bytes, now⟩ := f
    cases hsequence
    cases hbytes
    rfl

end Accepted

/-! ## The session against the accepted frames -/

variable {s : Pipeline}

section Limits

variable {r : StreamRun X} {stream_id : Text} {start : ℚ}

theorem accepted_succ (r : StreamRun X) (stream_id : Text) (n : ℕ) : r.accepted stream_id (n + 1) =
      r.accepted stream_id n ++ (r.accepted_at stream_id n).toList := by
  unfold accepted
  rw [range_succ, filterMap_append]
  cases h : r.accepted_at stream_id n with
  | none | some => simp [h]

/-- What the session of a stream knows of the frames that were accepted. -/
structure Accounts (start : ℚ) (frames : List ContinuedFrame) (s : StreamSession) : Prop where
  started : s.started_at = start
  sequence : ∀ f ∈ frames, f.sequence ≤ s.last_sequence
  bytes : (frames.map (·.bytes)).sum ≤ s.total_bytes
  last : (start :: frames.map (·.at_)).getLast? = some s.last_frame_at

/-- **The invariant**: the frames are within the limits, and the session accounts for them. -/
structure Limited (start : ℚ) (stream_id : Text) (frames : List ContinuedFrame) (s : Pipeline) :
    Prop where
  within : WithinLimits start frames
  accounts : ∀ session, s.streams.streams.get stream_id = some session →
    Accounts start frames session

theorem continue_answer_ok {reg : StreamRegistry} {sequence : UInt64} {frame : ℕ}
    (h : reg.continue_answer stream_id sequence frame now = .ok ()) :
    ∃ session, reg.streams.get stream_id = some session ∧
      (session.validate_continuation sequence frame now).2 = .ok () := by
  unfold continue_answer at h
  cases hget : reg.streams.get stream_id with
  | none =>
    rw [hget] at h
    cases h
  | some session =>
    rw [hget] at h
    refine ⟨session, rfl, ?_⟩
    cases hval : (session.validate_continuation sequence frame now).2 with
    | error e =>
      simp only [hval] at h
      cases h
    | ok u => rfl

variable {frames : List ContinuedFrame}

theorem Accounts.within {s : StreamSession} (h : Accounts start frames s)
    (hwithin : WithinLimits start frames) (hsequence : s.last_sequence < f.sequence)
    (hbytes : s.total_bytes + f.bytes ≤ STREAM_MAX_TOTAL_BYTES)
    (hduration : f.at_ - s.started_at ≤ STREAM_MAX_DURATION_SECONDS)
    (hgap : f.at_ - s.last_frame_at ≤ STREAM_MAX_FRAME_GAP_SECONDS) :
    WithinLimits start (frames ++ [f]) := by
  have hsum := h.bytes
  refine ⟨?_, ?_, ?_, ?_⟩
  · rw [pairwise_append]
    refine ⟨hwithin.increasing, pairwise_singleton _ _, ?_⟩
    intro g hg f' hf'
    obtain rfl := mem_singleton.mp hf'
    exact UInt64.lt_of_le_of_lt (h.sequence g hg) hsequence
  · rw [map_append, sum_append, map_singleton, sum_singleton]
    omega
  · rw [h.started] at hduration
    exact forall_mem_append.mpr ⟨hwithin.duration, forall_mem_singleton.mpr hduration⟩
  · rw [map_append, ← cons_append, isChain_append]
    refine ⟨hwithin.gap, isChain_singleton _, ?_⟩
    intro before hbefore after hafter
    rw [h.last] at hbefore
    cases hbefore
    cases hafter
    exact hgap

theorem Limited.advance (h : Limited start stream_id frames s)
    (hok : s.streams.continue_answer stream_id f.sequence f.bytes f.at_ = .ok ()) :
    Limited start stream_id (frames ++ [f])
      (s.exec f.at_ (.continue_stream stream_id f.sequence f.bytes)).1 := by
  obtain ⟨session, hget, hval⟩ := continue_answer_ok hok
  obtain ⟨err, heq⟩ | ⟨hsequence, hbytes, ⟨hduration, hgap⟩, heq⟩ :=
    validate_continuation_cases session f.sequence f.bytes f.at_
  · rw [heq] at hval
    cases hval
  have haccounts := h.accounts session hget
  refine ⟨haccounts.within h.within hsequence hbytes hduration hgap, ?_⟩
  intro session' hget'
  -- the session that is there now is the one that has taken the frame
  have hmodified : (s.streams.streams.modify stream_id fun s =>
      (s.validate_continuation f.sequence f.bytes f.at_).1).get stream_id = some session' := hget'
  rw [get_modify_self, hget, map_some, heq, some.injEq] at hmodified
  subst hmodified
  refine ⟨haccounts.started, ?_, ?_, ?_⟩
  · refine forall_mem_append.mpr ⟨fun g hg => ?_, forall_mem_singleton.mpr (UInt64.le_refl _)⟩
    exact UInt64.le_of_lt (UInt64.lt_of_le_of_lt (haccounts.sequence g hg) hsequence)
  · have hsum := haccounts.bytes
    rw [map_append, sum_append, map_singleton, sum_singleton]
    show _ ≤ session.total_bytes + f.bytes
    omega
  · rw [map_append, ← cons_append, List.getLast?_append]
    rfl

def ContinuesOn (stream_id : Text) : StreamSection γ → Prop
  | .continue_stream id _ _ => id = stream_id
  | _ => False

theorem session_of_exec {act : StreamSection γ}
    (hact : ¬ ContinuesOn stream_id act) {session : StreamSession}
    (h : (s.exec now act).1.streams.streams.get stream_id = some session) :
    s.streams.streams.get stream_id = some session := by
  cases act with
  | get_stream_info | is_token_revoked | append_event => exact h
  | abort_stream id =>
    rw [Pipeline.exec] at h
    unfold abort_stream at h
    split at h
    · exact h
    · exact remove_le _ _ _ _ h
  | continue_stream id sequence frame =>
    have hmodified : (s.streams.streams.modify id fun s =>
        (s.validate_continuation sequence frame now).1).get stream_id = some session := h
    rw [get_modify, if_neg (fun hid => hact hid.symm)] at hmodified
    exact hmodified

theorem Limited.succ {n : ℕ} (hheeded : r.refused_at stream_id n = false)
    (h : Limited start stream_id (r.accepted stream_id n) (r.run.state n)) :
    Limited start stream_id (r.accepted stream_id (n + 1)) (r.run.state (n + 1)) := by
  rw [accepted_succ]
  cases hat : r.accepted_at stream_id n with
  | none =>
    rw [toList_none, append_nil]
    refine ⟨h.within, fun session hget => h.accounts session ?_⟩
    refine r.run.rel_succ_at (fun s s' => s'.streams.streams.get stream_id = some session →
      s.streams.streams.get stream_id = some session) id (fun _ => id) ?_ hget
    intro i now γ act ht hperforms
    refine session_of_exec fun hcontinues => ?_
    -- it would have accepted a frame
    obtain ⟨_, k, -, hprog⟩ := hperforms
    cases act with
    | continue_stream id sequence frame_bytes =>
      obtain rfl : id = stream_id := hcontinues
      have hsome := (accepted_at_eq_some (f := ⟨sequence, frame_bytes, now⟩)).mpr ⟨i, k, ht, hprog⟩
      rw [hat] at hsome
      cases hsome
    | _ => exact hcontinues
  | some f =>
    obtain ⟨i, k, ht, hprog⟩ := accepted_at_eq_some.mp hat
    have hperforms : r.run.Performs n i (.continue_stream stream_id f.sequence f.bytes) :=
      ⟨f.at_, k, ht, hprog⟩
    obtain ⟨now, k', ht', -, -, hstate⟩ := hperforms.succ_at
    obtain rfl : f.at_ = now := by
      rw [show r.run.ticks = r.ticks from rfl, ht] at ht'
      cases ht'
      rfl
    rw [toList_some, hstate]
    apply h.advance
    simp only [refused_at, ht, hprog, decide_true, Bool.true_and, Bool.not_eq_false'] at hheeded
    cases hanswer : (r.run.state n).streams.continue_answer stream_id f.sequence f.bytes f.at_ with
    | error e =>
      rw [hanswer] at hheeded
      cases hheeded
    | ok u => rfl

end Limits

/-- A stream that was started at this second, and has taken no frame yet. -/
def Opened (s : Pipeline) (stream_id : Text) (start : ℚ) : Prop :=
  ∃ session, s.streams.streams.get stream_id = some session ∧ session.started_at = start ∧
    session.last_frame_at = start

/-- **Accepted frames respect the limits** of their stream, under every interleaving of any number
of continuations, as long as the registry refuses none of them when the stream is advanced. -/
theorem accepted_within_limits {X : Crates} (r : StreamRun X) (stream_id : Text) (start : ℚ)
    (hopened : Opened r.start stream_id start) (hheeded : ∀ x, r.refused_at stream_id x = false)
    (n : ℕ) : WithinLimits start (r.accepted stream_id n) := by
  have hlimited : Limited start stream_id (r.accepted stream_id n) (r.run.state n) := by
    induction n with
    | zero =>
      refine ⟨⟨List.Pairwise.nil, Nat.zero_le _, nofun, isChain_singleton _⟩, ?_⟩
      intro session' hget'
      obtain ⟨session, hget, hstarted, hlast⟩ := hopened
      obtain rfl : session = session' := some.inj (hget.symm.trans hget')
      exact ⟨hstarted, nofun, Nat.zero_le _, congrArg some hlast.symm⟩
    | succ n ih => exact ih.succ (hheeded n)
  exact hlimited.within

theorem opened_of_start {stream_id source_agent agent_id : Text}
    (h : s.streams.below_cap agent_id = true) (token_sig_hash : Text) (token_exp : ℚ)
    (source : Text) (max_action_class : UInt8) :
    Opened { s with
      streams :=
        (s.streams.start_stream stream_id source_agent agent_id now).1.set_stream_token_info
          stream_id token_sig_hash token_exp source max_action_class } stream_id now := by
  refine ⟨{ StreamSession.new stream_id agent_id 0 now with
    source_agent := source, token_sig_hash, token_exp, max_action_class }, ?_, rfl, rfl⟩
  rw [start_stream_of_below_cap h]
  simp only [set_stream_token_info, insert_session,
    get_modify_self, StreamSession.new, get_insert_self, map_some]

end StreamRun

/-! ## Frames that are refused and accepted -/

def sampleContinuation (sequence_id : UInt64) : PacketCall × ParsedPacket :=
  (sampleCall 0x18 0 sequence_id (ascii "part") 0,
    { schema_id := 1
      status_code := 0x18
      flags := 0
      action_class := 0
      session_uuid := ascii "5e5510"
      sequence_id
      context_state_id := []
      context_version := 0
      traceparent := []
      payload := ascii "part"
      payload_dict := .empty
      gate_tier := .Lightweight
      is_cover_traffic := false
      source_agent := []
      is_binary_stream := false
      max_action_class := 0
      token_sig_hash := [] })

def sampleContinuations (sequence_ids : List UInt64) (ticks : List (ℕ × ℚ)) :
    StreamRun sampleCrates where
  calls := sequence_ids.map sampleContinuation
  start :=
    ⟨.new, (StreamRegistry.new.start_stream (ascii "5e5510") (ascii "ops") (ascii "svc") 0).1⟩
  ticks := ticks.map fun t => .thread t.1 t.2

namespace StreamRun

theorem accepted_within_limits_sample :
    let r := sampleContinuations [1, 2] [(0, 1), (1, 1), (0, 2), (0, 2), (1, 3), (1, 3)]
    r.accepted (ascii "5e5510") 6 = [⟨1, 4, 2⟩, ⟨2, 4, 3⟩] ∧
      WithinLimits 0 (r.accepted (ascii "5e5510") 6) := by
  intro r
  have hopened : Opened r.start (ascii "5e5510") 0 :=
    ⟨{ StreamSession.new (ascii "5e5510") (ascii "svc") 0 0 with source_agent := ascii "ops" },
      rfl, rfl, rfl⟩
  have hheeded : ∀ x, r.refused_at (ascii "5e5510") x = false := by
    intro x
    by_cases hx : x < 6
    · have hall : ∀ x < 6, r.refused_at (ascii "5e5510") x = false := by decide +kernel
      exact hall x hx
    · have ht : r.ticks[x]? = none := List.getElem?_eq_none (Nat.le_of_not_lt hx)
      rw [refused_at, ht]
  exact ⟨by decide +kernel, accepted_within_limits r _ 0 hopened hheeded 6⟩

/-- **Frames that the registry refuses** are accepted: two with the same sequence number that have
both seen the stream before either advanced it, and one after 200 seconds of silence. -/
theorem refused_frames_accepted :
    let r := sampleContinuations [5, 5, 6]
      [(0, 1), (1, 1), (0, 2), (0, 2), (1, 3), (1, 3), (2, 200), (2, 200), (2, 200)]
    r.accepted (ascii "5e5510") 9 = [⟨5, 4, 2⟩, ⟨5, 4, 3⟩, ⟨6, 4, 200⟩] ∧
      ¬ WithinLimits 0 (r.accepted (ascii "5e5510") 9) := by
  intro r
  have haccepted : r.accepted (ascii "5e5510") 9 = [⟨5, 4, 2⟩, ⟨5, 4, 3⟩, ⟨6, 4, 200⟩] := by
    decide +kernel
  rw [haccepted]
  refine ⟨rfl, fun h => ?_⟩
  exact absurd h.increasing (by decide)

end StreamRun

end Saacp
