/-
**Streams on a shared backend**: `continue_stream`, `abort_stream` and `end_stream` of any number
of nodes on one stream whose session lives in a `StateBackend`.

Values are opaque to the backend, so what `serde_json` writes is a type of its own, with the round
trip as the one thing that is known about it. Beside the store the state keeps what each call read
last, which frames were accepted, whether the stream was deleted, and which calls read only after
that. `undisturbed` says that a `set` finds what its call has read.
-/
import Saacp.StreamRegistry
import Saacp.Atomic
import Saacp.TtlMap

set_option autoImplicit false

open ByteCodec Atomic

namespace Saacp

open List

structure SessionCodec (Bytes : Type) where
  to_vec : StreamSession → Bytes
  from_slice : Bytes → Option StreamSession

/-- What is written can be read back (floats included: `float_roundtrip`). -/
def SessionCodec.Lawful {Bytes : Type} (codec : SessionCodec Bytes) : Prop :=
  ∀ s, codec.from_slice (codec.to_vec s) = some s

deriving instance DecidableEq for StreamSession

structure StreamFrame where
  sequence : UInt64
  frame_bytes : ℕ
  deriving DecidableEq

namespace SharedStream

def stream_key (stream_id : Text) : Text := "stream:".toUTF8.toList ++ stream_id

def stream_backend_ttl : ℕ := (120 + 10 + 30) * 1000000000

/-- The atomic steps of a call. A `set` names the frame it records, for the history. -/
inductive Section (Bytes : Type) : Type → Type
  | get (key : Text) : Section Bytes (Option Bytes)
  | set (key : Text) (value : Bytes) (ttl : Option ℕ) (frame : Option StreamFrame) :
      Section Bytes Unit
  | delete (key : Text) : Section Bytes Bool
  | now_epoch_secs : Section Bytes ℚ

structure Clocks where
  instant : ℕ
  now : ℚ

def accepted_frame (frame : StreamFrame) : Result Unit → Option StreamFrame
  | .ok () => some frame
  | .error _ => none

variable {Bytes : Type}

section Calls

variable (codec : SessionCodec Bytes)

/-- `continue_stream`. The session is put back whether or not the frame was accepted. -/
def continue_stream (stream_id : Text) (frame : StreamFrame) :
    Prog (Section Bytes) (Except String Unit) :=
  .step (.get (stream_key stream_id)) fun bytes =>
    match bytes.bind codec.from_slice with
    | none => .ret (.error ("No active stream '" ++ display stream_id ++ "'."))
    | some session =>
      .step .now_epoch_secs fun now =>
        let r := session.validate_continuation frame.sequence frame.frame_bytes now
        .step (.set (stream_key r.1.stream_id) (codec.to_vec r.1) (some stream_backend_ttl)
            (accepted_frame frame r.2)) fun _ =>
          .ret (r.2.mapError SAACPHardDrop.message)

def abort_stream (stream_id : Text) : Prog (Section Bytes) Unit :=
  .step (.delete (stream_key stream_id)) fun _ => .ret ()

def end_stream (stream_id : Text) : Prog (Section Bytes) (Option StreamSession) :=
  .step (.get (stream_key stream_id)) fun bytes =>
    match bytes.bind codec.from_slice with
    | none => .ret none
    | some session =>
      .step (.delete (stream_key stream_id)) fun _ => .ret (some { session with closed := true })

inductive Call where
  | continue_stream (frame : StreamFrame)
  | abort_stream
  | end_stream

inductive Answer where
  | continued (result : Except String Unit)
  | aborted
  | ended (session : Option StreamSession)
  deriving DecidableEq

def Call.prog (stream_id : Text) : Call → Prog (Section Bytes) Answer
  | .continue_stream frame => (SharedStream.continue_stream codec stream_id frame).map .continued
  | .abort_stream => (SharedStream.abort_stream stream_id).map fun _ => .aborted
  | .end_stream => (SharedStream.end_stream codec stream_id).map .ended

end Calls

/-! ## The store and its history -/

/-- The backend, and what the calls have done to the stream. -/
structure State (Bytes : Type) where
  store : TtlMap Text Bytes
  read : ℕ → Option Bytes
  accepted : List (ℕ × StreamFrame)
  deleted : Bool
  late : List ℕ

section Semantics

def exec (tid : ℕ) {β : Type} (act : Section Bytes β) (at_ : Clocks) (s : State Bytes) :
    State Bytes × β :=
  match act with
  | .get key =>
    ({ s with
       read := Function.update s.read tid (s.store.get at_.instant key)
       late := if s.deleted then tid :: s.late else s.late }, s.store.get at_.instant key)
  | .set key value ttl frame =>
    ({ s with
       store := s.store.set at_.instant key value ttl
       accepted := s.accepted ++ frame.toList.map fun f => (tid, f) }, ())
  | .delete key =>
    ({ s with store := (s.store.delete at_.instant key).1, deleted := true },
      (s.store.delete at_.instant key).2)
  | .now_epoch_secs => (s, at_.now)

def semantics : Semantics (Section Bytes) Clocks (State Bytes) where
  exec := exec

/-- A `set` finds what its call has read. -/
def undisturbed : Condition (Section Bytes) Clocks (State Bytes) Empty where
  section_ok tid _ act _ s :=
    match act with
    | .set key _ _ _ => s.store.stored key = s.read tid
    | _ => True
  daemon_ok _ _ := True

instance [DecidableEq Bytes] (tid : ℕ) {γ : Type} (act : Section Bytes γ) (at_ : Clocks)
    (s : State Bytes) : Decidable ((@undisturbed Bytes).section_ok tid act at_ s) :=
  match act with
  | .get _ => isTrue trivial
  | .set key _ _ _ => inferInstanceAs (Decidable (s.store.stored key = s.read tid))
  | .delete _ => isTrue trivial
  | .now_epoch_secs => isTrue trivial

instance (d : Empty) (s : State Bytes) : Decidable ((@undisturbed Bytes).daemon_ok d s) :=
  isTrue trivial

end Semantics

/-! ## Session and accepted frames in step -/

/-- What a session says is what the accepted frames add up to. -/
structure InStep (session : StreamSession) (accepted : List (ℕ × StreamFrame)) : Prop where
  total : session.total_bytes = (accepted.map fun a => a.2.frame_bytes).sum
  cap : session.total_bytes ≤ STREAM_MAX_TOTAL_BYTES
  ahead : ∀ a ∈ accepted, a.2.sequence ≤ session.last_sequence

section Run

variable (codec : SessionCodec Bytes) (stream_id : Text) (jobs : List Call)

/-- **The invariant.** The frames are in order, the session is in step with them, and after a delete
there is none. -/
structure Tracked (s : State Bytes) : Prop where
  called : ∀ a ∈ s.accepted, jobs[a.1]? = some (.continue_stream a.2)
  ordered : (s.accepted.map fun a => a.2.sequence).Pairwise (· < ·)
  stored : ∀ bytes, s.store.stored (stream_key stream_id) = some bytes →
    ∃ session, codec.from_slice bytes = some session ∧ session.stream_id = stream_id ∧
      InStep session s.accepted
  deleted : s.deleted = true → s.store.stored (stream_key stream_id) = none

/-- Nobody else touches what a call has read, the frames accepted for it, or when it began. -/
def protocol : Protocol (State Bytes) where
  inv := Tracked codec stream_id jobs
  rely i s s' := s'.read i = s.read i ∧ (∀ f, (i, f) ∈ s'.accepted ↔ (i, f) ∈ s.accepted) ∧
    (i ∈ s'.late ↔ i ∈ s.late)
  rely_refl _ _ := ⟨rfl, fun _ => Iff.rfl, Iff.rfl⟩
  rely_trans h h' := ⟨h'.1.trans h.1, fun f => (h'.2.1 f).trans (h.2.1 f), h'.2.2.trans h.2.2⟩

variable {codec stream_id jobs} {tid : ℕ} {s : State Bytes}

/-- One section meets its obligations to the invariant and to the other calls. -/
def Keeps (codec : SessionCodec Bytes) (stream_id : Text) (jobs : List Call) (tid : ℕ) {β : Type}
    (act : Section Bytes β) (at_ : Clocks) (s : State Bytes) : Prop :=
  Tracked codec stream_id jobs (exec tid act at_ s).1 ∧
    ∀ j, j ≠ tid → (protocol codec stream_id jobs).rely j s (exec tid act at_ s).1

variable (h : Tracked codec stream_id jobs s)
include h

theorem get_keeps (tid : ℕ) (key : Text) (at_ : Clocks) :
    Keeps codec stream_id jobs tid (.get key) at_ s := by
  refine ⟨⟨h.called, h.ordered, h.stored, h.deleted⟩, ?_⟩
  intro j hj
  refine ⟨Function.update_of_ne hj _ _, fun _ => Iff.rfl, ?_⟩
  simp only [exec]
  split
  · simp [hj]
  · rfl

theorem delete_keeps (tid : ℕ) (at_ : Clocks) :
    Keeps codec stream_id jobs tid (.delete (stream_key stream_id)) at_ s := by
  refine ⟨⟨h.called, h.ordered, ?_, fun _ => TtlMap.stored_delete_self s.store at_.instant _⟩,
    fun j _ => ⟨rfl, fun _ => Iff.rfl, Iff.rfl⟩⟩
  intro bytes hbytes
  simp only [exec, TtlMap.stored_delete_self] at hbytes
  cases hbytes

omit h

theorem set_keeps (hcodec : codec.Lawful) (h : Tracked codec stream_id jobs s) {at_ : Clocks}
    (hlive : s.deleted = false) {session : StreamSession} {ttl : Option ℕ}
    {frame : Option StreamFrame} (hid : session.stream_id = stream_id)
    (hcalled : ∀ f ∈ frame, jobs[tid]? = some (.continue_stream f))
    (hahead : ∀ f ∈ frame, ∀ a ∈ s.accepted, a.2.sequence < f.sequence)
    (hstep : InStep session (s.accepted ++ frame.toList.map fun f => (tid, f))) :
    Keeps codec stream_id jobs tid
      (.set (stream_key stream_id) (codec.to_vec session) ttl frame) at_ s := by
  refine ⟨⟨?_, ?_, ?_, ?_⟩, ?_⟩
  · intro a ha
    obtain ha | ha := mem_append.mp ha
    · exact h.called a ha
    · obtain ⟨f, hf, rfl⟩ := mem_map.mp ha
      exact hcalled f (Option.mem_toList.mp hf)
  · simp only [exec, map_append, pairwise_append]
    refine ⟨h.ordered, ?_, ?_⟩
    · cases frame <;> simp
    · intro n hn n' hn'
      obtain ⟨a, ha, rfl⟩ := mem_map.mp hn
      cases frame with
      | none => simp at hn'
      | some f =>
        simp only [Option.toList_some, map_cons, map_nil, mem_singleton] at hn'
        rw [hn']
        exact hahead f rfl a ha
  · intro bytes hbytes
    simp only [exec, TtlMap.stored_set_self, Option.some.injEq] at hbytes
    exact ⟨session, hbytes ▸ hcodec session, hid, hstep⟩
  · intro hdel
    rw [show s.deleted = true from hdel] at hlive
    cases hlive
  · intro j hj
    refine ⟨rfl, fun f => ?_, Iff.rfl⟩
    simp only [exec, mem_append, mem_map, Prod.mk.injEq]
    constructor
    · rintro (hf | ⟨_, -, hji, -⟩)
      · exact hf
      · exact absurd hji.symm hj
    · exact .inl

/-- No frame was accepted for the call, and it did not begin after a delete. -/
def Untouched (tid : ℕ) (s : State Bytes) : Prop := (∀ f, (tid, f) ∉ s.accepted) ∧ tid ∉ s.late

theorem untouched_stable : (protocol codec stream_id jobs).Stable tid (Untouched tid) := by
  intro s s' hrely h
  exact ⟨fun f hf => h.1 f ((hrely.2.1 f).mp hf), fun hl => h.2 (hrely.2.2.mp hl)⟩

/-- What an answer of `continue_stream` says about the history. -/
def Continued (tid : ℕ) (frame : StreamFrame) (result : Except String Unit) (s : State Bytes) :
    Prop :=
  match result with
  | .ok () => (tid, frame) ∈ s.accepted ∧ tid ∉ s.late
  | .error _ => ∀ f, (tid, f) ∉ s.accepted

theorem continued_stable {frame : StreamFrame} {result : Except String Unit} :
    (protocol codec stream_id jobs).Stable tid (Continued tid frame result) := by
  intro s s' hrely h
  match result, h with
  | .ok (), h => exact ⟨(hrely.2.1 frame).mpr h.1, fun hl => h.2 (hrely.2.2.mp hl)⟩
  | .error _, h => exact fun f hf => h f ((hrely.2.1 f).mp hf)

/-- Between its read and its write, a call knows which value it read. -/
def HasRead (tid : ℕ) (bytes : Bytes) (s : State Bytes) : Prop :=
  Untouched tid s ∧ s.read tid = some bytes

theorem hasRead_stable {bytes : Bytes} :
    (protocol codec stream_id jobs).Stable tid (HasRead tid bytes) := by
  intro s s' hrely h
  exact ⟨untouched_stable s s' hrely h.1, hrely.1.trans h.2⟩

theorem put_session_keeps (hcodec : codec.Lawful) (h : Tracked codec stream_id jobs s)
    {bytes : Bytes} {session : StreamSession} {frame : StreamFrame} {now : ℚ} (ttl : Option ℕ)
    (at_ : Clocks) (hjob : jobs[tid]? = some (.continue_stream frame)) (hread : HasRead tid bytes s)
    (hsession : codec.from_slice bytes = some session) (hid : session.stream_id = stream_id)
    (hfound : s.store.stored (stream_key stream_id) = some bytes)
    {r : StreamSession × Result Unit}
    (hr : r = session.validate_continuation frame.sequence frame.frame_bytes now) :
    let act := .set (stream_key stream_id) (codec.to_vec r.1) ttl (accepted_frame frame r.2)
    r.1.stream_id = stream_id ∧ Keeps codec stream_id jobs tid act at_ s ∧
      Continued tid frame (r.2.mapError SAACPHardDrop.message) (exec tid act at_ s).1 := by
  -- a delete would have left nothing to find
  have hlive : s.deleted = false := by
    by_contra hdel
    rw [h.deleted (Bool.eq_true_of_not_eq_false hdel)] at hfound
    cases hfound
  obtain ⟨found, hfrom, -, hstep⟩ := h.stored bytes hfound
  obtain rfl : session = found := Option.some.inj (hsession.symm.trans hfrom)
  obtain ⟨err, hval⟩ | ⟨hseq, hcap, -, hval⟩ :=
    validate_continuation_cases session frame.sequence frame.frame_bytes now
  · rw [hr, hval]
    refine ⟨hid, set_keeps hcodec h hlive hid (fun f hf => nomatch hf) (fun f hf => nomatch hf) ?_,
      ?_⟩
    · simpa [accepted_frame] using hstep
    · simpa [Continued, Except.mapError, exec, accepted_frame] using hread.1.1
  · rw [hr, hval]
    have hahead : ∀ a ∈ s.accepted, a.2.sequence < frame.sequence :=
      fun a ha => UInt64.lt_of_le_of_lt (hstep.ahead a ha) hseq
    refine ⟨hid, set_keeps hcodec h hlive hid ?_ ?_ ⟨?_, hcap, ?_⟩, ?_, hread.1.2⟩
    · rintro f ⟨⟩
      exact hjob
    · rintro f ⟨⟩
      exact hahead
    · simp [accepted_frame, hstep.total]
    · intro a ha
      simp only [accepted_frame, Option.toList_some, map_cons, map_nil,
        mem_append, mem_singleton] at ha
      rcases ha with ha | rfl
      · exact UInt64.le_of_lt (hahead a ha)
      · exact UInt64.le_refl _
    · simp [exec, accepted_frame]

theorem continue_stream_safe (hcodec : codec.Lawful) {frame : StreamFrame}
    (hjob : jobs[tid]? = some (.continue_stream frame)) (hs : Untouched tid s) :
    (continue_stream codec stream_id frame).Safe semantics undisturbed
      (protocol codec stream_id jobs) tid (Continued tid frame) s := by
  unfold continue_stream
  -- the read: a value found belongs to a stream that is open, so this call is not late
  refine Prog.Safe.step_to (fun bytes s' => (∀ f, (tid, f) ∉ s'.accepted) ∧
      ∀ b, bytes = some b → HasRead tid b s' ∧
        ∀ session, codec.from_slice b = some session → session.stream_id = stream_id)
    untouched_stable ?_ ?_ hs
  · intro s' at_ hinv hK _
    obtain ⟨htracked, hothers⟩ := get_keeps hinv tid (stream_key stream_id) at_
    refine ⟨htracked, hothers, hK.1, ?_⟩
    intro b hb
    have hfound := TtlMap.stored_of_get hb
    obtain ⟨session, hfrom, hid, -⟩ := hinv.stored b hfound
    have hlive : ¬ s'.deleted = true := by
      intro hdel
      rw [hinv.deleted hdel] at hfound
      cases hfound
    refine ⟨⟨⟨hK.1, ?_⟩, ?_⟩, ?_⟩
    · simpa [semantics, exec, hlive] using hK.2
    · exact (Function.update_self tid _ _).trans hb
    · intro session' hfrom'
      obtain rfl : session' = session := Option.some.inj (hfrom'.symm.trans hfrom)
      exact hid
  intro bytes s' hK'
  cases hdec : bytes.bind codec.from_slice with
  | none =>
    exact Prog.Safe.ret_of_stable continued_stable (fun _ h => h) hK'.1
  | some session =>
    obtain ⟨b, rfl, hsession⟩ := Option.bind_eq_some_iff.mp hdec
    obtain ⟨hread, hid⟩ := hK'.2 b rfl
    have hid := hid session hsession
    refine Prog.Safe.step_of_stable hasRead_stable ?_ ?_ hread
    · intro s'' at_ hinv _
      exact ⟨hinv, fun j => (protocol codec stream_id jobs).rely_refl j s''⟩
    intro now s'' hread
    have hkey : (session.validate_continuation frame.sequence frame.frame_bytes now).1.stream_id =
        stream_id := by
      obtain ⟨err, hval⟩ | ⟨-, -, -, hval⟩ :=
        validate_continuation_cases session frame.sequence frame.frame_bytes now
      all_goals
        rw [hval]
        exact hid
    dsimp only
    rw [hkey]
    -- the write: the condition says that what was read is still there
    refine Prog.Safe.step_to (fun _ => Continued tid frame _) hasRead_stable ?_
      (fun _ _ h => Prog.Safe.ret_of_stable continued_stable (fun _ h => h) h) hread
    intro t at_ hinv hread hok
    obtain ⟨-, ⟨htracked, hothers⟩, hcont⟩ := put_session_keeps hcodec hinv
      (some stream_backend_ttl) at_ hjob hread hsession hid (Eq.trans hok hread.2) rfl
    exact ⟨htracked, hothers, hcont⟩

theorem abort_stream_safe (s : State Bytes) :
    (abort_stream stream_id).Safe semantics undisturbed (protocol codec stream_id jobs) tid
      (fun _ _ => True) s := by
  intro s' _ hinv at_ _
  obtain ⟨htracked, hothers⟩ := delete_keeps hinv tid at_
  exact ⟨htracked, hothers, fun _ _ _ => trivial⟩

theorem end_stream_safe (s : State Bytes) :
    (end_stream codec stream_id).Safe semantics undisturbed (protocol codec stream_id jobs) tid
      (fun _ _ => True) s := by
  intro s' _ hinv at_ _
  obtain ⟨htracked, hothers⟩ := get_keeps hinv tid (stream_key stream_id) at_
  refine ⟨htracked, hothers, ?_⟩
  dsimp only
  split
  · exact fun _ _ _ => trivial
  · intro t _ hinv at_ _
    obtain ⟨htracked, hothers⟩ := delete_keeps hinv tid at_
    exact ⟨htracked, hothers, fun _ _ _ => trivial⟩

def Call.Answers (tid : ℕ) : Call → Answer → State Bytes → Prop
  | .continue_stream frame, answer, s =>
    ∃ result, answer = .continued result ∧ Continued tid frame result s
  | .abort_stream, answer, _ => answer = .aborted
  | .end_stream, answer, _ => ∃ session, answer = .ended session

theorem Call.prog_safe (hcodec : codec.Lawful) {job : Call} (hjob : jobs[tid]? = some job)
    (hs : Untouched tid s) :
    (job.prog codec stream_id).Safe semantics undisturbed (protocol codec stream_id jobs) tid
      (job.Answers tid) s := by
  cases job with
  | continue_stream frame =>
    refine (continue_stream_safe hcodec hjob hs).bind ?_
    intro result t _ hcont t' hrely _
    exact ⟨result, rfl, continued_stable t t' hrely hcont⟩
  | abort_stream => exact (abort_stream_safe s).bind fun _ _ _ _ _ _ _ => rfl
  | end_stream => exact (end_stream_safe s).bind fun session _ _ _ _ _ _ => ⟨session, rfl⟩

end Run

/-! ## All interleavings -/

section Interleavings

variable (codec : SessionCodec Bytes)

def started (store : TtlMap Text Bytes) (stream_id source_agent agent_id : Text) (at_ : Clocks)
    (jobs : List Call) : Pool (Section Bytes) (State Bytes) Answer where
  threads := jobs.map fun job => job.prog codec stream_id
  state :=
    { store := store.set at_.instant (stream_key stream_id)
        (codec.to_vec
          { StreamSession.new stream_id agent_id 0 at_.now with source_agent := source_agent })
        (some stream_backend_ttl)
      read := fun _ => none
      accepted := []
      deleted := false
      late := [] }

def no_daemon : Empty → State Bytes → State Bytes := fun d _ => nomatch d

variable {codec}

theorem started_safe (hcodec : codec.Lawful) (store : TtlMap Text Bytes)
    (stream_id source_agent agent_id : Text) (at_ : Clocks) (jobs : List Call) :
    (started codec store stream_id source_agent agent_id at_ jobs).Safe semantics undisturbed
      (protocol codec stream_id jobs)
      (fun i answer s => ∀ job, jobs[i]? = some job → job.Answers i answer s) := by
  refine ⟨⟨nofun, List.Pairwise.nil, ?_, nofun⟩, ?_⟩
  · intro bytes hbytes
    simp only [started, TtlMap.stored_set_self, Option.some.injEq] at hbytes
    exact ⟨_, hbytes ▸ hcodec _, rfl, ⟨rfl, Nat.zero_le _, nofun⟩⟩
  · intro i q hq
    simp only [started, List.getElem?_map] at hq
    obtain ⟨job, hjob, rfl⟩ := Option.map_eq_some_iff.mp hq
    refine (Call.prog_safe hcodec hjob ⟨fun _ => not_mem_nil, not_mem_nil⟩).weaken ?_
    intro answer s hanswer job' hjob'
    obtain rfl : job = job' := Option.some.inj (hjob.symm.trans hjob')
    exact hanswer

/-- **Frames on a shared backend**: any number of `continue_stream`, `abort_stream` and
`end_stream` calls on a stream that was just started, in any interleaving in which every `set`
finds what its call has read. The frames accepted, in the order of the writes, have strictly
increasing sequence numbers and are those of the calls that succeeded; a session read from the
backend counts exactly their bytes, within the cap; and no call that began after a delete
succeeded. -/
theorem shared_stream_in_step (hcodec : codec.Lawful) (store : TtlMap Text Bytes)
    (stream_id source_agent agent_id : Text) (at_ : Clocks) (jobs : List Call)
    (ticks : List (Tick Clocks Empty))
    (hticks : (started codec store stream_id source_agent agent_id at_ jobs).Respects semantics
      no_daemon undisturbed ticks) (p : Pool (Section Bytes) (State Bytes) Answer)
    (hp : p = (started codec store stream_id source_agent agent_id at_ jobs).run semantics
      no_daemon ticks) : (p.state.accepted.map fun a => a.2.sequence).Pairwise (· < ·) ∧
    (∀ a ∈ p.state.accepted, jobs[a.1]? = some (.continue_stream a.2)) ∧
    (∀ i frame, jobs[i]? = some (.continue_stream frame) →
      (p.answer i = some (.continued (.ok ())) → (i, frame) ∈ p.state.accepted) ∧
      ∀ err, p.answer i = some (.continued (.error err)) → ∀ f, (i, f) ∉ p.state.accepted) ∧
    (∀ now session,
      (p.state.store.get now (stream_key stream_id)).bind codec.from_slice = some session →
      session.total_bytes = (p.state.accepted.map fun a => a.2.frame_bytes).sum ∧
        session.total_bytes ≤ STREAM_MAX_TOTAL_BYTES) ∧
    ∀ i ∈ p.state.late, p.answer i ≠ some (.continued (.ok ())) := by
  have hsafe := (started_safe hcodec store stream_id source_agent agent_id at_ jobs).run
    (fun d => nomatch d) ticks hticks
  rw [← hp] at hsafe
  have hinv : Tracked codec stream_id jobs p.state := hsafe.inv
  refine ⟨hinv.ordered, hinv.called, ?_, ?_, ?_⟩
  · intro i frame hjob
    have hpost : ∀ result, p.answer i = some (.continued result) →
        Continued i frame result p.state := by
      intro result hanswer
      obtain ⟨result', heq, hcont⟩ :=
        hsafe.post_of_ret (Pool.answer_eq_some.mp hanswer) _ hjob
      rw [Answer.continued.injEq] at heq
      exact heq ▸ hcont
    exact ⟨fun h => (hpost _ h).1, fun err h => hpost _ h⟩
  · intro now session hsession
    obtain ⟨bytes, hget, hfrom⟩ := Option.bind_eq_some_iff.mp hsession
    obtain ⟨session', hfrom', -, hstep⟩ := hinv.stored bytes (TtlMap.stored_of_get hget)
    obtain rfl : session = session' := Option.some.inj (hfrom.symm.trans hfrom')
    exact ⟨hstep.total, hstep.cap⟩
  · intro i hlate hanswer
    have hret := Pool.answer_eq_some.mp hanswer
    have hthread : i < jobs.length := by
      have hlen := (List.getElem?_eq_some_iff.mp hret).1
      rw [hp, Pool.length_threads_run] at hlen
      simpa [started] using hlen
    have hpost := hsafe.post_of_ret hret jobs[i] (List.getElem?_eq_getElem hthread)
    cases hjob : jobs[i] with
    | continue_stream frame =>
      rw [hjob] at hpost
      obtain ⟨result, heq, hcont⟩ := hpost
      rw [Answer.continued.injEq] at heq
      subst heq
      exact hcont.2 hlate
    | abort_stream =>
      rw [hjob] at hpost
      cases hpost
    | end_stream =>
      rw [hjob] at hpost
      obtain ⟨session, heq⟩ := hpost
      cases heq

end Interleavings

/-! ## Two runs -/

def sampleCodec : SessionCodec StreamSession := ⟨id, some⟩

def sampleStarted (jobs : List Call) : Pool (Section StreamSession) (State StreamSession) Answer :=
  started sampleCodec .empty [1] [65] [65] ⟨0, 0⟩ jobs

def schedule_of (threads : List ℕ) : List (Tick Clocks Empty) :=
  threads.map fun i => .thread i ⟨1000000000, 1⟩

def sampleJobs : List Call :=
  [.continue_stream ⟨1, 100⟩, .continue_stream ⟨2, 50⟩, .end_stream, .continue_stream ⟨3, 10⟩]

theorem shared_stream_in_turn :
    let p := (sampleStarted sampleJobs).run semantics no_daemon
      (schedule_of [0, 0, 0, 1, 1, 1, 2, 2, 3])
    p.state.late = [3] ∧ p.answer 3 ≠ some (.continued (.ok ())) ∧
      (p.state.accepted.map fun a => a.2.sequence).Pairwise (· < ·) := by
  have h := shared_stream_in_step (fun _ => rfl : sampleCodec.Lawful) .empty [1] [65] [65] ⟨0, 0⟩
    sampleJobs (schedule_of [0, 0, 0, 1, 1, 1, 2, 2, 3]) (by decide +kernel) _ rfl
  refine ⟨by decide +kernel, ?_, h.1⟩
  exact h.2.2.2.2 3 (by decide +kernel)

/-- Two continuations with one sequence number, both of which read before either writes. -/
def doubled : Pool (Section StreamSession) (State StreamSession) Answer :=
  (sampleStarted [.continue_stream ⟨1, 100⟩, .continue_stream ⟨1, 100⟩]).run semantics no_daemon
    (schedule_of [0, 1, 0, 1, 0, 1])

/-- A continuation that reads, an abort, the write of the continuation, and another one. -/
def revived : Pool (Section StreamSession) (State StreamSession) Answer :=
  (sampleStarted [.continue_stream ⟨1, 100⟩, .abort_stream, .continue_stream ⟨2, 100⟩]).run
    semantics no_daemon (schedule_of [0, 1, 0, 0, 2, 2, 2])

/-- **Races.** The sequence number is accepted twice and the session counts the bytes of one
frame; the aborted stream is back, and a continuation that began after the abort succeeds. -/
theorem raced_continuations_accepted : doubled.answer 0 = some (.continued (.ok ())) ∧
    doubled.answer 1 = some (.continued (.ok ())) ∧
    (doubled.state.store.get 1000000001 (stream_key [1])).map StreamSession.total_bytes = some 100 ∧
    2 ∈ revived.state.late ∧ revived.answer 2 = some (.continued (.ok ())) := by
  decide +kernel

end SharedStream

end Saacp
