/-
**The compare-and-swap path of a frame**: `validate_frame` on a shared backend.

A call reads the stored session, validates its frame on a copy, and commits the copy only if the
bytes it read are still there; otherwise it starts over, five times at most. Any operation of the
backend may also fail and then does nothing. The history is the list of swaps that succeeded; the
bytes of a session determine it, so a swap that finds its bytes finds the session it validated on.
-/
import Saacp.SharedStreams

set_option autoImplicit false

open ByteCodec Atomic

namespace Saacp

open List

abbrev TimedFrame := StreamFrame × ℚ

namespace StreamSession

def validate (s : StreamSession) (f : TimedFrame) : StreamSession × Result Unit :=
  s.validate_continuation f.1.sequence f.1.frame_bytes f.2

def replay (s : StreamSession) (frames : List TimedFrame) : StreamSession :=
  frames.foldl (fun s f => (s.validate f).1) s

/-- Each of the frames is accepted when its turn comes. -/
def Accepts (s : StreamSession) : List TimedFrame → Prop
  | [] => True
  | f :: frames => (s.validate f).2 = .ok () ∧ (s.validate f).1.Accepts frames

theorem replay_concat (s : StreamSession) (frames : List TimedFrame) (f : TimedFrame) :
    s.replay (frames ++ [f]) = ((s.replay frames).validate f).1 := by
  simp [replay]

variable {s : StreamSession} {frames : List TimedFrame}

theorem Accepts.concat {f : TimedFrame} (h : s.Accepts frames)
    (hf : ((s.replay frames).validate f).2 = .ok ()) : s.Accepts (frames ++ [f]) := by
  induction frames generalizing s with
  | nil => exact ⟨hf, trivial⟩
  | cons g frames ih => exact ⟨h.1, ih h.2 hf⟩

theorem validate_ok {f : TimedFrame} (h : (s.validate f).2 = .ok ()) :
    s.last_sequence < f.1.sequence ∧ (s.validate f).1.last_sequence = f.1.sequence ∧
      (s.validate f).1.total_bytes = s.total_bytes + f.1.frame_bytes ∧
      (s.validate f).1.total_bytes ≤ STREAM_MAX_TOTAL_BYTES := by
  unfold validate at h ⊢
  obtain ⟨err, hval⟩ | ⟨hseq, hcap, -, hval⟩ :=
    validate_continuation_cases s f.1.sequence f.1.frame_bytes f.2
  · rw [hval] at h
    cases h
  · rw [hval]
    exact ⟨hseq, rfl, rfl, hcap⟩

theorem Accepts.ordered (h : s.Accepts frames) :
    (frames.map fun f => f.1.sequence).Pairwise (· < ·) ∧
      ∀ f ∈ frames, s.last_sequence < f.1.sequence := by
  induction frames generalizing s with
  | nil => exact ⟨List.Pairwise.nil, nofun⟩
  | cons f frames ih =>
    obtain ⟨hseq, hlast, -⟩ := validate_ok h.1
    obtain ⟨hpair, hahead⟩ := ih h.2
    rw [hlast] at hahead
    constructor
    · rw [map_cons, pairwise_cons]
      refine ⟨?_, hpair⟩
      intro n hn
      obtain ⟨g, hg, rfl⟩ := mem_map.mp hn
      exact hahead g hg
    · exact forall_mem_cons.mpr ⟨hseq, fun g hg => UInt64.lt_trans hseq (hahead g hg)⟩

theorem Accepts.total (h : s.Accepts frames) : (s.replay frames).total_bytes =
        s.total_bytes + (frames.map fun f => f.1.frame_bytes).sum ∧
      (frames ≠ [] ∨ s.total_bytes ≤ STREAM_MAX_TOTAL_BYTES →
        (s.replay frames).total_bytes ≤ STREAM_MAX_TOTAL_BYTES) := by
  induction frames generalizing s with
  | nil => exact ⟨rfl, fun hcap => hcap.resolve_left (absurd rfl)⟩
  | cons f frames ih =>
    obtain ⟨-, -, htotal, hcap⟩ := validate_ok h.1
    obtain ⟨hsum, hbound⟩ := ih h.2
    refine ⟨?_, fun _ => hbound (.inr hcap)⟩
    show ((s.validate f).1.replay frames).total_bytes = _
    rw [hsum, htotal, map_cons, sum_cons, Nat.add_assoc]

end StreamSession

namespace FrameSwap

open SharedStream

def MAX_CAS_ATTEMPTS : ℕ := 5

/-- The atomic steps of a call. A swap names the frame it commits, for the history. -/
inductive Section (Bytes : Type) : Type → Type
  | get (key : Text) : Section Bytes (Except Unit (Option Bytes))
  | now_epoch_secs : Section Bytes ℚ
  | compare_and_swap (key : Text) (expected : Option Bytes) (new : Bytes) (ttl : Option ℕ)
      (frame : TimedFrame) : Section Bytes (Except Unit Bool)

structure Moment extends Clocks where
  fails : Bool

variable {Bytes : Type}

section Calls

variable (codec : SessionCodec Bytes) (stream_id : Text) (frame : StreamFrame)

def corrupt_stream (stream_id : Text) : SAACPHardDrop :=
  ⟨.StreamAbort, "Corrupt stream state for id '" ++ display stream_id ++ "'."⟩

def not_persisted (stream_id : Text) : SAACPHardDrop :=
  ⟨.StreamAbort, "Failed to persist stream state for id '" ++ display stream_id ++ "'."⟩

def contended (stream_id : Text) : SAACPHardDrop :=
  ⟨.StreamAbort, "Stream '" ++ display stream_id ++
    "' has too much concurrent write contention; frame rejected."⟩

/-- The loop of `validate_frame_backend`. A read that fails counts as no stream (`.ok().flatten()`).
-/
def attempt : ℕ → Prog (Section Bytes) (Result Unit)
  | 0 => .ret (.error (contended stream_id))
  | n + 1 =>
    .step (.get (stream_key stream_id)) fun raw =>
    match raw with
    | .error _ | .ok none => .ret (.error (StreamRegistry.no_active_stream stream_id))
    | .ok (some raw) =>
      match codec.from_slice raw with
      | none => .ret (.error (corrupt_stream stream_id))
      | some session =>
        .step .now_epoch_secs fun now =>
        match (session.validate (frame, now)).2 with
        | .error e => .ret (.error e) -- nothing to write: the session is as it was
        | .ok () =>
          .step (.compare_and_swap (stream_key stream_id) (some raw)
              (codec.to_vec (session.validate (frame, now)).1) (some stream_backend_ttl)
              (frame, now)) fun swapped =>
            match swapped with
            | .ok true => .ret (.ok ())
            | .ok false => attempt n -- lost the race
            | .error _ => .ret (.error (not_persisted stream_id))

def validate_frame_backend : Prog (Section Bytes) (Result Unit) :=
  attempt codec stream_id frame MAX_CAS_ATTEMPTS

end Calls

/-! ## The store and its history -/

structure Swap where
  call : ℕ
  frame : TimedFrame

structure State (Bytes : Type) where
  store : TtlMap Text Bytes
  swaps : List Swap

section Semantics

variable [DecidableEq Bytes]

def exec (tid : ℕ) {β : Type} (act : Section Bytes β) (at_ : Moment) (s : State Bytes) :
    State Bytes × β :=
  match act with
  | .get key => (s, if at_.fails then .error () else .ok (s.store.get at_.instant key))
  | .now_epoch_secs => (s, at_.now)
  | .compare_and_swap key expected new ttl frame =>
    if at_.fails then (s, .error ())
    else
      let r := s.store.compare_and_swap at_.instant key expected new ttl
      ({ store := r.1, swaps := if r.2 then s.swaps ++ [⟨tid, frame⟩] else s.swaps }, .ok r.2)

def semantics : Semantics (Section Bytes) Moment (State Bytes) where
  exec := exec

theorem exec_compare_and_swap_cases (tid : ℕ) (key : Text) (expected : Option Bytes)
    (new : Bytes) (ttl : Option ℕ) (frame : TimedFrame) (at_ : Moment) (s : State Bytes) :
    (s.store.get at_.instant key = expected ∧
      exec tid (.compare_and_swap key expected new ttl frame) at_ s =
        (⟨s.store.set at_.instant key new ttl, s.swaps ++ [⟨tid, frame⟩]⟩, .ok true)) ∨
      ∃ answer, answer ≠ .ok true ∧
        exec tid (.compare_and_swap key expected new ttl frame) at_ s = (s, answer) := by
  by_cases hfails : at_.fails = true
  · exact .inr ⟨.error (), by rintro ⟨⟩, if_pos hfails⟩
  · unfold exec
    simp only [if_neg hfails]
    obtain ⟨hget, hswap⟩ | hswap := s.store.compare_and_swap_cases at_.instant key expected new ttl
    · exact .inl ⟨hget, by rw [hswap]; rfl⟩
    · refine .inr ⟨.ok false, by rintro ⟨⟩, ?_⟩
      rw [hswap]
      rfl

theorem exec_cases (tid : ℕ) {β : Type} (act : Section Bytes β) (at_ : Moment) (s : State Bytes) :
    (exec tid act at_ s).1 = s ∨
      ∃ frame, (exec tid act at_ s).1.swaps = s.swaps ++ [⟨tid, frame⟩] := by
  cases act with
  | get | now_epoch_secs => exact .inl rfl
  | compare_and_swap key expected new ttl frame =>
    obtain ⟨-, hexec⟩ | ⟨_, -, hexec⟩ :=
      exec_compare_and_swap_cases tid key expected new ttl frame at_ s
    · exact .inr ⟨frame, by rw [hexec]⟩
    · exact .inl (by rw [hexec])

end Semantics

/-! ## The invariant -/

def State.frames {Bytes : Type} (s : State Bytes) : List TimedFrame := s.swaps.map Swap.frame

def State.swapped {Bytes : Type} (s : State Bytes) (i : ℕ) : ℕ :=
  s.swaps.countP fun w => w.call == i

section Run

variable (codec : SessionCodec Bytes) (stream_id : Text) (store : TtlMap Text Bytes)
  (jobs : List StreamFrame)

def first_session : Option StreamSession :=
  (store.stored (stream_key stream_id)).bind codec.from_slice

/-- **The invariant.** At most one swap a call, each accepted by what was there; the stored session
is what they make of the first one. -/
structure Tracked (s : State Bytes) : Prop where
  called : ∀ w ∈ s.swaps, jobs[w.call]? = some w.frame.1
  once : ∀ i, s.swapped i ≤ 1
  stored : (s.store.stored (stream_key stream_id)).bind codec.from_slice =
    (first_session codec stream_id store).map (·.replay s.frames)
  accepted : s.swaps ≠ [] →
    ∃ session, first_session codec stream_id store = some session ∧ session.Accepts s.frames
  others : ∀ k, k ≠ stream_key stream_id → s.store.entries.get k = store.entries.get k

def protocol : Protocol (State Bytes) where
  inv := Tracked codec stream_id store jobs
  rely i s s' := s'.swapped i = s.swapped i
  rely_refl _ _ := rfl
  rely_trans h h' := h'.trans h

variable {codec stream_id store jobs} {tid : ℕ}

theorem swapped_stable (n : ℕ) :
    (protocol codec stream_id store jobs).Stable tid fun s => s.swapped tid = n :=
  fun _ _ hrely h => hrely.trans h

theorem swapped_concat (s : State Bytes) (store' : TtlMap Text Bytes) (frame : TimedFrame) (i : ℕ) :
    (State.mk store' (s.swaps ++ [⟨tid, frame⟩])).swapped i =
      s.swapped i + if tid = i then 1 else 0 := by
  simp only [State.swapped, countP_append, countP_singleton, beq_iff_eq]

theorem frames_concat (s : State Bytes) (store' : TtlMap Text Bytes) (frame : TimedFrame) :
    (State.mk store' (s.swaps ++ [⟨tid, frame⟩])).frames = s.frames ++ [frame] := by
  simp only [State.frames, map_append, map_cons, map_nil]

theorem swapped_eq_count (s : State Bytes) (i : ℕ) :
    s.swapped i = (s.swaps.map Swap.call).count i := by
  rw [State.swapped, List.count, countP_map]
  rfl

variable {s : State Bytes}

/-- **A swap that goes through** finds its bytes, so the session it was validated on. -/
theorem swap_keeps (hcodec : codec.Lawful) (h : Tracked codec stream_id store jobs s) {raw : Bytes}
    {session : StreamSession} {frame : StreamFrame} {now : ℚ} (instant : ℕ) (ttl : Option ℕ)
    (hjob : jobs[tid]? = some frame) (hnone : s.swapped tid = 0)
    (hfound : s.store.get instant (stream_key stream_id) = some raw)
    (hsession : codec.from_slice raw = some session)
    (hok : (session.validate (frame, now)).2 = .ok ()) :
    Tracked codec stream_id store jobs ⟨s.store.set instant (stream_key stream_id)
        (codec.to_vec (session.validate (frame, now)).1) ttl,
        s.swaps ++ [⟨tid, (frame, now)⟩]⟩ := by
  have hstored := h.stored
  rw [TtlMap.stored_of_get hfound, Option.bind_some, hsession] at hstored
  obtain ⟨first, hfirst, hreplay⟩ := Option.map_eq_some_iff.mp hstored.symm
  have haccepts : first.Accepts s.frames := by
    by_cases hempty : s.swaps = []
    · rw [State.frames, hempty]
      trivial
    · obtain ⟨first', hfirst', hacc⟩ := h.accepted hempty
      obtain rfl : first = first' := Option.some.inj (hfirst.symm.trans hfirst')
      exact hacc
  constructor
  · exact forall_mem_append.mpr ⟨h.called, forall_mem_singleton.mpr hjob⟩
  · intro i
    rw [swapped_concat]
    split
    · rename_i hi
      rw [← hi, hnone]
    · exact h.once i
  · rw [frames_concat, TtlMap.stored_set_self, Option.bind_some, hcodec, hfirst, Option.map_some,
      StreamSession.replay_concat, hreplay]
  · intro _
    refine ⟨first, hfirst, ?_⟩
    rw [frames_concat]
    refine haccepts.concat ?_
    rw [hreplay]
    exact hok
  · intro k hk
    rw [← h.others k hk]
    simp only [TtlMap.set, Table.get_insert, if_neg hk]

def Answered (tid : ℕ) (result : Result Unit) (s : State Bytes) : Prop :=
  s.swapped tid = if result = .ok () then 1 else 0

theorem answered_stable (result : Result Unit) :
    (protocol codec stream_id store jobs).Stable tid (Answered tid result) :=
  fun _ _ hrely h => hrely.trans h

variable [DecidableEq Bytes]

theorem refused_safe {e : SAACPHardDrop} (hs : s.swapped tid = 0) :
    (Prog.ret (.error e) : Prog (Section Bytes) (Result Unit)).Safe semantics
      (.any : Condition _ _ _ Empty) (protocol codec stream_id store jobs) tid (Answered tid) s :=
  Prog.Safe.ret_of_stable (answered_stable _) (fun _ h => h) hs

theorem attempt_safe (hcodec : codec.Lawful) {frame : StreamFrame}
    (hjob : jobs[tid]? = some frame) (n : ℕ) (hs : s.swapped tid = 0) :
    (attempt codec stream_id frame n).Safe semantics (.any : Condition _ _ _ Empty)
      (protocol codec stream_id store jobs) tid (Answered tid) s := by
  induction n generalizing s with
  | zero => exact refused_safe hs
  | succ n ih =>
    unfold attempt
    refine Prog.Safe.step_of_stable (swapped_stable 0) ?_ ?_ hs
    · intro s' at_ hinv _
      exact ⟨hinv, fun _ => rfl⟩
    intro raw s₁ hs₁
    rcases raw with _ | _ | raw
    · exact refused_safe hs₁
    · exact refused_safe hs₁
    dsimp only
    cases hsession : codec.from_slice raw with
    | none => exact refused_safe hs₁
    | some session =>
      refine Prog.Safe.step_of_stable (swapped_stable 0) ?_ ?_ hs₁
      · intro s' at_ hinv _
        exact ⟨hinv, fun _ => rfl⟩
      intro now s₂ hs₂
      cases hok : (session.validate (frame, now)).2 with
      | error e => exact refused_safe hs₂
      | ok u =>
        -- the swap: it goes through once and ends the call, or changes nothing
        refine Prog.Safe.step_to
          (fun answer s => s.swapped tid = if answer = .ok true then 1 else 0)
          (swapped_stable 0) ?_ ?_ hs₂
        · intro s' at_ hinv hnone _
          obtain ⟨hfound, hexec⟩ | ⟨answer, hne, hexec⟩ :=
            exec_compare_and_swap_cases tid (stream_key stream_id) (some raw)
              (codec.to_vec (session.validate (frame, now)).1) (some stream_backend_ttl)
              (frame, now) at_ s'
          · simp only [semantics, hexec]
            refine ⟨swap_keeps hcodec hinv at_.instant _ hjob hnone hfound hsession hok, ?_, ?_⟩
            · intro j hj
              show State.swapped _ j = _
              rw [swapped_concat, if_neg (Ne.symm hj), Nat.add_zero]
            · rw [swapped_concat, hnone, if_pos rfl, if_pos trivial]
          · simp only [semantics, hexec]
            exact ⟨hinv, fun _ _ => rfl, by rw [if_neg hne, hnone]⟩
        intro swapped s₃ hs₃
        rcases swapped with _ | _ | _
        · exact refused_safe hs₃
        · exact ih hs₃
        · exact Prog.Safe.ret_of_stable (answered_stable _) (fun _ h => h) hs₃

end Run

/-! ## All interleavings -/

section Interleavings

variable [DecidableEq Bytes] (codec : SessionCodec Bytes)

def calls (store : TtlMap Text Bytes) (stream_id : Text) (jobs : List StreamFrame) :
    Pool (Section Bytes) (State Bytes) (Result Unit) where
  threads := jobs.map (validate_frame_backend codec stream_id)
  state := ⟨store, []⟩

def no_daemon : Empty → State Bytes → State Bytes := fun d _ => nomatch d

variable {codec}

/-- **The frame path is linearizable.** Any number of `validate_frame` calls on one stream, in
any interleaving, on a store that may fail any operation:

* a call has swapped at most once, and a call that has returned has swapped exactly if it
  returned `Ok`;
* the stored session is what `validate_continuation`, folded over the committed frames in the
  order of the swaps, makes of the session found at the start, and accepts each of them;
* so sequence numbers increase strictly and the bytes add up, within the cap;
* every other step, hence every step of a call that returns `Err`, leaves the store as it is. -/
theorem frame_path_linearizable (hcodec : codec.Lawful) (store : TtlMap Text Bytes)
    (stream_id : Text) (jobs : List StreamFrame) (ticks : List (Tick Moment Empty))
    (p : Pool (Section Bytes) (State Bytes) (Result Unit))
    (hp : p = (calls codec store stream_id jobs).run semantics no_daemon ticks) :
    (p.state.swaps.map Swap.call).Nodup ∧
    (∀ w ∈ p.state.swaps, jobs[w.call]? = some w.frame.1) ∧
    (∀ i result, p.answer i = some result → (result = .ok () ↔ i ∈ p.state.swaps.map Swap.call)) ∧
    (p.state.store.stored (stream_key stream_id)).bind codec.from_slice =
      (first_session codec stream_id store).map (·.replay p.state.frames) ∧
    (first_session codec stream_id store = none → p.state.swaps = []) ∧
    (∀ session, first_session codec stream_id store = some session →
      session.Accepts p.state.frames ∧
      (p.state.frames.map fun f => f.1.sequence).Pairwise (· < ·) ∧
      (session.replay p.state.frames).total_bytes =
        session.total_bytes + (p.state.frames.map fun f => f.1.frame_bytes).sum ∧
      (session.total_bytes ≤ STREAM_MAX_TOTAL_BYTES →
        (session.replay p.state.frames).total_bytes ≤ STREAM_MAX_TOTAL_BYTES)) ∧
    (∀ k, k ≠ stream_key stream_id → p.state.store.entries.get k = store.entries.get k) ∧
    ∀ i at_, (p.tick semantics no_daemon (.thread i at_)).state = p.state ∨
      ∃ frame, (p.tick semantics no_daemon (.thread i at_)).state.swaps =
        p.state.swaps ++ [⟨i, frame⟩] := by
  have hdaemon : DaemonSafe no_daemon (.any : Condition (Section Bytes) Moment _ _)
      (protocol codec stream_id store jobs) := fun d => nomatch d
  have hstart : (calls codec store stream_id jobs).Safe semantics (.any : Condition _ _ _ Empty)
      (protocol codec stream_id store jobs) Answered := by
    refine ⟨⟨nofun, fun _ => Nat.zero_le _, ?_, absurd rfl, fun _ _ => rfl⟩, ?_⟩
    · show first_session codec stream_id store = _
      exact Option.map_id'.symm
    · intro i q hq
      simp only [calls, List.getElem?_map] at hq
      obtain ⟨frame, hjob, rfl⟩ := Option.map_eq_some_iff.mp hq
      exact attempt_safe hcodec hjob _ rfl
  have hsafe := hstart.run hdaemon ticks (Pool.respects_any semantics no_daemon _ ticks)
  rw [← hp] at hsafe
  have hinv : Tracked codec stream_id store jobs p.state := hsafe.inv
  have hmem : ∀ i, i ∈ p.state.swaps.map Swap.call ↔ p.state.swapped i = 1 := by
    intro i
    have hle := hinv.once i
    rw [← count_pos_iff, ← swapped_eq_count]
    omega
  refine ⟨?_, hinv.called, ?_, hinv.stored, ?_, ?_, hinv.others, ?_⟩
  · rw [nodup_iff_count_le_one]
    intro i
    rw [← swapped_eq_count]
    exact hinv.once i
  · intro i result hanswer
    have hpost : p.state.swapped i = if result = .ok () then 1 else 0 :=
      hsafe.post_of_ret (Pool.answer_eq_some.mp hanswer)
    rw [hmem, hpost]
    split
    · rename_i hok
      simp [hok]
    · rename_i hne
      simp [hne]
  · intro hnone
    by_contra hne
    obtain ⟨session, hsome, -⟩ := hinv.accepted hne
    rw [hnone] at hsome
    cases hsome
  · intro session hsession
    have haccepts : session.Accepts p.state.frames := by
      by_cases hempty : p.state.swaps = []
      · rw [State.frames, hempty]
        trivial
      · obtain ⟨session', hsession', hacc⟩ := hinv.accepted hempty
        obtain rfl : session = session' := Option.some.inj (hsession.symm.trans hsession')
        exact hacc
    exact ⟨haccepts, haccepts.ordered.1, haccepts.total.1, fun hcap => haccepts.total.2 (.inr hcap)⟩
  · intro i at_
    obtain hsame | ⟨γ, act, k, -, hmoved⟩ := Pool.tick_thread_cases semantics no_daemon p i at_
    · exact .inl (by rw [hsame])
    · rw [hmoved]
      exact exec_cases i act at_ p.state

/-- Two calls with one sequence number on a fresh stream, both of which read before either
swaps: the second swap fails, and its call finds the frame taken. -/
theorem frame_path_raced :
    let p := (calls sampleCodec (TtlMap.empty.set 0 (stream_key [1])
      (StreamSession.new [1] [65] 0 0) none) [1] [⟨1, 100⟩, ⟨1, 100⟩]).run semantics no_daemon
        ([0, 1, 0, 1, 0, 1, 1, 1].map fun i => .thread i ⟨⟨1, 1⟩, false⟩)
    p.answer 0 = some (.ok ()) ∧ p.answer 1 ≠ some (.ok ()) ∧
      (p.state.swaps.map Swap.call).Nodup ∧ p.state.frames = [(⟨1, 100⟩, 1)] := by
  have h := frame_path_linearizable (fun _ => rfl : sampleCodec.Lawful)
    (TtlMap.empty.set 0 (stream_key [1]) (StreamSession.new [1] [65] 0 0) none) [1]
    [⟨1, 100⟩, ⟨1, 100⟩] ([0, 1, 0, 1, 0, 1, 1, 1].map fun i => .thread i ⟨⟨1, 1⟩, false⟩) _ rfl
  exact ⟨by decide +kernel, by decide +kernel, h.1, by decide +kernel⟩

end Interleavings

end FrameSwap

end Saacp
