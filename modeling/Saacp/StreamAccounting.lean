/-
**Stream accounting**: the per-agent counts the registry keeps beside its sessions.

`Loses r r'` says that sessions left `r` and that each one took its charge along. Every operation
but a registration is of this kind, and so is the eviction inside one. What is left is the insert:
under an id that is open already the agent is charged for a session that takes another one's place.
`Bounded` holds all the same: an agent never has more sessions than it is charged for.
-/
import Saacp.StreamRegistry

set_option autoImplicit false

open ByteCodec

namespace Saacp

open Table

namespace StreamRegistry

def sessions_of (r : StreamRegistry) (agent_id : Text) : ℕ :=
  r.streams.count fun s => s.agent_id = agent_id

/-! ## The counters -/

theorem getD_insert (agent_counts : Table Text ℕ) (a a' : Text) (n : ℕ) :
    ((agent_counts.insert a n).get a').getD 0 =
      if a' = a then n else (agent_counts.get a').getD 0 := by
  rw [get_insert]
  split <;> rfl

theorem getD_release (agent_counts : Table Text ℕ) (a a' : Text) :
    ((release agent_counts a).get a').getD 0 =
      (agent_counts.get a').getD 0 - if a = a' then 1 else 0 := by
  unfold release
  by_cases ha : a = a'
  · subst ha
    split
    · rename_i hzero
      rw [get_remove, if_pos rfl, if_pos rfl, hzero]
      rfl
    · rw [getD_insert, if_pos rfl, if_pos rfl]
  · have ha' : ¬ a' = a := fun h => ha h.symm
    rw [if_neg ha, Nat.sub_zero]
    split
    · rw [get_remove, if_neg ha']
    · rw [getD_insert, if_neg ha']

/-! ## Losing sessions -/

/-- Some sessions of `r` are gone in `r'`, and each agent is charged for that many fewer. -/
structure Loses (r r' : StreamRegistry) : Prop where
  charged : ∀ a, ∃ n, r.sessions_of a = r'.sessions_of a + n ∧
    r'.agent_stream_count a = r.agent_stream_count a - n
  active : r'.active_count ≤ r.active_count

theorem Loses.refl (r : StreamRegistry) : Loses r r := ⟨fun _ => ⟨0, rfl, rfl⟩, le_refl _⟩

variable {r r' : StreamRegistry}

theorem Loses.trans {r'' : StreamRegistry} (h : Loses r r') (h' : Loses r' r'') : Loses r r'' := by
  refine ⟨fun a => ?_, le_trans h'.active h.active⟩
  obtain ⟨n, hs, hc⟩ := h.charged a
  obtain ⟨n', hs', hc'⟩ := h'.charged a
  exact ⟨n' + n, by omega, by omega⟩

theorem loses_modify (r : StreamRegistry) (id : Text) {f : StreamSession → StreamSession}
    (hf : ∀ s, (f s).agent_id = s.agent_id) :
    Loses r { r with streams := r.streams.modify id f } := by
  refine ⟨fun a => ⟨0, ?_, rfl⟩, le_of_eq (len_modify _ _ _)⟩
  unfold sessions_of
  rw [count_modify, Nat.add_zero]
  intro s _
  rw [hf]

theorem loses_remove {id : Text} {s : StreamSession} {agent_counts : Table Text ℕ}
    (h : r.streams.get id = some s) (hcounts : ∀ a, (agent_counts.get a).getD 0 =
      r.agent_stream_count a - if s.agent_id = a then 1 else 0) :
    Loses r ⟨r.streams.remove id, agent_counts⟩ := by
  refine ⟨fun a => ⟨if s.agent_id = a then 1 else 0, ?_, hcounts a⟩, len_remove_le _ _⟩
  unfold sessions_of
  rw [count_remove_of_some h]
  simp only [decide_eq_true_eq]

theorem drop_stream_loses (r : StreamRegistry) (id : Text) : Loses r (r.drop_stream id) := by
  unfold drop_stream
  split
  · exact Loses.refl r
  · rename_i s hs
    exact loses_remove hs (getD_release r.agent_counts s.agent_id)

theorem abort_stream_loses (r : StreamRegistry) (id : Text) : Loses r (r.abort_stream id) := by
  unfold abort_stream
  split
  · exact Loses.refl r
  · rename_i s hs
    apply loses_remove hs
    intro a
    rw [getD_insert]
    by_cases ha : s.agent_id = a
    · rw [if_pos ha, if_pos ha.symm, ha]
    · rw [if_neg ha, if_neg fun h => ha h.symm, Nat.sub_zero]
      rfl

theorem sweep_expired_loses (r : StreamRegistry) (now : ℚ) : Loses r (r.sweep_expired now) := by
  unfold sweep_expired
  exact List.foldlRecOn _ _ (Loses.refl r) fun r' h id _ => h.trans (drop_stream_loses r' id)

theorem validate_continuation_agent (s : StreamSession) (sequence : UInt64) (frame : ℕ)
    (now : ℚ) : (s.validate_continuation sequence frame now).1.agent_id = s.agent_id := by
  obtain ⟨err, hval⟩ | ⟨-, -, -, hval⟩ := validate_continuation_cases s sequence frame now
  all_goals rw [hval]

/-! ## Eviction -/

theorem foldl_oldest (l : List (Text × StreamSession)) (b : Text × StreamSession) :
    ∃ e ∈ b :: l, l.foldl (fun best e =>
      match best with
      | none => some e
      | some b => if e.2.started_at < b.2.started_at then some e else some b) (some b) =
        some e := by
  refine List.foldlRecOn (motive := fun best => ∃ e ∈ b :: l, best = some e) l _
    ⟨b, List.mem_cons_self, rfl⟩ ?_
  rintro _ ⟨best, hbest, rfl⟩ e he
  dsimp only
  split
  · exact ⟨e, List.mem_cons_of_mem b he, rfl⟩
  · exact ⟨best, hbest, rfl⟩

theorem oldest_cases (r : StreamRegistry) : (r.active_count = 0 ∧ r.oldest = none) ∨
      ∃ id s, r.oldest = some (id, s) ∧ r.streams.get id = some s := by
  have hlen : r.streams.entries.length = r.active_count := List.length_map _
  unfold oldest
  cases hl : r.streams.entries with
  | nil =>
    rw [hl] at hlen
    exact .inl ⟨hlen.symm, rfl⟩
  | cons e l =>
    obtain ⟨⟨id, s⟩, hmem, hfold⟩ := foldl_oldest l e
    rw [← hl] at hmem
    exact .inr ⟨id, s, hfold, mem_entries.mp hmem⟩

theorem evict_oldest_loses (r : StreamRegistry) : Loses r r.evict_oldest := by
  unfold evict_oldest
  split
  · exact Loses.refl r
  · obtain ⟨-, hnone⟩ | ⟨id, s, hold, hget⟩ := oldest_cases r
    · rw [hnone]
      exact Loses.refl r
    · rw [hold]
      exact loses_remove hget (getD_release r.agent_counts s.agent_id)

theorem active_count_evict_oldest (h : r.active_count ≤ MAX_ACTIVE_STREAMS) :
    r.evict_oldest.active_count < MAX_ACTIVE_STREAMS := by
  unfold evict_oldest
  split
  · assumption
  · rename_i hfull
    -- a full registry has an oldest session to give up
    have hpos : 0 < r.active_count := Nat.lt_of_lt_of_le (by decide) (Nat.le_of_not_lt hfull)
    obtain ⟨hzero, -⟩ | ⟨id, s, hold, hget⟩ := oldest_cases r
    · exact absurd hzero (Nat.ne_of_gt hpos)
    have hcount := count_remove_of_some hget fun _ => true
    rw [← len_eq_count, ← len_eq_count, if_pos rfl] at hcount
    rw [hold]
    unfold active_count at h ⊢
    dsimp only
    omega

/-! ## What holds of every registry, and what of an exact one -/

/-- The two caps, and no session that is not charged for. -/
structure Bounded (r : StreamRegistry) : Prop where
  charged : ∀ a, r.sessions_of a ≤ r.agent_stream_count a
  agent_cap : ∀ a, r.agent_stream_count a ≤ MAX_STREAMS_PER_AGENT
  active_cap : r.active_count ≤ MAX_ACTIVE_STREAMS

def Exact (r : StreamRegistry) : Prop := ∀ a, r.agent_stream_count a = r.sessions_of a

theorem Loses.bounded (h : Loses r r') (hr : r.Bounded) : r'.Bounded := by
  refine ⟨fun a => ?_, fun a => ?_, le_trans h.active hr.active_cap⟩
  all_goals
    obtain ⟨n, hs, hc⟩ := h.charged a
    have hcharged := hr.charged a
    have hcap := hr.agent_cap a
    omega

theorem Loses.exact (h : Loses r r') (hr : r.Exact) : r'.Exact := by
  intro a
  obtain ⟨n, hs, hc⟩ := h.charged a
  have hexact := hr a
  omega

variable {r : StreamRegistry} {session : StreamSession}

theorem agent_stream_count_insert_session (a : Text) :
    (r.insert_session session).agent_stream_count a =
      r.agent_stream_count a + if session.agent_id = a then 1 else 0 := by
  unfold insert_session
  rw [agent_stream_count, getD_insert]
  by_cases ha : session.agent_id = a
  · rw [if_pos ha, if_pos ha.symm, ha]
  · rw [if_neg ha, if_neg fun h => ha h.symm]
    rfl

theorem sessions_of_insert_session (a : Text) : (r.insert_session session).sessions_of a =
      ((r.streams.remove session.stream_id).count fun s => s.agent_id = a) +
        if session.agent_id = a then 1 else 0 := by
  unfold sessions_of insert_session
  rw [count_insert]
  simp only [decide_eq_true_eq]

theorem count_remove_le (r : StreamRegistry) (id : Text) (p : StreamSession → Bool) :
    (r.streams.remove id).count p ≤ r.streams.count p := by
  cases hid : r.streams.get id with
  | none => exact le_of_eq (count_remove_of_none hid p)
  | some s =>
    have hcount := count_remove_of_some hid p
    omega

theorem insert_session_bounded (hr : r.Bounded) (hroom : r.active_count < MAX_ACTIVE_STREAMS)
    (hcap : r.agent_stream_count session.agent_id < MAX_STREAMS_PER_AGENT) :
    (r.insert_session session).Bounded := by
  refine ⟨fun a => ?_, fun a => ?_, ?_⟩
  · -- the charge goes up by one, the sessions of the agent by one at most
    rw [sessions_of_insert_session, agent_stream_count_insert_session]
    have hle := count_remove_le r session.stream_id fun s => s.agent_id = a
    have hcharged : (r.streams.count fun s => s.agent_id = a) ≤ r.agent_stream_count a :=
      hr.charged a
    omega
  · rw [agent_stream_count_insert_session]
    by_cases ha : session.agent_id = a
    · rw [if_pos ha, ← ha]
      exact hcap
    · rw [if_neg ha]
      exact hr.agent_cap a
  · have hle := count_remove_le r session.stream_id fun _ => true
    unfold active_count at hroom
    unfold insert_session active_count
    rw [len_eq_count] at hroom
    rw [len_eq_count, count_insert, if_pos rfl]
    omega

theorem insert_session_exact (hr : r.Exact) (hnew : r.streams.get session.stream_id = none) :
    (r.insert_session session).Exact := by
  intro a
  rw [sessions_of_insert_session, agent_stream_count_insert_session,
    count_remove_of_none hnew, hr a, sessions_of]

theorem register_local_bounded (hr : r.Bounded) : (r.register_local session).1.Bounded := by
  unfold register_local
  split
  · exact hr
  · rename_i hcap
    have hloses := evict_oldest_loses r
    obtain ⟨n, -, hcount⟩ := hloses.charged session.agent_id
    apply insert_session_bounded (hloses.bounded hr) (active_count_evict_oldest hr.active_cap)
    omega

theorem register_local_exact (hr : r.Exact) (hnew : r.streams.contains session.stream_id = false) :
    (r.register_local session).1.Exact := by
  unfold register_local
  split
  · exact hr
  · -- the eviction before the insert opens no id
    apply insert_session_exact ((evict_oldest_loses r).exact hr)
    have hgone := contains_eq_false_of_le (evict_oldest_le r) hnew
    exact Option.not_isSome_iff_eq_none.mp (Bool.eq_false_iff.mp hgone)

end StreamRegistry

/-! ## Runs -/

inductive StreamCall where
  | register (session : StreamSession)
  | start_stream (stream_id source_agent agent_id : Text) (now : ℚ)
  | set_stream_token_info (stream_id token_sig_hash : Text) (token_exp : ℚ) (source_agent : Text)
      (max_action_class : UInt8)
  | validate_frame (stream_id : Text) (sequence : UInt64) (frame_bytes : ℕ) (now : ℚ)
  | continue_stream (stream_id : Text) (sequence : UInt64) (frame_bytes : ℕ) (now : ℚ)
  | close (stream_id : Text)
  | abort_stream (stream_id : Text)
  | end_stream (stream_id : Text)
  | sweep_expired (now : ℚ)

namespace StreamRegistry

def call (r : StreamRegistry) : StreamCall → StreamRegistry
  | .register session => (r.register session).1
  | .start_stream id source_agent agent_id now => (r.start_stream id source_agent agent_id now).1
  | .set_stream_token_info id hash exp source_agent class_ =>
    r.set_stream_token_info id hash exp source_agent class_
  | .validate_frame id sequence frame_bytes now => (r.validate_frame id sequence frame_bytes now).1
  | .continue_stream id sequence frame_bytes now => r.continue_stream id sequence frame_bytes now
  | .close id => (r.close id).1
  | .abort_stream id => r.abort_stream id
  | .end_stream id => (r.end_stream id).1
  | .sweep_expired now => r.sweep_expired now

def run (r : StreamRegistry) (calls : List StreamCall) : StreamRegistry := calls.foldl call r

end StreamRegistry

def StreamCall.registers : StreamCall → Option Text
  | .register session => some session.stream_id
  | .start_stream stream_id .. => some stream_id
  | _ => none

/-- A call that registers no session under an id that is open. -/
def StreamCall.Opens (c : StreamCall) (r : StreamRegistry) : Bool :=
  match c.registers with
  | some stream_id => !r.streams.contains stream_id
  | none => true

namespace StreamRegistry

def Opening (r : StreamRegistry) : List StreamCall → Bool
  | [] => true
  | c :: calls => c.Opens r && (r.call c).Opening calls

theorem call_cases (r : StreamRegistry) (c : StreamCall) :
    (∃ session, c.registers = some session.stream_id ∧ r.call c = (r.register_local session).1) ∨
      (c.registers = none ∧ Loses r (r.call c)) := by
  cases c with
  | register session => exact .inl ⟨session, rfl, rfl⟩
  | start_stream id source_agent agent_id now => exact .inl ⟨_, rfl, rfl⟩
  | set_stream_token_info id => exact .inr ⟨rfl, loses_modify r id fun _ => rfl⟩
  | validate_frame id sequence frame now =>
    refine .inr ⟨rfl, ?_⟩
    rw [call, validate_frame]
    split
    · exact Loses.refl r
    · exact loses_modify r id fun s => validate_continuation_agent s sequence frame now
  | continue_stream id sequence frame now =>
    exact .inr ⟨rfl, loses_modify r id fun s =>
      validate_continuation_agent s sequence frame now⟩
  | close id | end_stream id => exact .inr ⟨rfl, drop_stream_loses r id⟩
  | abort_stream id => exact .inr ⟨rfl, abort_stream_loses r id⟩
  | sweep_expired now => exact .inr ⟨rfl, sweep_expired_loses r now⟩

theorem new_bounded : new.Bounded := ⟨fun _ => le_refl _, fun _ => Nat.zero_le _, Nat.zero_le _⟩

variable {r : StreamRegistry}

theorem call_bounded (hr : r.Bounded) (c : StreamCall) : (r.call c).Bounded := by
  obtain ⟨session, -, hcall⟩ | ⟨-, hloses⟩ := call_cases r c
  · rw [hcall]
    exact register_local_bounded hr
  · exact hloses.bounded hr

/-- **The caps hold in every run**, and so does one half of the accounting. -/
theorem run_bounded (calls : List StreamCall) (hr : r.Bounded) : (r.run calls).Bounded := by
  exact List.foldlRecOn calls call hr fun _ hr c _ => call_bounded hr c

/-- **The caps hold** whatever ids the calls use, and no agent has more sessions than it is charged
for. -/
theorem caps_hold (calls : List StreamCall) :
    (∀ a, (new.run calls).sessions_of a ≤ (new.run calls).agent_stream_count a ∧
        (new.run calls).agent_stream_count a ≤ MAX_STREAMS_PER_AGENT) ∧
      (new.run calls).active_count ≤ MAX_ACTIVE_STREAMS := by
  have hbounded := run_bounded calls new_bounded
  exact ⟨fun a => ⟨hbounded.charged a, hbounded.agent_cap a⟩, hbounded.active_cap⟩

theorem call_exact (hr : r.Exact) {c : StreamCall} (hc : c.Opens r = true) : (r.call c).Exact := by
  obtain ⟨session, hreg, hcall⟩ | ⟨-, hloses⟩ := call_cases r c
  · rw [hcall]
    apply register_local_exact hr
    simpa [StreamCall.Opens, hreg] using hc
  · exact hloses.exact hr

theorem run_exact {calls : List StreamCall} (hr : r.Exact)
    (hcalls : r.Opening calls = true) : (r.run calls).Exact := by
  induction calls generalizing r with
  | nil => exact hr
  | cons c calls ih =>
    obtain ⟨hc, hrest⟩ := Bool.and_eq_true_iff.mp hcalls
    exact ih (call_exact hr hc) hrest

/-- **Per-agent stream accounting**: in every run that registers no session under an open id,
each agent's count is the number of its sessions and within its cap, and the registry is within
the global one. -/
theorem stream_accounting (calls : List StreamCall) (hcalls : new.Opening calls = true) :
    (∀ a, (new.run calls).agent_stream_count a = (new.run calls).sessions_of a) ∧
      (∀ a, (new.run calls).agent_stream_count a ≤ MAX_STREAMS_PER_AGENT) ∧
      (new.run calls).active_count ≤ MAX_ACTIVE_STREAMS := by
  have hbounded := run_bounded calls new_bounded
  exact ⟨run_exact (fun _ => rfl) hcalls, hbounded.agent_cap, hbounded.active_cap⟩

def sample_calls : List StreamCall :=
  [.start_stream [1] [65] [65] 0, .start_stream [2] [66] [66] 1, .start_stream [3] [65] [65] 1,
    .continue_stream [1] 1 100 2, .end_stream [1], .abort_stream [2], .sweep_expired 5]

theorem stream_accounting_sample :
    (∀ a, (new.run sample_calls).agent_stream_count a = (new.run sample_calls).sessions_of a) ∧
      (∀ a, (new.run sample_calls).agent_stream_count a ≤ MAX_STREAMS_PER_AGENT) ∧
      (new.run sample_calls).active_count ≤ MAX_ACTIVE_STREAMS :=
  stream_accounting sample_calls (by decide +kernel)

/-- A stream started twice under one id: one session, and a count of two. When the stream has
ended, the agent is still charged for one. -/
theorem restarted_stream_overcharged :
    let r := new.run [.start_stream [1] [65] [65] 0, .start_stream [1] [65] [65] 1]
    r.agent_stream_count [65] = 2 ∧ r.sessions_of [65] = 1 ∧
      (r.run [.end_stream [1]]).agent_stream_count [65] = 1 ∧
      (r.run [.end_stream [1]]).sessions_of [65] = 0 := by
  decide +kernel

end StreamRegistry

end Saacp
