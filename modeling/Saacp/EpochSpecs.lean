/-
What each operation of the session epoch manager does when it is **run alone**, from its
first lock scope to its last.

There is one lemma for each operation, and the files that follow use these and never unfold
a program: an operation either leaves the tables as they were, or leaves behind a table
given in closed form. `Call` then collects the operations into one type, so that a run of the
manager is a list of calls, each with the stream of instants its scopes read.
-/
import Saacp.EpochManager

set_option autoImplicit false

open ByteCodec Atomic

namespace Saacp

open EpochTables Option Table

/-- What the clock shows when a call reads it for the `n`-th time. -/
abbrev Clock := ℕ → Instant

def perform (c : Crypto) {α : Type} (p : Prog Section α) (clk : Clock) (t : EpochTables) :
    EpochTables × α := (p.run (sections c) clk t).2

section

variable (c : Crypto) (cfg : ManagerConfig) (schemas : SchemaRegistry) (sid : SessionId)
  (clk : Clock) (t : EpochTables) {eid : UInt32}

theorem perform_step {α β : Type} (act : Section β) (k : β → Prog Section α) :
    perform c (.step act k) clk t =
      perform c (k (exec c act (clk 0) t).2) (fun n => clk (n + 1)) (exec c act (clk 0) t).1 := rfl

theorem perform_bind {α β : Type} (p : Prog Section α) (f : α → Prog Section β) :
    perform c (p.bind f) clk t = perform c (f (perform c p clk t).2)
      (p.run (sections c) clk t).1 (perform c p clk t).1 := by
  unfold perform
  rw [Prog.run_bind]

theorem perform_map {α β : Type} (f : α → β) (p : Prog Section α) :
    perform c (p.map f) clk t = ((perform c p clk t).1, f (perform c p clk t).2) := by
  unfold perform
  rw [Prog.run_map]

/-! ## Reading an epoch after a change to the session table -/

theorem EpochTables.epoch_eq {t : EpochTables} {sid : SessionId} {e : SessionEpoch} :
    t.epoch sid eid = some e ↔
      ∃ epochs, t.sessions.get sid = some epochs ∧ epochs.get eid = some e := by
  unfold epoch
  rw [bind_eq_some_iff]

theorem EpochTables.modify_epoch_congr {t : EpochTables} {sid : SessionId}
    {f g : SessionEpoch → SessionEpoch} (h : ∀ e, t.epoch sid eid = some e → f e = g e) :
    t.modify_epoch sid eid f = t.modify_epoch sid eid g := by
  unfold modify_epoch
  rw [modify_congr fun epochs hs => modify_congr fun e he =>
    h e (epoch_eq.mpr ⟨epochs, hs, he⟩)]

theorem EpochTables.modify_epoch_self {t : EpochTables} {sid : SessionId}
    {f : SessionEpoch → SessionEpoch} (h : ∀ e, t.epoch sid eid = some e → f e = e) :
    t.modify_epoch sid eid f = t := by
  unfold modify_epoch
  rw [modify_eq_self fun epochs hs => modify_eq_self fun e he =>
    h e (epoch_eq.mpr ⟨epochs, hs, he⟩)]

theorem EpochTables.modify_epoch_of_none {t : EpochTables} {sid : SessionId}
    (h : t.epoch sid eid = none) (f : SessionEpoch → SessionEpoch) :
    t.modify_epoch sid eid f = t := by
  apply modify_epoch_self
  intro e he
  rw [h] at he
  cases he

theorem EpochTables.epoch_modify_epoch (t : EpochTables) (sid sid' : SessionId)
    (eid eid' : UInt32) (f : SessionEpoch → SessionEpoch) :
    (t.modify_epoch sid eid f).epoch sid' eid' =
      if sid' = sid ∧ eid' = eid then (t.epoch sid eid).map f else t.epoch sid' eid' := by
  unfold epoch modify_epoch
  dsimp only
  rw [get_modify]
  by_cases hsid : sid' = sid
  · rw [if_pos hsid, hsid]
    cases t.sessions.get sid with
    | none => simp
    | some epochs =>
      simp only [map_some, bind_some, get_modify, true_and]
  · rw [if_neg hsid, if_neg fun h => hsid h.1]

/-! ## Creating and destroying sessions -/

def EpochTables.created (t : EpochTables) (sid : SessionId) (secret : Key)
    (packet_threshold : UInt64) (time_threshold_secs : Secs) (suite_hex : String)
    (created_at noted_at : Instant) : EpochTables where
  sessions := t.sessions.insert sid (Table.empty.insert 0
    (SessionEpoch.new sid 0 (derive_epoch_key c secret sid 0 none) packet_threshold
      time_threshold_secs created_at))
  metas := t.metas.insert sid ⟨secret, 0, packet_threshold, time_threshold_secs, suite_hex,
    noted_at, false⟩
  grace := t.grace.insert sid Table.empty

theorem create_session_cases (session_secret : Key) (packet_threshold : UInt64)
    (time_threshold_secs : Secs) (tx : Option Key) :
    let answer := perform c (create_session c cfg sid session_secret packet_threshold
      time_threshold_secs tx) clk t
    (∃ e, answer = (t, .error e)) ∨
      t.sessions.get sid = none ∧ t.sessions.len < cfg.session_cap ∧ ∃ suite_hex t0 t1, answer =
          (t.created c sid (bound_secret c session_secret tx) packet_threshold
            time_threshold_secs suite_hex t0 t1, .ok 0) := by
  unfold create_session
  simp only [perform_step, exec]
  unfold open_session
  by_cases hdup : t.sessions.contains sid = true
  · rw [if_pos hdup]
    exact Or.inl ⟨_, rfl⟩
  rw [if_neg hdup]
  by_cases hcap : t.sessions.len ≥ cfg.session_cap
  · rw [if_pos hcap]
    exact Or.inl ⟨_, rfl⟩
  rw [if_neg hcap]
  refine Or.inr ⟨?_, Nat.not_le.mp hcap, _, _, _, rfl⟩
  unfold Table.contains at hdup
  rwa [Bool.not_eq_true, isSome_eq_false_iff, isNone_iff_eq_none] at hdup

def EpochTables.without (t : EpochTables) (sid : SessionId) : EpochTables :=
  ⟨t.sessions.remove sid, t.metas.remove sid, t.grace.remove sid⟩

theorem reap_idle_sessions_keeps {P : EpochTables → Prop} (hkeep : ∀ t sid, P t → P (t.without sid))
    (ht : P t) : P (perform c (reap_idle_sessions cfg) clk t).1 := by
  unfold reap_idle_sessions
  simp only [perform_step, perform_map, exec]
  refine Prog.run_all (sections c) _ ?_ _ _ ht
  intro p hp clk' t' ht'
  obtain ⟨sid', -, rfl⟩ := List.mem_map.mp hp
  exact hkeep t' sid' ht'

/-! ## Rotation -/

def EpochTables.rotated (t : EpochTables) (sid : SessionId) (m : SessionMeta) (prev_key : Key)
    (created_at noted_at : Instant) : EpochTables :=
  let new_id := m.current_epoch + 1
  let root := next_root c cfg.root_ratchet m.secret prev_key sid new_id
  let fresh := SessionEpoch.new sid new_id (derive_epoch_key c root sid new_id (some prev_key))
    m.packet_threshold m.time_threshold_secs created_at
  let eids := ((t.grace.get sid).getD Table.empty).insert m.current_epoch noted_at
  { sessions := (t.sessions.modify sid fun epochs => epochs.insert new_id fresh).modify sid
      fun epochs => epochs.modify m.current_epoch fun e => e.enter_grace_period.destroy
    metas := t.metas.modify sid fun m =>
      { m with
        current_epoch := new_id
        secret := (if cfg.root_ratchet then some root else none).getD m.secret }
    grace := t.grace.insert sid eids }

theorem rotation_key_ok {t : EpochTables} {sid : SessionId} {current_id : UInt32} {key : Key}
    (h : t.rotation_key sid current_id = .ok key) :
    ∃ epochs e, t.sessions.get sid = some epochs ∧ epochs.get current_id = some e ∧
      e.destroyed = false ∧ e.key = key := by
  unfold rotation_key at h
  split at h
  · cases h
  rename_i epochs hs
  split at h
  · cases h
  rename_i e he
  unfold SessionEpoch.traffic_key at h
  split at h
  · cases h
  rename_i hlive
  cases h
  exact ⟨epochs, e, hs, he, Bool.eq_false_iff.mpr hlive, rfl⟩

theorem EpochTables.epoch_rotated {t : EpochTables} {sid : SessionId} {m : SessionMeta}
    {e : SessionEpoch} (he : t.epoch sid m.current_epoch = some e)
    (hmax : m.current_epoch ≠ 4294967295) (prev_key : Key) (t0 t1 : Instant) (eid : UInt32) :
    (t.rotated c cfg sid m prev_key t0 t1).epoch sid eid =
      if eid = m.current_epoch then some e.enter_grace_period.destroy
      else if eid = m.current_epoch + 1 then
        some (SessionEpoch.new sid (m.current_epoch + 1) (derive_epoch_key c
            (next_root c cfg.root_ratchet m.secret prev_key sid (m.current_epoch + 1)) sid
            (m.current_epoch + 1) (some prev_key)) m.packet_threshold m.time_threshold_secs t0)
      else t.epoch sid eid := by
  obtain ⟨epochs, hs, hcur⟩ := epoch_eq.mp he
  have hne : m.current_epoch ≠ m.current_epoch + 1 := UInt32.ne_of_lt (UInt32.lt_add_one hmax)
  unfold epoch rotated
  simp only [get_modify_self, hs, map_some, bind_some, get_modify, get_insert, if_neg hne, hcur]

theorem EpochTables.meta_rotated {t : EpochTables} {sid : SessionId} {m : SessionMeta}
    (hm : t.metas.get sid = some m) (prev_key : Key) (t0 t1 : Instant) :
    (t.rotated c cfg sid m prev_key t0 t1).metas.get sid = some
      { m with
        current_epoch := m.current_epoch + 1
        secret := next_root c cfg.root_ratchet m.secret prev_key sid (m.current_epoch + 1) } := by
  unfold rotated
  rw [get_modify_self, hm, map_some]
  -- without the ratchet the stored root is left as it is
  cases hr : cfg.root_ratchet <;> rfl

/-- A rotation of `sid` to epoch `n` was carried out, and left `t'`. -/
def EpochTables.RotatesTo (t : EpochTables) (sid : SessionId) (n : UInt32) (t' : EpochTables) :
    Prop :=
  ∃ m e t0 t1, t.metas.get sid = some m ∧ t.epoch sid m.current_epoch = some e ∧
    e.destroyed = false ∧ m.current_epoch ≠ 4294967295 ∧ n = m.current_epoch + 1 ∧
    t' = t.rotated c cfg sid m e.key t0 t1

/-- **Rotation, alone**: refused without a trace, or carried out. -/
theorem rotate_epoch_cases : (∃ e, perform c (rotate_epoch c cfg sid) clk t = (t, .error e)) ∨
      ∃ n t', t.RotatesTo c cfg sid n t' ∧
        perform c (rotate_epoch c cfg sid) clk t = (t', .ok n) := by
  unfold rotate_epoch
  simp only [perform_step, exec]
  cases hm : t.metas.get sid with
  | none =>
    rw [rotation_meta, hm]
    exact Or.inl ⟨_, rfl⟩
  | some m =>
  rw [rotation_meta, hm]
  simp only [perform_step, exec]
  cases hkey : t.rotation_key sid m.current_epoch with
  | error e => exact Or.inl ⟨e, rfl⟩
  | ok prev_key =>
  obtain ⟨epochs, e, hs, he, hlive, rfl⟩ := rotation_key_ok hkey
  by_cases hmax : m.current_epoch = 4294967295
  · simp only [checked_succ, hmax, if_true]
    exact Or.inl ⟨_, rfl⟩
  refine Or.inr ⟨_, _, ⟨m, e, clk 2, clk 5, hm, epoch_eq.mpr ⟨epochs, hs, he⟩, hlive,
    hmax, rfl, rfl⟩, ?_⟩
  simp only [checked_succ, hmax, if_false, perform_step, exec, insert_epoch, hs]
  rfl

theorem check_and_rotate_cases : perform c (check_and_rotate c cfg sid) clk t = (t, none) ∨
      ∃ n t', t.RotatesTo c cfg sid n t' ∧
        perform c (check_and_rotate c cfg sid) clk t = (t', some n) := by
  unfold check_and_rotate
  simp only [perform_step, exec]
  cases hm : t.metas.get sid with
  | none => exact Or.inl rfl
  | some m =>
  simp only [map_some, perform_step, exec]
  rcases t.with_epoch sid m.current_epoch fun e => e.should_rotate (clk (0 + 1)) with
    _ | _ | _
  · exact Or.inl rfl
  · exact Or.inl rfl
  · dsimp only
    rw [perform_map]
    rcases rotate_epoch_cases c cfg sid (fun n => clk (n + 1 + 1)) t with ⟨e, h⟩ | ⟨n, t', hrot, h⟩
    · rw [h]
      exact Or.inl rfl
    · rw [h]
      exact Or.inr ⟨n, t', hrot, rfl⟩

/-! ## Expiry -/

def EpochTables.drop_epoch (t : EpochTables) (p : SessionId × UInt32) : EpochTables :=
  { t with
    sessions := t.sessions.modify p.1 fun epochs => epochs.remove p.2
    grace := t.grace.modify p.1 fun eids => eids.remove p.2 }

theorem mem_expired_epochs {t : EpochTables} {grace : Secs} {now : Instant}
    {p : SessionId × UInt32} (hp : p ∈ t.expired_epochs grace now) :
    ∃ eids, t.grace.get p.1 = some eids ∧ (eids.get p.2).isSome := by
  unfold expired_epochs at hp
  obtain ⟨⟨sid, eids⟩, hsid, hp⟩ := List.mem_flatMap.mp hp
  obtain ⟨⟨eid, since⟩, heid, rfl⟩ := List.mem_map.mp hp
  have hmem := (List.mem_filter.mp heid).1
  exact ⟨eids, mem_entries.mp hsid, isSome_iff_exists.mpr ⟨since, mem_entries.mp hmem⟩⟩

theorem expire_old_epochs_keeps {P : EpochTables → Prop} (grace_seconds : Option Secs)
    (hkeep : ∀ t' p eids, t.grace.get p.1 = some eids → (eids.get p.2).isSome = true → P t' →
      P (t'.drop_epoch p)) (ht : P t) :
    P (perform c (expire_old_epochs grace_seconds) clk t).1 := by
  unfold expire_old_epochs
  simp only [perform_step, perform_map, exec]
  refine Prog.run_all (sections c) _ ?_ _ _ ht
  intro q hq clk' t' ht'
  obtain ⟨p, hp, rfl⟩ := List.mem_map.mp hq
  obtain ⟨eids, hget, hsome⟩ := mem_expired_epochs hp
  exact hkeep t' p eids hget hsome ht'

/-! ## Receiving -/

structure Authentic (t : EpochTables) (buffer : List UInt8) (h : FrameHeader)
    (plaintext : List UInt8) (e : SessionEpoch) : Prop where
  decoded : decode_header buffer = .ok h
  stored : t.epoch h.session_id h.epoch_id = some e
  live : e.destroyed = false
  admitted : (e.replay_window.peek h.psn).1 = true
  opened : c.aes_gcm_decrypt e.key (derive_iv c e.key h.epoch_id h.psn)
    (h.ciphertext ++ h.auth_tag) h.header = some plaintext

/-- What authentication decides about a decoded frame, given the stored epoch. -/
def authenticated (h : FrameHeader) (stored : Option SessionEpoch) :
    Result (FrameHeader × Key × List UInt8) :=
  match stored with
  | none => .error (epoch_expired h "unknown or destroyed")
  | some e =>
    if e.destroyed then .error (epoch_expired h "unknown or destroyed")
    else
      match e.replay_window.peek h.psn with
      | (false, rw_reason) => .error (psn_rejection h.psn h.epoch_id rw_reason)
      | (true, _) =>
        match c.aes_gcm_decrypt e.key (derive_iv c e.key h.epoch_id h.psn)
          (h.ciphertext ++ h.auth_tag) h.header with
        | none => .error ⟨.InvalidSignature, "MEASC AES-GCM auth failed — tampering or replay"⟩
        | some plaintext => .ok (h, e.key, plaintext)

/-- **Authentication, alone**: it reads one epoch, three times, and writes nothing. -/
theorem perform_authenticate (buffer : List UInt8) : perform c (authenticate c buffer) clk t =
      (t, match decode_header buffer with
        | .error e => .error e
        | .ok h => authenticated c h (t.epoch h.session_id h.epoch_id)) := by
  unfold authenticate
  cases decode_header buffer with
  | error e => rfl
  | ok h =>
  cases hst : t.epoch h.session_id h.epoch_id with
  | none => simp only [perform_step, exec, with_epoch, hst, authenticated]; rfl
  | some e =>
  cases hdead : e.destroyed with
  | true =>
    simp only [perform_step, exec, with_epoch, hst, authenticated, map_some,
      hdead, Bool.not_true, if_true]
    rfl
  | false =>
  rcases hpeek : e.replay_window.peek h.psn with ⟨_ | _, reason⟩
  · simp only [perform_step, exec, with_epoch, hst, authenticated, map_some,
      hdead, Bool.not_false, Bool.false_eq_true, if_false, hpeek]
    rfl
  simp only [perform_step, exec, with_epoch, hst, authenticated, map_some,
    hdead, Bool.not_false, Bool.false_eq_true, if_false, hpeek, SessionEpoch.traffic_key]
  cases c.aes_gcm_decrypt e.key (derive_iv c e.key h.epoch_id h.psn)
    (h.ciphertext ++ h.auth_tag) h.header <;> rfl

theorem authenticated_ok_iff {h h' : FrameHeader} {stored : Option SessionEpoch} {key : Key}
    {plaintext : List UInt8} :
    authenticated c h stored = .ok (h', key, plaintext) ↔
      ∃ e, stored = some e ∧ h' = h ∧ key = e.key ∧ e.destroyed = false ∧
        (e.replay_window.peek h.psn).1 = true ∧
        c.aes_gcm_decrypt e.key (derive_iv c e.key h.epoch_id h.psn)
          (h.ciphertext ++ h.auth_tag) h.header = some plaintext := by
  cases stored with
  | none => simp [authenticated]
  | some e =>
  cases hdead : e.destroyed with
  | true => simp [authenticated, hdead]
  | false =>
  rcases hpeek : e.replay_window.peek h.psn with ⟨_ | _, reason⟩
  · simp [authenticated, hdead, hpeek]
  · cases hdec : c.aes_gcm_decrypt e.key (derive_iv c e.key h.epoch_id h.psn)
      (h.ciphertext ++ h.auth_tag) h.header with
    | none => simp [authenticated, hdead, hpeek, hdec]
    | some pt =>
      simp [authenticated, hdead, hpeek, hdec]
      tauto

def EpochTables.ruled (t : EpochTables) (sid : SessionId) (eid : UInt32) (psn : UInt64)
    (now : Instant) : EpochTables :=
  t.modify_epoch sid eid fun e =>
    { e with replay_window := (e.replay_window.check_and_accept now psn).1 }

def EpochTables.noted (t : EpochTables) (sid : SessionId) (now : Instant) : EpochTables :=
  { t with metas := t.metas.modify sid fun m =>
      { m with last_active := now, authenticated := true } }

/-- **What a call of `parse_frame` can do**, with everything it checked on the way. -/
inductive ParseEffect (buffer : List UInt8) (skip : Bool) :
    EpochTables → Result ParsedMEASCFrame → Prop
  | refused (err : SAACPHardDrop)
      (hauth : (perform c (authenticate c buffer) clk t).2 = .error err) :
    ParseEffect buffer skip t (.error err)
  | replayed (h : FrameHeader) (plaintext : List UInt8) (e : SessionEpoch) (now : Instant)
    (reason : Reason) (hauth : Authentic c t buffer h plaintext e)
    (hrule : (e.replay_window.check_and_accept now h.psn).2 = (false, reason)) :
    ParseEffect buffer skip (t.ruled h.session_id h.epoch_id h.psn now)
      (.error (psn_rejection h.psn h.epoch_id reason))
  | invalid (h : FrameHeader) (plaintext : List UInt8) (e : SessionEpoch) (now now' : Instant)
    (reason : Reason) (err : SAACPHardDrop) (hauth : Authentic c t buffer h plaintext e)
    (hrule : (e.replay_window.check_and_accept now h.psn).2 = (true, reason))
    (hschema : validate_schema schemas skip h.schema_id plaintext = .error err) :
    ParseEffect buffer skip ((t.ruled h.session_id h.epoch_id h.psn now).noted h.session_id now')
      (.error err)
  | accepted (h : FrameHeader) (plaintext : List UInt8) (e : SessionEpoch) (now now' : Instant)
    (reason : Reason) (t' : EpochTables) (hauth : Authentic c t buffer h plaintext e)
    (hrule : (e.replay_window.check_and_accept now h.psn).2 = (true, reason))
    (hschema : validate_schema schemas skip h.schema_id plaintext = .ok ())
    (hrot : t' = (t.ruled h.session_id h.epoch_id h.psn now).noted h.session_id now' ∨
      ∃ n, ((t.ruled h.session_id h.epoch_id h.psn now).noted h.session_id now').RotatesTo c cfg
        h.session_id n t') :
    ParseEffect buffer skip t' (.ok (parsed_frame c h e.key plaintext))

theorem parse_frame_effect (buffer : List UInt8) (skip : Bool) :
    ParseEffect c cfg schemas clk t buffer skip
      (perform c (parse_frame c cfg schemas buffer skip) clk t).1
      (perform c (parse_frame c cfg schemas buffer skip) clk t).2 := by
  have hauth := perform_authenticate c clk t buffer
  unfold parse_frame
  rw [perform_bind]
  cases hres : (perform c (authenticate c buffer) clk t).2 with
  | error err =>
    rw [hauth]
    exact .refused err hres
  | ok r =>
  obtain ⟨h, key, plaintext⟩ := r
  rw [hauth] at hres ⊢
  cases hdec : decode_header buffer with
  | error err =>
    rw [hdec] at hres
    cases hres
  | ok h' =>
  rw [hdec] at hres
  obtain ⟨e, hst, rfl, rfl, hlive, hpeek, hopen⟩ := (authenticated_ok_iff c).mp hres
  have ha : Authentic c t buffer h plaintext e := ⟨hdec, hst, hlive, hpeek, hopen⟩
  generalize ((authenticate c buffer).run (sections c) clk t).1 = clk'
  simp only [accept_authenticated, perform_step, exec, with_epoch_mut, hst, map_some]
  rcases hrule : (e.replay_window.check_and_accept (clk' 0) h.psn).2 with ⟨_ | _, reason⟩
  · exact .replayed h plaintext e (clk' 0) reason ha hrule
  simp only [perform_step, exec]
  cases hschema : validate_schema schemas skip h.schema_id plaintext with
  | error err => exact .invalid h plaintext e (clk' 0) (clk' 1) reason err ha hrule hschema
  | ok u =>
  simp only [perform_step, exec]
  generalize with_epoch _ _ _ _ = should
  rcases should with _ | _ | _
  · exact .accepted h plaintext e (clk' 0) (clk' 1) reason _ ha hrule hschema (Or.inl rfl)
  · exact .accepted h plaintext e (clk' 0) (clk' 1) reason _ ha hrule hschema (Or.inl rfl)
  simp only [perform_map]
  rcases check_and_rotate_cases c cfg h.session_id (fun n => clk' (n + 1 + 1 + 1))
    ((t.ruled h.session_id h.epoch_id h.psn (clk' 0)).noted h.session_id (clk' 1)) with
    hsame | ⟨n, t', hrot, hnew⟩
  · refine .accepted h plaintext e (clk' 0) (clk' 1) reason _ ha hrule hschema (Or.inl ?_)
    exact congrArg Prod.fst hsame
  · obtain rfl := congrArg Prod.fst hnew
    exact .accepted h plaintext e (clk' 0) (clk' 1) reason _ ha hrule hschema (Or.inr ⟨n, hrot⟩)

end

/-! ## Runs of the manager -/

inductive Call
  | create_session (sid : SessionId) (session_secret : Key) (packet_threshold : UInt64)
    (time_threshold_secs : Secs) (suite_transcript_hash : Option Key)
  | rotate_epoch (sid : SessionId)
  | check_and_rotate (sid : SessionId)
  | destroy_session (sid : SessionId)
  | reap_idle_sessions
  | expire_old_epochs (grace_seconds : Option Secs)
  | build_frame (sid : SessionId) (eid : UInt32) (a : FrameArgs)
  | parse_frame (buffer : List UInt8) (skip_schema_validation : Bool)

inductive Outcome
  | epoch (r : Result UInt32)
  | rotated (r : Option UInt32)
  | done
  | count (n : ℕ)
  | frame (r : Option (Result (List UInt8 × UInt64)))
  | parsed (r : Result ParsedMEASCFrame)

section

variable (c : Crypto) (cfg : ManagerConfig) (schemas : SchemaRegistry)

def Call.prog : Call → Prog Section Outcome
  | .create_session sid secret pt tt tx =>
    (Saacp.create_session c cfg sid secret pt tt tx).map .epoch
  | .rotate_epoch sid => (Saacp.rotate_epoch c cfg sid).map .epoch
  | .check_and_rotate sid => (Saacp.check_and_rotate c cfg sid).map .rotated
  | .destroy_session sid => (Saacp.destroy_session sid).map fun _ => .done
  | .reap_idle_sessions => (Saacp.reap_idle_sessions cfg).map .count
  | .expire_old_epochs g => (Saacp.expire_old_epochs g).map .count
  | .build_frame sid eid a => (build_frame_on sid eid a).map .frame
  | .parse_frame buffer skip => (Saacp.parse_frame c cfg schemas buffer skip).map .parsed

def Call.run (call : Call) (clk : Clock) (t : EpochTables) : EpochTables × Outcome :=
  perform c (call.prog c cfg schemas) clk t

def run_calls (t : EpochTables) : List (Call × Clock) → EpochTables × List Outcome
  | [] => (t, [])
  | (call, clk) :: calls =>
    ((run_calls (call.run c cfg schemas clk t).1 calls).1,
      (call.run c cfg schemas clk t).2 :: (run_calls (call.run c cfg schemas clk t).1 calls).2)

def after (calls : List (Call × Clock)) : EpochTables :=
  (run_calls c cfg schemas EpochTables.empty calls).1

end

end Saacp
