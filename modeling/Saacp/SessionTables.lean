/-
The **session-table invariant** of the epoch manager: what every state reachable by calls of
its operations satisfies.

Between operations the three tables hold the same sessions, and of each session the current epoch is
the only one that is not destroyed. `SessionOk` says this of the three entries of one session, with
what is needed to carry it along: every grace entry names an epoch older than the current one; and
every replay window is exact for some list of accepted PSNs.

Two failures leave a trace, and `build_frame_effect` and `parse_frame_error` say exactly which.
-/
import Saacp.EpochSpecs

set_option autoImplicit false

open Atomic

namespace Saacp

open EpochTables SessionEpoch Table

/-! ## One session -/

/-- An epoch is stored under its own identifiers, and its replay window is exact. -/
structure EpochOk (sid : SessionId) (eid : UInt32) (e : SessionEpoch) : Prop where
  session_id : e.session_id = sid
  epoch_id : e.epoch_id = eid
  next_pos : 1 ≤ e.sequencer.next
  tracks : ∃ acc, e.replay_window.Tracks acc

/-- The three entries of one session: its epochs, its meta entry, its grace entries. -/
structure SessionOk (sid : SessionId) (epochs : Table UInt32 SessionEpoch) (m : SessionMeta)
    (eids : Table UInt32 Instant) : Prop where
  current : ∃ e, epochs.get m.current_epoch = some e ∧ e.destroyed = false
  retired : ∀ eid e, epochs.get eid = some e → eid ≠ m.current_epoch →
    e.destroyed = true ∧ e.in_grace_period = true ∧ (eids.get eid).isSome = true
  grace_lt : ∀ eid, (eids.get eid).isSome = true → eid < m.current_epoch
  epoch : ∀ eid e, epochs.get eid = some e → EpochOk sid eid e

theorem tracks_with_default_policy (now : Instant) :
    (ReplayWindow.with_default_policy now).Tracks [] :=
  ReplayWindow.tracks_new _ now (by decide)

variable {e : SessionEpoch} {sid : SessionId} {eid : UInt32}

theorem ReplayWindow.Tracks.retire {acc : List UInt64} (h : e.replay_window.Tracks acc) :
    e.enter_grace_period.destroy.replay_window.Tracks acc := by
  rw [destroy_replay_window]
  exact ⟨h.size_pos, h.length, h.fresh, h.started, h.pos, h.le_max, h.le_highest, h.slot⟩

theorem epochOk_new (sid : SessionId) (eid : UInt32) (key : Key) (pt : UInt64) (tt : Secs)
    (now : Instant) : EpochOk sid eid (SessionEpoch.new sid eid key pt tt now) :=
  ⟨rfl, rfl, UInt64.le_refl _, [], tracks_with_default_policy now⟩

theorem EpochOk.retire (h : EpochOk sid eid e) : EpochOk sid eid e.enter_grace_period.destroy := by
  refine ⟨?_, ?_, ?_, ?_⟩
  · rw [destroy_session_id]
    exact h.session_id
  · rw [destroy_epoch_id]
    exact h.epoch_id
  · rw [destroy_sequencer]
    exact h.next_pos
  · obtain ⟨acc, htr⟩ := h.tracks
    exact ⟨acc, htr.retire⟩

theorem EpochOk.ruled (h : EpochOk sid eid e) (psn : UInt64) (now : Instant) :
    EpochOk sid eid { e with replay_window := (e.replay_window.check_and_accept now psn).1 } := by
  refine ⟨h.session_id, h.epoch_id, h.next_pos, ?_⟩
  obtain ⟨acc, htr⟩ := h.tracks
  rcases ReplayWindow.tracks_check_and_accept htr now psn with ⟨-, -, h'⟩ | ⟨-, h'⟩
  · exact ⟨_, h'⟩
  · exact ⟨_, h'⟩

theorem EpochOk.built (h : EpochOk sid eid e)
    (c : Crypto) (a : FrameArgs) : EpochOk sid eid (build_frame c e a).1 := by
  have hnext := UInt64.le_trans h.next_pos (build_frame_next_le c e a)
  rw [build_frame_only_sequencer]
  exact ⟨h.session_id, h.epoch_id, hnext, h.tracks⟩

namespace SessionOk

variable {epochs : Table UInt32 SessionEpoch} {m : SessionMeta} {eids : Table UInt32 Instant}

theorem le_current (h : SessionOk sid epochs m eids) {eid : UInt32} {e : SessionEpoch}
    (he : epochs.get eid = some e) : eid ≤ m.current_epoch := by
  by_cases hcur : eid = m.current_epoch
  · exact UInt32.le_of_eq hcur
  · exact UInt32.le_of_lt (h.grace_lt eid (h.retired eid e he hcur).2.2)

theorem first (key : Key) (pt : UInt64) (tt : Secs) (created_at : Instant)
    (hm : m.current_epoch = 0) :
    SessionOk sid (Table.empty.insert 0 (SessionEpoch.new sid 0 key pt tt created_at)) m
      Table.empty := by
  refine ⟨⟨_, by rw [hm, get_insert_self], rfl⟩, ?_, ?_, ?_⟩
  · intro eid e he hne
    rw [get_insert, if_neg (by rwa [hm] at hne), get_empty] at he
    cases he
  · intro eid h
    rw [get_empty] at h
    cases h
  · exact forall_insert (by simp) (epochOk_new sid 0 key pt tt created_at)

variable (h : SessionOk sid epochs m eids)
include h

theorem rotate (hmax : m.current_epoch ≠ 4294967295)
    (key root : Key) (pt : UInt64) (tt : Secs) (created_at noted_at : Instant) :
    SessionOk sid
      ((epochs.insert (m.current_epoch + 1)
        (SessionEpoch.new sid (m.current_epoch + 1) key pt tt created_at)).modify m.current_epoch
          fun e => e.enter_grace_period.destroy)
      { m with current_epoch := m.current_epoch + 1, secret := root }
      (eids.insert m.current_epoch noted_at) := by
  have hlt := UInt32.lt_add_one hmax
  have hne : m.current_epoch + 1 ≠ m.current_epoch := fun hc => by
    rw [hc] at hlt
    exact UInt32.lt_irrefl _ hlt
  refine ⟨⟨SessionEpoch.new sid (m.current_epoch + 1) key pt tt created_at, ?_, rfl⟩, ?_, ?_, ?_⟩
  · rw [get_modify, if_neg hne, get_insert_self]
  · intro eid e he hnew
    dsimp only at hnew
    rw [get_modify] at he
    split at he
    · -- The epoch that was current: retired by this rotation.
      rename_i hcur
      subst hcur
      rw [get_insert, if_neg hne.symm] at he
      obtain ⟨e0, he0, -⟩ := h.current
      rw [he0] at he
      cases he
      refine ⟨destroy_destroyed _, ?_, ?_⟩
      · rw [destroy_in_grace_period]
        rfl
      · rw [get_insert_self]
        rfl
    · rename_i hcur
      rw [get_insert, if_neg hnew] at he
      obtain ⟨hd, hg, hs⟩ := h.retired eid e he hcur
      refine ⟨hd, hg, ?_⟩
      rw [get_insert, if_neg hcur]
      exact hs
  · intro eid hs
    rw [get_insert] at hs
    dsimp only
    split at hs
    · rename_i hcur
      rw [hcur]
      exact hlt
    · exact UInt32.lt_trans (h.grace_lt eid hs) hlt
  · have hnew := epochOk_new sid (m.current_epoch + 1) key pt tt created_at
    refine forall_modify (forall_insert h.epoch hnew) fun e he => ?_
    rw [get_insert, if_neg hne.symm] at he
    exact (h.epoch _ e he).retire

theorem drop {old : UInt32} (hold : old < m.current_epoch) :
    SessionOk sid (epochs.remove old) m (eids.remove old) := by
  have hne : m.current_epoch ≠ old := fun hc => by
    rw [hc] at hold
    exact UInt32.lt_irrefl _ hold
  obtain ⟨e0, he0, hlive⟩ := h.current
  refine ⟨⟨e0, ?_, hlive⟩, ?_, ?_, ?_⟩
  · rw [get_remove, if_neg hne]
    exact he0
  · intro eid e he hcur
    rw [get_remove] at he
    split at he
    · cases he
    · rename_i hkeep
      rw [get_remove, if_neg hkeep]
      exact h.retired eid e he hcur
  · intro eid hs
    rw [get_remove] at hs
    split at hs
    · cases hs
    · exact h.grace_lt eid hs
  · exact fun eid e he => h.epoch eid e (remove_le _ _ _ _ he)

theorem modify (eid : UInt32) (f : SessionEpoch → SessionEpoch)
    (hf : ∀ e, (f e).destroyed = e.destroyed ∧ (f e).in_grace_period = e.in_grace_period ∧
      (EpochOk sid eid e → EpochOk sid eid (f e))) :
    SessionOk sid (epochs.modify eid f) m eids := by
  have hget : ∀ eid' e', (epochs.modify eid f).get eid' = some e' → ∃ e,
      epochs.get eid' = some e ∧ e'.destroyed = e.destroyed ∧
        e'.in_grace_period = e.in_grace_period ∧ (EpochOk sid eid' e → EpochOk sid eid' e') := by
    exact forall_modify (fun _ e' he => ⟨e', he, rfl, rfl, id⟩) fun e he => ⟨e, he, hf e⟩
  refine ⟨?_, ?_, h.grace_lt, ?_⟩
  · obtain ⟨e0, he0, hlive⟩ := h.current
    rw [get_modify]
    split
    · rename_i heq
      rw [← heq, he0]
      exact ⟨f e0, rfl, (hf e0).1.trans hlive⟩
    · exact ⟨e0, he0, hlive⟩
  · intro eid' e' he hcur
    obtain ⟨e, he0, hd, hg, -⟩ := hget eid' e' he
    rw [hd, hg]
    exact h.retired eid' e he0 hcur
  · intro eid' e' he
    obtain ⟨e, he0, -, -, hok⟩ := hget eid' e' he
    exact hok (h.epoch eid' e he0)

theorem of_meta {m' : SessionMeta}
    (hm : m'.current_epoch = m.current_epoch) : SessionOk sid epochs m' eids := by
  refine ⟨?_, ?_, ?_, h.epoch⟩
  · rw [hm]; exact h.current
  · rw [hm]; exact h.retired
  · rw [hm]; exact h.grace_lt

end SessionOk

/-! ## All sessions -/

/-- The entries of a session are either all absent or all present and consistent. -/
inductive EntriesOk (sid : SessionId) : Option (Table UInt32 SessionEpoch) → Option SessionMeta →
    Option (Table UInt32 Instant) → Prop
  | absent : EntriesOk sid none none none
  | present {epochs : Table UInt32 SessionEpoch} {m : SessionMeta} {eids : Table UInt32 Instant}
    (h : SessionOk sid epochs m eids) : EntriesOk sid (some epochs) (some m) (some eids)

/-- **The session-table invariant.** -/
structure Consistent (cfg : ManagerConfig) (t : EpochTables) : Prop where
  cap : t.sessions.len ≤ cfg.session_cap
  entries : ∀ sid, EntriesOk sid (t.sessions.get sid) (t.metas.get sid) (t.grace.get sid)

theorem consistent_empty (cfg : ManagerConfig) : Consistent cfg empty :=
  ⟨Nat.zero_le _, fun _ => .absent⟩

namespace Consistent

variable {cfg : ManagerConfig} {t t' : EpochTables} (h : Consistent cfg t)
include h

theorem entries_cases (sid : SessionId) :
    (t.sessions.get sid = none ∧ t.metas.get sid = none ∧ t.grace.get sid = none) ∨
      ∃ epochs m eids, t.sessions.get sid = some epochs ∧ t.metas.get sid = some m ∧
        t.grace.get sid = some eids ∧ SessionOk sid epochs m eids := by
  have hent := h.entries sid
  generalize t.sessions.get sid = s at hent ⊢
  generalize t.metas.get sid = m at hent ⊢
  generalize t.grace.get sid = g at hent ⊢
  cases hent with
  | absent => exact .inl ⟨rfl, rfl, rfl⟩
  | present hok => exact .inr ⟨_, _, _, rfl, rfl, rfl, hok⟩

theorem of_meta {m : SessionMeta} (hm : t.metas.get sid = some m) :
    ∃ epochs eids, t.sessions.get sid = some epochs ∧
      t.grace.get sid = some eids ∧ SessionOk sid epochs m eids := by
  obtain ⟨-, hnone, -⟩ | ⟨epochs, m', eids, hs, hm', hg, hok⟩ := h.entries_cases sid
  · cases hm.symm.trans hnone
  · cases hm.symm.trans hm'
    exact ⟨epochs, eids, hs, hg, hok⟩

theorem of_sessions {epochs : Table UInt32 SessionEpoch} (hs : t.sessions.get sid = some epochs) :
    ∃ m eids, t.metas.get sid = some m ∧ t.grace.get sid = some eids ∧
      SessionOk sid epochs m eids := by
  obtain ⟨hnone, -⟩ | ⟨epochs', m, eids, hs', hm, hg, hok⟩ := h.entries_cases sid
  · cases hs.symm.trans hnone
  · cases hs.symm.trans hs'
    exact ⟨m, eids, hm, hg, hok⟩

theorem change (sid : SessionId) (hlen : t'.sessions.len ≤ t.sessions.len)
    (hother : ∀ sid', sid' ≠ sid → t'.sessions.get sid' = t.sessions.get sid' ∧
      t'.metas.get sid' = t.metas.get sid' ∧ t'.grace.get sid' = t.grace.get sid')
    (hself : EntriesOk sid (t'.sessions.get sid) (t'.metas.get sid) (t'.grace.get sid)) :
    Consistent cfg t' := by
  refine ⟨hlen.trans h.cap, fun sid' => ?_⟩
  by_cases heq : sid' = sid
  · rw [heq]
    exact hself
  · obtain ⟨hs, hm, hg⟩ := hother sid' heq
    rw [hs, hm, hg]
    exact h.entries sid'

theorem created (c : Crypto) (hnew : t.sessions.get sid = none)
    (hcap : t.sessions.len < cfg.session_cap) (secret : Key) (pt : UInt64) (tt : Secs)
    (suite_hex : String) (t0 t1 : Instant) :
    Consistent cfg (t.created c sid secret pt tt suite_hex t0 t1) := by
  refine ⟨?_, fun sid' => ?_⟩
  · rw [EpochTables.created, len_insert_of_none hnew]
    exact hcap
  · simp only [EpochTables.created, get_insert]
    split
    · rename_i heq
      subst heq
      exact .present (SessionOk.first _ pt tt t0 rfl)
    · exact h.entries sid'

theorem without (sid : SessionId) : Consistent cfg (t.without sid) := by
  refine h.change sid (len_remove_le _ _) (fun sid' hne => ?_) ?_
  · simp only [EpochTables.without, get_remove, if_neg hne, and_self]
  · simp only [EpochTables.without, get_remove, if_true]
    exact .absent

theorem rotated (c : Crypto) {n : UInt32} (hrot : t.RotatesTo c cfg sid n t') :
    Consistent cfg t' := by
  obtain ⟨m, e, t0, t1, hm, he, hlive, hmax, rfl, rfl⟩ := hrot
  obtain ⟨epochs, eids, hs, hg, hok⟩ := h.of_meta hm
  refine h.change sid ?_ (fun sid' hne => ?_) ?_
  · rw [rotated, len_modify, len_modify]
  · simp only [rotated, get_modify, get_insert, if_neg hne, and_self]
  · simp only [rotated, get_modify, get_insert, if_true, hs, hm, hg,
      Option.map_some, Option.getD_some]
    exact .present (hok.rotate hmax _ _ _ _ t0 t1)

theorem drop_epoch {p : SessionId × UInt32}
    (hold : ∀ m, t.metas.get p.1 = some m → p.2 < m.current_epoch) :
    Consistent cfg (t.drop_epoch p) := by
  refine h.change p.1 ?_ (fun sid' hne => ?_) ?_
  · rw [EpochTables.drop_epoch, Table.len_modify]
  · simp only [EpochTables.drop_epoch, Table.get_modify, if_neg hne, and_self]
  · simp only [EpochTables.drop_epoch, Table.get_modify, if_true]
    obtain ⟨hs, hm, hg⟩ | ⟨epochs, m, eids, hs, hm, hg, hok⟩ := h.entries_cases p.1
    · rw [hs, hm, hg]
      exact .absent
    · rw [hs, hm, hg]
      exact .present (hok.drop (hold _ hm))

theorem modify_epoch (sid : SessionId) (eid : UInt32) (f : SessionEpoch → SessionEpoch)
    (hf : ∀ e, (f e).destroyed = e.destroyed ∧ (f e).in_grace_period = e.in_grace_period ∧
      (EpochOk sid eid e → EpochOk sid eid (f e))) : Consistent cfg (t.modify_epoch sid eid f) := by
  refine h.change sid ?_ (fun sid' hne => ?_) ?_
  · rw [EpochTables.modify_epoch, Table.len_modify]
  · simp only [EpochTables.modify_epoch, Table.get_modify, if_neg hne, and_self]
  · simp only [EpochTables.modify_epoch, Table.get_modify, if_true]
    obtain ⟨hs, hm, hg⟩ | ⟨epochs, m, eids, hs, hm, hg, hok⟩ := h.entries_cases sid
    · rw [hs, hm, hg]
      exact .absent
    · rw [hs, hm, hg]
      exact .present (hok.modify eid f hf)

theorem noted (sid : SessionId) (now : Instant) : Consistent cfg (t.noted sid now) := by
  refine h.change sid le_rfl (fun sid' hne => ?_) ?_
  · simp only [EpochTables.noted, get_modify, if_neg hne, and_self]
  · simp only [EpochTables.noted, get_modify, if_true]
    obtain ⟨hs, hm, hg⟩ | ⟨epochs, m, eids, hs, hm, hg, hok⟩ := h.entries_cases sid
    · rw [hs, hm, hg]
      exact .absent
    · rw [hs, hm, hg]
      exact .present (hok.of_meta rfl)

theorem ruled (sid : SessionId) (eid : UInt32) (psn : UInt64)
    (now : Instant) : Consistent cfg (t.ruled sid eid psn now) := by
  exact h.modify_epoch sid eid _ fun e => ⟨rfl, rfl, fun hok => hok.ruled psn now⟩

theorem built (c : Crypto) (sid : SessionId) (eid : UInt32) (a : FrameArgs) :
    Consistent cfg (t.with_epoch_mut sid eid fun e => build_frame c e a).1 := by
  refine h.modify_epoch sid eid _ fun e => ⟨?_, ?_, fun hok => hok.built c a⟩
  · rw [build_frame_only_sequencer]
  · rw [build_frame_only_sequencer]

/-! ## Every operation keeps it -/

variable (c : Crypto) (schemas : SchemaRegistry)

theorem expire (clk : Clock) (g : Option Secs) :
    Consistent cfg (perform c (expire_old_epochs g) clk t).1 := by
  -- Expiry does not touch the meta table, so the bound read off the grace table when the
  -- list was collected is still a bound when an epoch of the list is dropped.
  have hkeep := expire_old_epochs_keeps c clk t
    (P := fun t' => Consistent cfg t' ∧ t'.metas = t.metas) g ?_ ⟨h, rfl⟩
  · exact hkeep.1
  · intro t' p eids hg hsome ⟨hc, hmetas⟩
    refine ⟨hc.drop_epoch fun m hm => ?_, hmetas⟩
    rw [hmetas] at hm
    obtain ⟨epochs, eids', -, hg', hok⟩ := h.of_meta hm
    rw [hg] at hg'
    cases hg'
    exact hok.grace_lt p.2 hsome

theorem parse {clk : Clock} {buffer : List UInt8} {skip : Bool}
    {r : Result ParsedMEASCFrame}
    (heff : ParseEffect c cfg schemas clk t buffer skip t' r) : Consistent cfg t' := by
  cases heff with
  | refused err hauth => exact h
  | replayed hd pt e now reason hauth hrule => exact h.ruled _ _ _ _
  | invalid hd pt e now now' reason err hauth hrule hschema => exact (h.ruled _ _ _ _).noted _ _
  | accepted hd pt e now now' reason t' hauth hrule hschema hrot =>
    have h2 := (h.ruled hd.session_id hd.epoch_id hd.psn now).noted hd.session_id now'
    rcases hrot with heq | ⟨n, hrot⟩
    · rw [heq]
      exact h2
    · exact h2.rotated c hrot

open Call

theorem call (call : Call) (clk : Clock) :
    Consistent cfg (call.run c cfg schemas clk t).1 := by
  unfold run
  cases call
  all_goals rw [prog, perform_map]
  case create_session sid secret pt tt tx =>
    rcases create_session_cases c cfg sid clk t secret pt tt tx with
      ⟨e, heq⟩ | ⟨hnew, hcap, hex, t0, t1, heq⟩
    · rw [heq]
      exact h
    · rw [heq]
      exact h.created c hnew hcap _ pt tt hex t0 t1
  case rotate_epoch sid =>
    rcases rotate_epoch_cases c cfg sid clk t with ⟨e, heq⟩ | ⟨n, t', hrot, heq⟩
    · rw [heq]
      exact h
    · rw [heq]
      exact h.rotated c hrot
  case check_and_rotate sid =>
    rcases check_and_rotate_cases c cfg sid clk t with heq | ⟨n, t', hrot, heq⟩
    · rw [heq]
      exact h
    · rw [heq]
      exact h.rotated c hrot
  case destroy_session sid =>
    exact h.without sid
  case reap_idle_sessions =>
    exact reap_idle_sessions_keeps c cfg clk t (fun t sid ht => ht.without sid) h
  case expire_old_epochs g =>
    exact h.expire c clk g
  case build_frame sid eid a =>
    exact h.built c sid eid a
  case parse_frame buffer skip =>
    exact h.parse c schemas (parse_frame_effect c cfg schemas clk t buffer skip)

end Consistent

theorem consistent_run (c : Crypto) (cfg : ManagerConfig) (schemas : SchemaRegistry)
    (calls : List (Call × Clock)) : Consistent cfg (after c cfg schemas calls) := by
  have hempty := consistent_empty cfg
  unfold after
  generalize EpochTables.empty = t at hempty ⊢
  induction calls generalizing t with
  | nil => exact hempty
  | cons call calls ih => exact ih _ (hempty.call c schemas call.1 call.2)

/-! ## What a failed call leaves behind -/

/-- The tables with the sequencer of one epoch moved on by one. -/
def EpochTables.advanced (t : EpochTables) (sid : SessionId) (eid : UInt32) : EpochTables :=
  t.modify_epoch sid eid fun e => { e with sequencer := ⟨e.sequencer.next + 1⟩ }

def Outcome.failed : Outcome → Bool
  | .epoch (.error _) => true
  | .frame (some (.error _)) => true
  | .parsed (.error _) => true
  | _ => false

/-- A failed `build_frame` may have used up a PSN; a `parse_frame` that fails on an authentic frame
has shown its PSN to the replay window and may have noted the session as authenticated. -/
def FailureTrace (c : Crypto) (t : EpochTables) : Call → EpochTables → Prop
  | .build_frame sid eid _, t' => t' = t ∨ t' = t.advanced sid eid
  | .parse_frame buffer _, t' => t' = t ∨ ∃ h plaintext e now, Authentic c t buffer h plaintext e ∧
      (t' = t.ruled h.session_id h.epoch_id h.psn now ∨
        ∃ now', t' = (t.ruled h.session_id h.epoch_id h.psn now).noted h.session_id now')
  | _, t' => t' = t

section

variable (c : Crypto) (cfg : ManagerConfig) (schemas : SchemaRegistry)

theorem build_frame_effect (t : EpochTables) (sid : SessionId) (eid : UInt32) (a : FrameArgs) :
    (t.with_epoch_mut sid eid fun e => build_frame c e a).1 = t ∨
      (t.with_epoch_mut sid eid fun e => build_frame c e a).1 = t.advanced sid eid := by
  unfold with_epoch_mut advanced
  by_cases hidle : ∀ e, t.epoch sid eid = some e → (build_frame c e a).1 = e
  · exact Or.inl (modify_epoch_self hidle)
  · refine Or.inr (modify_epoch_congr fun e he => ?_)
    rcases build_frame_epoch c e a with heq | ⟨-, heq⟩
    · refine absurd (fun e' he' => ?_) hidle
      rw [he] at he'
      cases he'
      exact heq
    · exact heq

theorem parse_frame_error {t t' : EpochTables} {clk : Clock} {buffer : List UInt8}
    {skip : Bool} {err : SAACPHardDrop}
    (heff : ParseEffect c cfg schemas clk t buffer skip t' (.error err)) :
    FailureTrace c t (.parse_frame buffer skip) t' := by
  cases heff with
  | refused err hauth => exact Or.inl rfl
  | replayed h pt e now reason hauth hrule => exact Or.inr ⟨h, pt, e, now, hauth, Or.inl rfl⟩
  | invalid h pt e now now' reason err hauth hrule hschema =>
    exact Or.inr ⟨h, pt, e, now, hauth, Or.inr ⟨now', rfl⟩⟩

theorem failure_trace (t : EpochTables) (call : Call) (clk : Clock)
    (hfail : (call.run c cfg schemas clk t).2.failed = true) :
    FailureTrace c t call (call.run c cfg schemas clk t).1 := by
  unfold Call.run at hfail ⊢
  cases call with
  | create_session sid secret pt tt tx =>
    rw [Call.prog, perform_map] at hfail ⊢
    rcases create_session_cases c cfg sid clk t secret pt tt tx with
      ⟨e, heq⟩ | ⟨-, -, hex, t0, t1, heq⟩
    · rw [heq]
      rfl
    · rw [heq] at hfail
      cases hfail
  | rotate_epoch sid =>
    rw [Call.prog, perform_map] at hfail ⊢
    rcases rotate_epoch_cases c cfg sid clk t with ⟨e, heq⟩ | ⟨n, t', -, heq⟩
    · rw [heq]
      rfl
    · rw [heq] at hfail
      cases hfail
  | check_and_rotate | destroy_session | reap_idle_sessions | expire_old_epochs =>
    rw [Call.prog, perform_map] at hfail
    cases hfail
  | build_frame sid eid a =>
    rw [Call.prog, perform_map]
    exact build_frame_effect c t sid eid a
  | parse_frame buffer skip =>
    rw [Call.prog, perform_map] at hfail ⊢
    have heff := parse_frame_effect c cfg schemas clk t buffer skip
    generalize perform c (parse_frame c cfg schemas buffer skip) clk t = r at hfail heff ⊢
    obtain ⟨t', r⟩ := r
    cases r with
    | error err => exact parse_frame_error c cfg schemas heff
    | ok p => cases hfail

/-- **The session tables of a reachable manager.** In every state reached by calls, for any
settings: the tables hold the same sessions, no more than the cap; the current epoch of a
session is stored, live and has the largest number, and every other epoch is destroyed, in
its grace period and in the grace table. And every further call that fails leaves the tables
unchanged, but for the trace of `FailureTrace`. -/
theorem session_tables (calls : List (Call × Clock)) :
    (∀ sid, ((after c cfg schemas calls).metas.get sid).isSome =
        ((after c cfg schemas calls).sessions.get sid).isSome ∧
      ((after c cfg schemas calls).grace.get sid).isSome =
        ((after c cfg schemas calls).sessions.get sid).isSome) ∧
    (after c cfg schemas calls).sessions.len ≤ cfg.session_cap ∧
    (∀ sid epochs m, (after c cfg schemas calls).sessions.get sid = some epochs →
      (after c cfg schemas calls).metas.get sid = some m →
      (∃ e, epochs.get m.current_epoch = some e ∧ e.destroyed = false) ∧
      ∀ eid e, epochs.get eid = some e → eid ≤ m.current_epoch ∧
        (eid ≠ m.current_epoch → e.destroyed = true ∧ e.in_grace_period = true ∧
          ∃ eids, (after c cfg schemas calls).grace.get sid = some eids ∧
            (eids.get eid).isSome = true)) ∧
    ∀ call clk, (Call.run c cfg schemas call clk (after c cfg schemas calls)).2.failed = true →
      FailureTrace c (after c cfg schemas calls) call
        (Call.run c cfg schemas call clk (after c cfg schemas calls)).1 := by
  have hc := consistent_run c cfg schemas calls
  generalize after c cfg schemas calls = t at hc ⊢
  refine ⟨fun sid => ?_, hc.cap, ?_, fun call clk => failure_trace c cfg schemas t call clk⟩
  · obtain ⟨hs, hm, hg⟩ | ⟨epochs, m, eids, hs, hm, hg, -⟩ := hc.entries_cases sid
    · rw [hs, hm, hg]
      exact ⟨rfl, rfl⟩
    · rw [hs, hm, hg]
      exact ⟨rfl, rfl⟩
  · intro sid epochs m hs hm
    obtain ⟨m', eids, hm', hg, hok⟩ := hc.of_sessions hs
    rw [hm] at hm'
    cases hm'
    refine ⟨hok.current, fun eid e he => ⟨hok.le_current he, fun hcur => ?_⟩⟩
    obtain ⟨hd, hgr, hsome⟩ := hok.retired eid e he hcur
    exact ⟨hd, hgr, eids, hg, hsome⟩

end

def sampleThreshold : Secs := 600

def sampleCreated : List (Call × Clock) :=
  [(.create_session sampleSid sampleSecret 1000 sampleThreshold none, fun _ => 0)]

def sampleRotated : List (Call × Clock) :=
  sampleCreated ++ [(.rotate_epoch sampleSid, fun _ => 1)]

/-- Building a frame on the epoch that a rotation destroyed fails, and has used up a PSN of
it. -/
theorem failed_build_moves_sequencer :
    let t := after sampleCrypto ManagerConfig.new sampleSchemas sampleRotated
    let answer := Call.run sampleCrypto ManagerConfig.new sampleSchemas
      (.build_frame sampleSid 0 sampleArgs) (fun _ => 2) t
    answer.2.failed = true ∧ answer.1 ≠ t := by
  refine ⟨by decide +kernel, fun heq => ?_⟩
  -- the two tables differ in the sequencer of the destroyed epoch
  have hseq := congrArg (fun t => (t.epoch sampleSid 0).map fun e => e.sequencer.next) heq
  revert hseq
  decide +kernel

end Saacp
