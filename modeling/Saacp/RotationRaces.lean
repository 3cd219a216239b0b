/-
**Racing rotations.** Calls of `rotate_epoch`, `check_and_rotate`, `build_frame` and
`parse_frame` run concurrently, and any of them may be interrupted between two lock scopes.

Two ghost logs are kept: which key, epoch and PSN a frame was built under, and which PSN a replay
window has accepted. `Sound` ties them to the tables. Every lock scope keeps it but one:
`rotate_epoch` inserts the next epoch without looking whether a rotation that overlaps has already
done so. `unraced` is the condition that this does not happen.
-/
import Saacp.SessionTables

set_option autoImplicit false

open ByteCodec Atomic

namespace Saacp

open EpochTables List Option SessionEpoch

structure BuiltFrame where
  session_id : SessionId
  traffic_key : Key
  epoch_id : UInt32
  psn : UInt64
  deriving DecidableEq

structure AcceptedFrame where
  session_id : SessionId
  epoch_id : UInt32
  psn : UInt64
  deriving DecidableEq

/-- The tables with the two ghost logs. Each entry names the thread that made it. -/
structure Traffic where
  tables : EpochTables
  built : List (ℕ × BuiltFrame)
  accepted : List (ℕ × AcceptedFrame)

section

variable (c : Crypto)

def built_by {β : Type} (act : Section β) (t : EpochTables) : Option BuiltFrame :=
  match act with
  | .build_frame sid eid a => (t.epoch sid eid).bind fun e =>
    match (build_frame c e a).2 with
    | .ok (_, psn) => some ⟨sid, e.key, e.epoch_id, psn⟩
    | .error _ => none
  | _ => none

/-- The PSN a replay window accepts in a lock scope, if it does. -/
def accepted_by {β : Type} (act : Section β) (now : Instant) (t : EpochTables) :
    Option AcceptedFrame :=
  match act with
  | .check_and_accept sid eid psn => (t.epoch sid eid).bind fun e =>
    if (e.replay_window.check_and_accept now psn).2.1 then some ⟨sid, eid, psn⟩ else none
  | _ => none

def Traffic.exec (tid : ℕ) {β : Type} (act : Section β) (now : Instant) (s : Traffic) :
    Traffic × β :=
  ({ tables := (Saacp.exec c act now s.tables).1
     built := (built_by c act s.tables).toList.map (tid, ·) ++ s.built
     accepted := (accepted_by act now s.tables).toList.map (tid, ·) ++ s.accepted },
    (Saacp.exec c act now s.tables).2)

def traffic : Semantics Section Instant Traffic where
  exec := fun tid _ act now s => s.exec c tid act now

end

def SessionEpoch.unused (e : SessionEpoch) : Bool :=
  decide (e.sequencer.next = 1) && !e.replay_window.initialized

/-- The session has no epoch of the inserted number yet, or an unused one. -/
def inserts_unused {β : Type} (act : Section β) (t : EpochTables) : Bool :=
  match act with
  | .insert_epoch sid new_epoch_id _ => (t.epoch sid new_epoch_id).all SessionEpoch.unused
  | _ => true

/-- **The condition on a schedule.** -/
def unraced : Condition Section Instant Traffic Empty where
  section_ok := fun _ _ act _ s => inserts_unused act s.tables = true
  daemon_ok := fun d _ => nomatch d

instance (tid : ℕ) {β : Type} (act : Section β) (now : Instant) (s : Traffic) :
    Decidable (unraced.section_ok tid act now s) :=
  inferInstanceAs (Decidable (inserts_unused act s.tables = true))

instance (d : Empty) (s : Traffic) : Decidable (unraced.daemon_ok d s) := nomatch d

theorem EpochTables.epoch_insert_epoch (t : EpochTables) (sid : SessionId) (n : UInt32)
    (e : SessionEpoch) (sid' : SessionId) (eid' : UInt32) :
    (t.insert_epoch sid n e).1.epoch sid' eid' =
      if sid' = sid ∧ eid' = n ∧ (t.sessions.get sid).isSome = true then some e
      else t.epoch sid' eid' := by
  unfold insert_epoch
  cases hs : t.sessions.get sid with
  | none => simp
  | some epochs =>
    unfold EpochTables.epoch
    simp only [Table.get_modify]
    by_cases hsid : sid' = sid
    · subst hsid
      simp only [if_true, hs, map_some, bind_some, Table.get_insert,
        isSome_some, true_and, and_true]
    · rw [if_neg hsid, if_neg fun h => hsid h.1]

/-! ## The invariant -/

structure SlotOk (s : Traffic) (sid : SessionId) (eid : UInt32) (e : SessionEpoch) : Prop where
  epoch : EpochOk sid eid e
  built_lt : ∀ b ∈ s.built, b.2.session_id = sid → b.2.epoch_id = eid → b.2.psn < e.sequencer.next
  accepted_mem : ∃ acc, e.replay_window.Tracks acc ∧ ∀ a ∈ s.accepted, a.2.session_id = sid →
    a.2.epoch_id = eid → a.2.psn ∈ acc

/-- **The invariant.** -/
structure Sound (s : Traffic) : Prop where
  slot : ∀ sid eid e, s.tables.epoch sid eid = some e → SlotOk s sid eid e
  built_stored : ∀ b ∈ s.built, ∃ e, s.tables.epoch b.2.session_id b.2.epoch_id = some e
  built_pos : ∀ b ∈ s.built, 1 ≤ b.2.psn
  accepted_stored : ∀ a ∈ s.accepted, ∃ e, s.tables.epoch a.2.session_id a.2.epoch_id = some e
  built_nodup : (s.built.map fun b => (b.2.session_id, b.2.epoch_id, b.2.psn)).Nodup
  accepted_nodup : (s.accepted.map Prod.snd).Nodup

theorem Consistent.sound {cfg : ManagerConfig} {t : EpochTables} (h : Consistent cfg t) :
    Sound ⟨t, [], []⟩ := by
  refine ⟨?_, forall_mem_nil _, forall_mem_nil _, forall_mem_nil _, nodup_nil, nodup_nil⟩
  intro sid eid e he
  obtain ⟨epochs, hs, hget⟩ := epoch_eq.mp he
  obtain ⟨m, eids, -, -, hok⟩ := h.of_sessions hs
  have hep := hok.epoch eid e hget
  obtain ⟨acc, htr⟩ := hep.tracks
  exact ⟨hep, forall_mem_nil _, acc, htr, forall_mem_nil _⟩

namespace Sound

variable {s : Traffic} {sid : SessionId} {eid : UInt32}

variable (h : Sound s)
include h

theorem of_epochs {t' : EpochTables}
    (hslot : ∀ sid eid e, t'.epoch sid eid = some e →
      s.tables.epoch sid eid = some e ∨ SlotOk s sid eid e)
    (hstored : ∀ sid eid, (∃ e, s.tables.epoch sid eid = some e) → ∃ e, t'.epoch sid eid = some e) :
    Sound { s with tables := t' } := by
  refine ⟨?_, fun b hb => hstored _ _ (h.built_stored b hb), h.built_pos,
    fun a ha => hstored _ _ (h.accepted_stored a ha), h.built_nodup, h.accepted_nodup⟩
  intro sid eid e he
  obtain ⟨hep, hlt, hmem⟩ := (hslot sid eid e he).elim (h.slot sid eid e) id
  exact ⟨hep, hlt, hmem⟩

theorem of_sessions_eq {t' : EpochTables}
    (hs : t'.sessions = s.tables.sessions) : Sound { s with tables := t' } := by
  have hepoch : ∀ sid eid, t'.epoch sid eid = s.tables.epoch sid eid := by
    intro sid eid
    rw [EpochTables.epoch, hs, EpochTables.epoch]
  refine h.of_epochs (fun sid eid e he => .inl ?_) (fun sid eid hex => ?_)
  · rwa [← hepoch]
  · rwa [hepoch]

theorem modify {e : SessionEpoch} (he : s.tables.epoch sid eid = some e)
    {f : SessionEpoch → SessionEpoch} {s' : Traffic}
    (htables : s'.tables = s.tables.modify_epoch sid eid f) (bs : List (ℕ × BuiltFrame))
    (as : List (ℕ × AcceptedFrame)) (hbuilt : s'.built = bs ++ s.built)
    (haccepted : s'.accepted = as ++ s.accepted)
    (hbs : ∀ b ∈ bs, b.2.session_id = sid ∧ b.2.epoch_id = eid ∧ 1 ≤ b.2.psn)
    (has : ∀ a ∈ as, a.2.session_id = sid ∧ a.2.epoch_id = eid) (hslot : SlotOk s' sid eid (f e))
    (hnodup_b : (s'.built.map fun b => (b.2.session_id, b.2.epoch_id, b.2.psn)).Nodup)
    (hnodup_a : (s'.accepted.map Prod.snd).Nodup) : Sound s' := by
  have hepoch : ∀ sid' eid', s'.tables.epoch sid' eid' =
      if sid' = sid ∧ eid' = eid then some (f e) else s.tables.epoch sid' eid' := by
    intro sid' eid'
    rw [htables, epoch_modify_epoch, he, map_some]
  have hstored : ∀ sid' eid', (∃ e', s.tables.epoch sid' eid' = some e') →
      ∃ e', s'.tables.epoch sid' eid' = some e' := by
    intro sid' eid' hex
    rw [hepoch]
    by_cases heq : sid' = sid ∧ eid' = eid
    · rw [if_pos heq]
      exact ⟨f e, rfl⟩
    · rw [if_neg heq]
      exact hex
  refine ⟨?_, ?_, ?_, ?_, hnodup_b, hnodup_a⟩
  · intro sid' eid' e' he'
    rw [hepoch] at he'
    by_cases heq : sid' = sid ∧ eid' = eid
    · obtain ⟨rfl, rfl⟩ := heq
      rw [if_pos ⟨rfl, rfl⟩] at he'
      obtain rfl := Option.some.inj he'
      exact hslot
    · -- the new entries are about another epoch
      rw [if_neg heq] at he'
      obtain ⟨hep, hlt, acc, htr, hmem⟩ := h.slot sid' eid' e' he'
      refine ⟨hep, ?_, acc, htr, ?_⟩
      · rw [hbuilt]
        refine forall_mem_append.mpr ⟨fun b hb hsid heid => ?_, hlt⟩
        exact absurd ⟨hsid.symm.trans (hbs b hb).1, heid.symm.trans (hbs b hb).2.1⟩ heq
      · rw [haccepted]
        refine forall_mem_append.mpr ⟨fun a ha hsid heid => ?_, hmem⟩
        exact absurd ⟨hsid.symm.trans (has a ha).1, heid.symm.trans (has a ha).2⟩ heq
  · rw [hbuilt]
    refine forall_mem_append.mpr
      ⟨fun b hb => ?_, fun b hb => hstored _ _ (h.built_stored b hb)⟩
    rw [(hbs b hb).1, (hbs b hb).2.1]
    exact hstored sid eid ⟨e, he⟩
  · rw [hbuilt]
    exact forall_mem_append.mpr ⟨fun b hb => (hbs b hb).2.2, h.built_pos⟩
  · rw [haccepted]
    refine forall_mem_append.mpr
      ⟨fun a ha => ?_, fun a ha => hstored _ _ (h.accepted_stored a ha)⟩
    rw [(has a ha).1, (has a ha).2]
    exact hstored sid eid ⟨e, he⟩

theorem modify_none (he : s.tables.epoch sid eid = none) {f : SessionEpoch → SessionEpoch}
    {s' : Traffic} (htables : s'.tables = s.tables.modify_epoch sid eid f)
    (hbuilt : s'.built = s.built) (haccepted : s'.accepted = s.accepted) : Sound s' := by
  rw [modify_epoch_of_none he] at htables
  cases s'
  cases htables
  cases hbuilt
  cases haccepted
  exact h

theorem silent {n : UInt32} (hslot : (s.tables.epoch sid n).all unused = true) :
    (∀ b ∈ s.built, b.2.session_id = sid → b.2.epoch_id ≠ n) ∧
      ∀ a ∈ s.accepted, a.2.session_id = sid → a.2.epoch_id ≠ n := by
  have hunused : ∀ e, s.tables.epoch sid n = some e →
      e.sequencer.next = 1 ∧ e.replay_window.initialized = false := by
    intro e he
    rw [he, all_some, unused, Bool.and_eq_true, decide_eq_true_eq,
      Bool.not_eq_true'] at hslot
    exact hslot
  constructor
  · -- a PSN that was used is at least one, and below where the sequencer stands
    rintro b hb rfl rfl
    obtain ⟨e, he⟩ := h.built_stored b hb
    have hlt := (h.slot _ _ e he).built_lt b hb rfl rfl
    have hpos := h.built_pos b hb
    rw [(hunused e he).1, UInt64.lt_iff_toNat_lt] at hlt
    rw [UInt64.le_iff_toNat_le] at hpos
    omega
  · rintro a ha rfl rfl
    obtain ⟨e, he⟩ := h.accepted_stored a ha
    obtain ⟨acc, htr, hmem⟩ := (h.slot _ _ e he).accepted_mem
    have hnone := (htr.fresh (hunused e he).2).2
    have hin := hmem a ha rfl rfl
    rw [hnone] at hin
    cases hin

theorem insert {n : UInt32} (hslot : (s.tables.epoch sid n).all unused = true)
    (key : Key) (pt : UInt64) (tt : Secs) (created_at : Instant) :
    Sound { s with tables := (s.tables.insert_epoch sid n
      (new sid n key pt tt created_at)).1 } := by
  obtain ⟨hsilent_b, hsilent_a⟩ := h.silent hslot
  have hepoch := s.tables.epoch_insert_epoch sid n (new sid n key pt tt created_at)
  apply h.of_epochs
  · intro sid' eid' e' he'
    rw [hepoch] at he'
    split at he'
    · rename_i heq
      obtain ⟨rfl, rfl, -⟩ := heq
      obtain rfl := Option.some.inj he'
      refine .inr ⟨epochOk_new _ _ key pt tt created_at, ?_, [], tracks_with_default_policy _, ?_⟩
      · intro b hb hsid heid
        exact absurd heid (hsilent_b b hb hsid)
      · intro a ha hsid heid
        exact absurd heid (hsilent_a a ha hsid)
    · exact .inl he'
  · intro sid' eid' hex
    rw [hepoch]
    split
    · exact ⟨_, rfl⟩
    · exact hex

theorem retire (sid : SessionId) (eid : UInt32) :
    Sound { s with tables := s.tables.modify_epoch sid eid fun e =>
      e.enter_grace_period.destroy } := by
  cases he : s.tables.epoch sid eid with
  | none => exact h.modify_none he rfl rfl rfl
  | some e =>
    obtain ⟨hep, hlt, acc, htr, hmem⟩ := h.slot sid eid e he
    refine h.modify he rfl [] [] rfl rfl (forall_mem_nil _) (forall_mem_nil _)
      ⟨hep.retire, ?_, acc, htr.retire, hmem⟩ h.built_nodup h.accepted_nodup
    rw [destroy_sequencer]
    exact hlt

omit h

variable (c : Crypto) (tid : ℕ)

theorem check_and_accept (h : Sound s) (sid : SessionId) (eid : UInt32) (psn : UInt64)
    (now : Instant) : Sound (s.exec c tid (.check_and_accept sid eid psn) now).1 := by
  cases he : s.tables.epoch sid eid with
  | none =>
    refine h.modify_none he rfl rfl ?_
    simp [Traffic.exec, accepted_by, he]
  | some e =>
    obtain ⟨hep, hlt, acc, htr, hmem⟩ := h.slot sid eid e he
    have hlog : (s.exec c tid (.check_and_accept sid eid psn) now).1.accepted =
        (if (e.replay_window.check_and_accept now psn).2.1 then [(tid, ⟨sid, eid, psn⟩)] else []) ++
          s.accepted := by
      simp only [Traffic.exec, accepted_by, he, bind_some]
      split <;> rfl
    rcases ReplayWindow.tracks_check_and_accept htr now psn with ⟨hok, hnew, h'⟩ | ⟨hno, h'⟩
    · -- the window tracks what it has just accepted
      rw [if_pos hok] at hlog
      refine h.modify he rfl [] _ rfl hlog nofun (by simp)
        ⟨hep.ruled psn now, hlt, psn :: acc, h', ?_⟩ h.built_nodup ?_
      · rw [hlog]
        intro a ha hsid heid
        rcases mem_cons.mp ha with rfl | ha
        · exact mem_cons_self
        · exact mem_cons_of_mem _ (hmem a ha hsid heid)
      · rw [hlog]
        refine nodup_cons.mpr ⟨?_, h.accepted_nodup⟩
        intro hdup
        obtain ⟨a, ha, heq⟩ := mem_map.mp hdup
        have hin := hmem a ha (congrArg AcceptedFrame.session_id heq)
          (congrArg AcceptedFrame.epoch_id heq)
        rw [congrArg AcceptedFrame.psn heq] at hin
        exact hnew hin
    · rw [if_neg (by rw [hno]; exact Bool.false_ne_true)] at hlog
      refine h.modify he rfl [] [] rfl hlog nofun nofun
        ⟨hep.ruled psn now, hlt, acc, h', ?_⟩ h.built_nodup ?_
      · rw [hlog]
        exact hmem
      · rw [hlog]
        exact h.accepted_nodup

theorem built_entry {e : SessionEpoch} (he : s.tables.epoch sid eid = some e)
    (hep : EpochOk sid eid e) {a : FrameArgs} {b : ℕ × BuiltFrame}
    (hb : b ∈ (built_by c (.build_frame sid eid a) s.tables).toList.map (tid, ·)) :
    b.2.session_id = sid ∧ b.2.epoch_id = eid ∧ b.2.psn = e.sequencer.next ∧
      e.sequencer.next < (Saacp.build_frame c e a).1.sequencer.next := by
  obtain ⟨x, hx, rfl⟩ := mem_map.mp hb
  simp only [built_by, he, bind_some] at hx
  rcases hbuild : Saacp.build_frame c e a with ⟨e', r⟩
  rw [hbuild] at hx
  cases r with
  | error err => cases hx
  | ok r =>
    obtain ⟨wire, psn⟩ := r
    obtain rfl := Option.some.inj (mem_toList.mp hx)
    obtain ⟨-, rfl, hmax, rfl, -⟩ := build_frame_ok hbuild
    exact ⟨rfl, hep.epoch_id, rfl, lt_succ_of_lt_psn_max hmax⟩

theorem build_frame (h : Sound s) (sid : SessionId) (eid : UInt32) (a : FrameArgs)
    (now : Instant) : Sound (s.exec c tid (.build_frame sid eid a) now).1 := by
  cases he : s.tables.epoch sid eid with
  | none =>
    refine h.modify_none he rfl ?_ rfl
    simp [Traffic.exec, built_by, he]
  | some e =>
    obtain ⟨hep, hlt, acc, htr, hmem⟩ := h.slot sid eid e he
    have htables : (s.exec c tid (.build_frame sid eid a) now).1.tables =
        s.tables.modify_epoch sid eid fun e => (Saacp.build_frame c e a).1 := rfl
    refine h.modify he htables _ [] rfl rfl ?_ (forall_mem_nil _) ⟨hep.built c a, ?_, acc, ?_, hmem⟩
      ?_ h.accepted_nodup
    · intro b hb
      obtain ⟨hsid, heid, hpsn, -⟩ := built_entry c tid he hep hb
      refine ⟨hsid, heid, ?_⟩
      rw [hpsn]
      exact hep.next_pos
    · intro b hb hsid heid
      rcases mem_append.mp hb with hb | hb
      · obtain ⟨-, -, hpsn, hmoved⟩ := built_entry c tid he hep hb
        rw [hpsn]
        exact hmoved
      · exact UInt64.lt_of_lt_of_le (hlt b hb hsid heid) (build_frame_next_le c e a)
    · rw [build_frame_only_sequencer]
      exact htr
    · -- every PSN logged for this epoch so far is below the new one
      change ((((built_by c (.build_frame sid eid a) s.tables).toList.map (tid, ·)) ++
        s.built).map fun b => (b.2.session_id, b.2.epoch_id, b.2.psn)).Nodup
      rw [map_append]
      apply List.Nodup.append
      · cases built_by c (.build_frame sid eid a) s.tables with
        | none => exact nodup_nil
        | some x => exact nodup_singleton _
      · exact h.built_nodup
      · intro y hy hy'
        obtain ⟨b, hb, rfl⟩ := mem_map.mp hy
        obtain ⟨b', hb', heq⟩ := mem_map.mp hy'
        obtain ⟨hsid, heid, hpsn, -⟩ := built_entry c tid he hep hb
        rw [Prod.mk.injEq, Prod.mk.injEq, hsid, heid, hpsn] at heq
        have hold := hlt b' hb' heq.1 heq.2.1
        rw [heq.2.2] at hold
        exact UInt64.lt_irrefl _ hold

end Sound

/-! ## The calls keep it -/

def races : Protocol Traffic where
  inv := Sound
  rely := fun _ s s' => s.built ⊆ s'.built ∧ s.accepted ⊆ s'.accepted
  rely_refl := fun _ _ => ⟨fun _ h => h, fun _ h => h⟩
  rely_trans := fun h h' => ⟨fun _ hx => h'.1 (h.1 hx), fun _ hx => h'.2 (h.2 hx)⟩

section

variable {c : Crypto} {cfg : ManagerConfig} {schemas : SchemaRegistry} {tid : ℕ}
  {K : Traffic → Prop}

theorem exec_rely {β : Type} (act : Section β) (now : Instant) (s : Traffic) (j : ℕ) :
    races.rely j s (s.exec c tid act now).1 :=
  ⟨fun _ h => mem_append_right _ h, fun _ h => mem_append_right _ h⟩

structure Quiet (c : Crypto) {β : Type} (act : Section β) : Prop where
  sessions : ∀ now t, (exec c act now t).1.sessions = t.sessions
  built : ∀ t, built_by c act t = none
  accepted : ∀ now t, accepted_by act now t = none

theorem Quiet.step {β : Type} {act : Section β} (hq : Quiet c act) (s : Traffic)
    (now : Instant) (hs : Sound s) :
    Sound (s.exec c tid act now).1 ∧ ∀ j, races.rely j s (s.exec c tid act now).1 := by
  refine ⟨?_, exec_rely act now s⟩
  unfold Traffic.exec
  rw [hq.built, hq.accepted]
  exact hs.of_sessions_eq (hq.sessions now s.tables)

theorem Quiet.safe {α β : Type} {act : Section β} {k : β → Prog Section α}
    {post : α → Traffic → Prop} {s : Traffic} (hK : races.Stable tid K)
    (hk : ∀ b s', K s' → (k b).Safe (traffic c) unraced races tid post s') (hs : K s)
    (hq : Quiet c act := by exact ⟨fun _ _ => rfl, fun _ => rfl, fun _ _ => rfl⟩) :
    (Prog.step act k).Safe (traffic c) unraced races tid post s :=
  Prog.Safe.step_of_stable hK (fun s' now hinv _ => hq.step s' now hinv) hk hs

theorem ret_safe {α : Type} {r : α} (hK : races.Stable tid K) {s : Traffic} (hs : K s) :
    (Prog.ret r : Prog Section α).Safe (traffic c) unraced races tid (fun _ => K) s :=
  Prog.Safe.ret_of_stable hK (fun _ h => h) hs

theorem rotate_epoch_safe (sid : SessionId) (hK : races.Stable tid K) {s : Traffic} (hs : K s) :
    (rotate_epoch c cfg sid).Safe (traffic c) unraced races tid (fun _ => K) s := by
  unfold rotate_epoch
  refine Quiet.safe hK ?_ hs
  rintro (err | ⟨current_id, secret, pt, tt⟩) s' hs'
  · exact ret_safe hK hs'
  refine Quiet.safe hK ?_ hs'
  rintro (err | prev_key) s' hs'
  · exact ret_safe hK hs'
  dsimp only
  cases checked_succ current_id with
  | none => exact ret_safe hK hs'
  | some new_epoch_id =>
  refine Quiet.safe hK ?_ hs'
  intro created_at s' hs'
  apply Prog.Safe.step_of_stable hK _ _ hs'
  · intro s' now hinv hunused
    exact ⟨hinv.insert hunused _ pt tt created_at, exec_rely _ now s'⟩
  rintro (err | ⟨⟩) s' hs'
  · exact ret_safe hK hs'
  refine Quiet.safe hK ?_ hs'
  intro _ s' hs'
  refine Quiet.safe hK ?_ hs'
  intro _ s' hs'
  apply Prog.Safe.step_of_stable hK _ _ hs'
  · intro s' now hinv _
    exact ⟨hinv.retire sid current_id, exec_rely _ now s'⟩
  intro _ s' hs'
  exact ret_safe hK hs'

theorem check_and_rotate_safe (sid : SessionId) (hK : races.Stable tid K) {s : Traffic} (hs : K s) :
    (check_and_rotate c cfg sid).Safe (traffic c) unraced races tid (fun _ => K) s := by
  unfold check_and_rotate
  refine Quiet.safe hK ?_ hs
  rintro (_ | current_id) s' hs'
  · exact ret_safe hK hs'
  refine Quiet.safe hK ?_ hs'
  rintro (_ | _ | _) s' hs'
  · exact ret_safe hK hs'
  · exact ret_safe hK hs'
  · exact (rotate_epoch_safe sid hK hs').bind fun _ s'' _ h => ret_safe hK h

theorem authenticate_safe (buffer : List UInt8) (s : Traffic) :
    (authenticate c buffer).Safe (traffic c) unraced races tid (fun _ _ => True) s := by
  have hK : races.Stable tid fun _ => True := fun _ _ _ _ => trivial
  have hret : ∀ (r : Result (FrameHeader × Key × List UInt8)) s',
      (Prog.ret r : Prog Section _).Safe (traffic c) unraced races tid (fun _ _ => True) s' :=
    fun _ _ _ _ _ => trivial
  unfold authenticate
  cases decode_header buffer with
  | error err => exact hret _ s
  | ok h =>
  refine Quiet.safe hK ?_ trivial
  rintro (_ | _ | _) s' -
  · exact hret _ s'
  · exact hret _ s'
  refine Quiet.safe hK ?_ trivial
  rintro (_ | ⟨_ | _, reason⟩) s' -
  · exact hret _ s'
  · exact hret _ s'
  refine Quiet.safe hK ?_ trivial
  rintro (_ | _ | key) s' -
  · exact hret _ s'
  · exact hret _ s'
  dsimp only
  cases c.aes_gcm_decrypt key (derive_iv c key h.epoch_id h.psn) (h.ciphertext ++ h.auth_tag)
    h.header with
  | none => exact hret _ s'
  | some plaintext => exact hret _ s'

theorem accept_authenticated_safe (skip : Bool) (h : FrameHeader) (key : Key)
    (plaintext : List UInt8) (s : Traffic) :
    (accept_authenticated c cfg schemas skip h key plaintext).Safe (traffic c) unraced races tid
      (fun r s' => ∀ f, r = .ok f → (tid, ⟨f.session_id, f.epoch_id, f.psn⟩) ∈ s'.accepted) s := by
  let entry : ℕ × AcceptedFrame := (tid, ⟨h.session_id, h.epoch_id, h.psn⟩)
  have hK : races.Stable tid fun s => entry ∈ s.accepted := fun _ _ hrel hmem => hrel.2 hmem
  let post (r : Result ParsedMEASCFrame) (s' : Traffic) : Prop :=
    ∀ f, r = .ok f → (tid, ⟨f.session_id, f.epoch_id, f.psn⟩) ∈ s'.accepted
  have herr : ∀ err s', (Prog.ret (.error err) : Prog Section _).Safe (traffic c) unraced races tid
      post s' := by
    intro err s' s'' _ _ f hf
    cases hf
  have hok : ∀ s', entry ∈ s'.accepted → (Prog.ret (.ok (parsed_frame c h key plaintext)) :
      Prog Section _).Safe (traffic c) unraced races tid post s' := by
    intro s' hmem
    refine Prog.Safe.ret_of_stable hK ?_ hmem
    intro s'' hmem' f hf
    obtain rfl := Except.ok.inj hf
    exact hmem'
  unfold accept_authenticated
  intro s' _ hinv now _
  refine ⟨hinv.check_and_accept c tid _ _ _ now, fun j _ => exec_rely _ now s' j, ?_⟩
  change (_ : Prog Section _).Safe (traffic c) unraced races tid _
    (s'.exec c tid (.check_and_accept h.session_id h.epoch_id h.psn) now).1
  cases he : s'.tables.epoch h.session_id h.epoch_id with
  | none =>
    simp only [traffic, Traffic.exec, exec, with_epoch_mut, he, map_none]
    exact herr _ _
  | some e =>
  have hans : ((traffic c).exec tid (.check_and_accept h.session_id h.epoch_id h.psn) now s').2 =
      some (e.replay_window.check_and_accept now h.psn).2 := by
    simp only [traffic, Traffic.exec, exec, with_epoch_mut, he, map_some]
  have hlog : (e.replay_window.check_and_accept now h.psn).2.1 = true → entry ∈
      (s'.exec c tid (.check_and_accept h.session_id h.epoch_id h.psn) now).1.accepted := by
    intro htrue
    simp only [Traffic.exec, accepted_by, he, bind_some, if_pos htrue, toList_some,
      map_singleton, singleton_append]
    exact mem_cons_self
  rw [hans]
  generalize (s'.exec c tid (.check_and_accept h.session_id h.epoch_id h.psn) now).1 = s1 at hlog ⊢
  rcases hverdict : (e.replay_window.check_and_accept now h.psn).2 with ⟨_ | _, reason⟩
  · exact herr _ s1
  rw [hverdict] at hlog
  refine Quiet.safe hK ?_ (hlog rfl)
  intro _ s2 hs2
  cases validate_schema schemas skip h.schema_id plaintext with
  | error err => exact herr err s2
  | ok _ =>
  refine Quiet.safe hK ?_ hs2
  rintro (_ | _ | _) s3 hs3
  · exact hok s3 hs3
  · exact hok s3 hs3
  · exact (check_and_rotate_safe h.session_id hK hs3).bind fun _ s4 _ hs4 => hok s4 hs4

def Call.Logged (tid : ℕ) : Call → Outcome → Traffic → Prop
  | .build_frame sid eid _, .frame (some (.ok (_, psn))), s =>
    ∃ key, (tid, ⟨sid, key, eid, psn⟩) ∈ s.built
  | .parse_frame _ _, .parsed (.ok f), s => (tid, ⟨f.session_id, f.epoch_id, f.psn⟩) ∈ s.accepted
  | _, _, _ => True

def Call.races : Call → Bool
  | .rotate_epoch _ => true
  | .check_and_rotate _ => true
  | .build_frame _ _ _ => true
  | .parse_frame _ _ => true
  | _ => false

theorem build_frame_on_safe (sid : SessionId) (eid : UInt32) (a : FrameArgs) (s : Traffic) :
    (build_frame_on sid eid a).Safe (traffic c) unraced races tid
      (fun r s' => ∀ wire psn, r = some (.ok (wire, psn)) →
        ∃ key, (tid, ⟨sid, key, eid, psn⟩) ∈ s'.built) s := by
  unfold build_frame_on
  intro s' _ hinv now _
  refine ⟨hinv.build_frame c tid _ _ _ now, fun j _ => exec_rely _ now s' j, ?_⟩
  intro s'' hrel _ wire psn hr
  -- the epoch is there, and the entry just made carries its key
  simp only [traffic, Traffic.exec, exec, with_epoch_mut] at hr
  obtain ⟨e, he, hbuilt⟩ := map_eq_some_iff.mp hr
  have hid := (hinv.slot sid eid e he).epoch.epoch_id
  refine ⟨e.key, hrel.1 (mem_append_left _ ?_)⟩
  simp only [built_by, he, bind_some, hbuilt, hid, toList_some, map_singleton, mem_singleton]

theorem Call.prog_safe {call : Call} (hcall : call.races = true) (s : Traffic) :
    (call.prog c cfg schemas).Safe (traffic c) unraced Saacp.races tid (call.Logged tid) s := by
  have hK : Saacp.races.Stable tid fun _ => True := fun _ _ _ _ => trivial
  cases call with
  | rotate_epoch sid =>
    refine (rotate_epoch_safe sid hK (s := s) trivial).bind ?_
    intro r s' _ _ s'' _ _
    trivial
  | check_and_rotate sid =>
    refine (check_and_rotate_safe sid hK (s := s) trivial).bind ?_
    intro r s' _ _ s'' _ _
    trivial
  | build_frame sid eid a =>
    refine (build_frame_on_safe sid eid a s).bind ?_
    rintro (_ | _ | ⟨wire, psn⟩) s' _ hlog s'' hrel _
    · trivial
    · trivial
    · obtain ⟨key, hmem⟩ := hlog wire psn rfl
      exact ⟨key, hrel.1 hmem⟩
  | parse_frame buffer skip =>
    have hparse : (Saacp.parse_frame c cfg schemas buffer skip).Safe (traffic c) unraced
        Saacp.races tid (fun r s' => ∀ f, r = .ok f →
          (tid, ⟨f.session_id, f.epoch_id, f.psn⟩) ∈ s'.accepted) s := by
      refine (authenticate_safe buffer s).bind ?_
      rintro (err | ⟨h, key, plaintext⟩) s' _ _
      · intro s'' _ _ f hf
        cases hf
      · exact accept_authenticated_safe skip h key plaintext s'
    refine hparse.bind ?_
    rintro (err | f) s' _ hlog s'' hrel _
    · trivial
    · exact hrel.2 (hlog f rfl)
  | create_session | destroy_session | reap_idle_sessions | expire_old_epochs => cases hcall

/-! ## All interleavings -/

variable (c cfg schemas)

def race (t : EpochTables) (jobs : List Call) : Pool Section Traffic Outcome where
  threads := jobs.map fun job => job.prog c cfg schemas
  state := ⟨t, [], []⟩

def no_daemon : Empty → Traffic → Traffic := fun d _ => nomatch d

/-- **No reuse in an unraced run.** Any number of calls of `rotate_epoch`, `check_and_rotate`,
`build_frame` and `parse_frame` run concurrently from any reachable state, in any interleaving
of their lock scopes that meets the condition at every insertion. Then in every state reached
no two frames of a session were built under one key, epoch and PSN, and no two calls have
accepted one frame. -/
theorem no_reuse_unless_raced (calls : List (Call × Clock)) (jobs : List Call)
    (hjobs : ∀ job ∈ jobs, job.races = true) (ticks : List (Tick Instant Empty))
    (hunraced : (race c cfg schemas (after c cfg schemas calls) jobs).Respects (traffic c) no_daemon
      unraced ticks)
    (p : Pool Section Traffic Outcome)
    (hp : p = (race c cfg schemas (after c cfg schemas calls) jobs).run (traffic c) no_daemon
      ticks) :
    (p.state.built.map Prod.snd).Nodup ∧
    (∀ (i : ℕ) sid eid a wire psn, jobs[i]? = some (.build_frame sid eid a) →
      p.threads[i]? = some (.ret (.frame (some (.ok (wire, psn))))) →
      ∃ key, (i, ⟨sid, key, eid, psn⟩) ∈ p.state.built) ∧
    ∀ (i j : ℕ) buffer skip buffer' skip' f g, i ≠ j →
      jobs[i]? = some (.parse_frame buffer skip) → jobs[j]? = some (.parse_frame buffer' skip') →
      p.threads[i]? = some (.ret (.parsed (.ok f))) →
      p.threads[j]? = some (.ret (.parsed (.ok g))) →
      (f.session_id, f.epoch_id, f.psn) ≠ (g.session_id, g.epoch_id, g.psn) := by
  have hstart : (race c cfg schemas (after c cfg schemas calls) jobs).Safe (traffic c) unraced
      Saacp.races (fun i r s => ∀ job, jobs[i]? = some job → job.Logged i r s) := by
    refine ⟨(consistent_run c cfg schemas calls).sound, ?_⟩
    intro i q hq
    change (jobs.map fun job => job.prog c cfg schemas)[i]? = some q at hq
    rw [List.getElem?_map] at hq
    obtain ⟨job, hjob, rfl⟩ := map_eq_some_iff.mp hq
    refine (Call.prog_safe (hjobs job (mem_of_getElem? hjob)) _).weaken ?_
    intro r s hlog job' hjob'
    rw [hjob] at hjob'
    obtain rfl := Option.some.inj hjob'
    exact hlog
  have hsafe := hstart.run (fun d => nomatch d) ticks hunraced
  rw [← hp] at hsafe
  have hsound : Sound p.state := hsafe.inv
  refine ⟨?_, ?_, ?_⟩
  · -- the key of an entry is not even needed to tell it from the others
    have hnodup := hsound.built_nodup
    rw [← Function.comp_def (fun b : BuiltFrame => (b.session_id, b.epoch_id, b.psn)) Prod.snd,
      ← List.map_map] at hnodup
    exact hnodup.of_map _
  · intro i sid eid a wire psn hjob hret
    exact hsafe.post_of_ret hret _ hjob
  · intro i j buffer skip buffer' skip' f g hij hi hj hf hg heq
    have hfi := hsafe.post_of_ret hf _ hi
    have hgj := hsafe.post_of_ret hg _ hj
    obtain ⟨hsid, heid, hpsn⟩ : f.session_id = g.session_id ∧ f.epoch_id = g.epoch_id ∧
        f.psn = g.psn := by
      rw [Prod.mk.injEq, Prod.mk.injEq] at heq
      exact heq
    have hsame := inj_on_of_nodup_map hsound.accepted_nodup hfi hgj
      (by rw [hsid, heid, hpsn])
    exact hij (congrArg Prod.fst hsame)

end

def schedule_of (threads : List ℕ) : List (Tick Instant Empty) :=
  threads.map fun i => .thread i 1

def sampleJobs : List Call :=
  [.build_frame sampleSid 0 sampleArgs, .rotate_epoch sampleSid,
    .build_frame sampleSid 1 sampleArgs]

theorem no_reuse_in_turn :
    (((race sampleCrypto .new sampleSchemas (after sampleCrypto .new sampleSchemas sampleCreated)
      sampleJobs).run (traffic sampleCrypto) no_daemon
        (schedule_of [0, 1, 1, 1, 1, 1, 1, 1, 2])).state.built.map Prod.snd).Nodup := by
  refine (no_reuse_unless_raced sampleCrypto .new sampleSchemas sampleCreated sampleJobs
    (by decide) (schedule_of [0, 1, 1, 1, 1, 1, 1, 1, 2]) ?_ _ rfl).1
  decide +kernel

/-- **A race.** Two rotations overlap: both have read epoch 0 before either moves on. A frame
is built on the epoch 1 of the first, the second replaces that epoch, and another frame is
built: the same key, epoch and PSN. -/
theorem raced_rotations_reuse_psn :
    ¬ (((race sampleCrypto .new sampleSchemas (after sampleCrypto .new sampleSchemas sampleCreated)
      [.rotate_epoch sampleSid, .rotate_epoch sampleSid, .build_frame sampleSid 1 sampleArgs,
        .build_frame sampleSid 1 sampleArgs]).run (traffic sampleCrypto) no_daemon
        (schedule_of [0, 0, 0, 0, 1, 1, 1, 2, 1, 3])).state.built.map Prod.snd).Nodup := by
  decide +kernel

end Saacp
