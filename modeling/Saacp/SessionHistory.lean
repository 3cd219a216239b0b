/-
The **history of one session** in a run of the manager.

Seen from a single session, a call leaves it with nothing it did not have before
(`EpochTables.Follows`), creates it, or rotates it. `Call.session_step` says so once, and key
agreement and the end of rotated epochs are case analyses over it.
-/
import Saacp.SessionTables

set_option autoImplicit false

open Atomic

namespace Saacp

open EpochTables Option Table Call SessionMeta UInt32 SessionEpoch

/-! ## Nothing new for a session -/

/-- What `t'` holds of session `sid` it has from `t`. -/
structure EpochTables.Follows (sid : SessionId) (t t' : EpochTables) : Prop where
  metas : ∀ m', t'.metas.get sid = some m' → ∃ m, t.metas.get sid = some m ∧
    m'.secret = m.secret ∧ m'.current_epoch = m.current_epoch
  epochs : ∀ eid e', t'.epoch sid eid = some e' → ∃ e, t.epoch sid eid = some e ∧
    e'.key = e.key ∧ e'.destroyed = e.destroyed

namespace EpochTables.Follows

variable {sid : SessionId} {t t' t'' : EpochTables}

theorem refl (sid : SessionId) (t : EpochTables) : Follows sid t t :=
  ⟨fun m' hm => ⟨m', hm, rfl, rfl⟩, fun _ e' he => ⟨e', he, rfl, rfl⟩⟩

theorem trans (h : Follows sid t t') (h' : Follows sid t' t'') : Follows sid t t'' := by
  constructor
  · intro m'' hm''
    obtain ⟨m', hm', hsec', hcur'⟩ := h'.metas m'' hm''
    obtain ⟨m, hm, hsec, hcur⟩ := h.metas m' hm'
    exact ⟨m, hm, hsec'.trans hsec, hcur'.trans hcur⟩
  · intro eid e'' he''
    obtain ⟨e', he', hkey', hdead'⟩ := h'.epochs eid e'' he''
    obtain ⟨e, he, hkey, hdead⟩ := h.epochs eid e' he'
    exact ⟨e, he, hkey'.trans hkey, hdead'.trans hdead⟩

theorem of_get_eq (hs : t'.sessions.get sid = t.sessions.get sid)
    (hm : t'.metas.get sid = t.metas.get sid) : Follows sid t t' := by
  constructor
  · intro m' hm'
    exact ⟨m', hm ▸ hm', rfl, rfl⟩
  · intro eid e' he'
    refine ⟨e', ?_, rfl, rfl⟩
    rwa [epoch, hs] at he'

theorem without (sid sid' : SessionId) (t : EpochTables) : Follows sid t (t.without sid') := by
  by_cases heq : sid = sid'
  · subst heq
    constructor
    · intro m' hm'
      rw [EpochTables.without, get_remove, if_pos rfl] at hm'
      cases hm'
    · intro eid e' he'
      rw [EpochTables.epoch, EpochTables.without, get_remove, if_pos rfl] at he'
      cases he'
  · apply of_get_eq
    · rw [EpochTables.without, get_remove, if_neg heq]
    · rw [EpochTables.without, get_remove, if_neg heq]

theorem drop_epoch (sid : SessionId) (p : SessionId × UInt32) (t : EpochTables) :
    Follows sid t (t.drop_epoch p) := by
  refine ⟨fun m' hm => ⟨m', hm, rfl, rfl⟩, ?_⟩
  intro eid e' he'
  obtain ⟨epochs', hs', hget'⟩ := epoch_eq.mp he'
  rw [EpochTables.drop_epoch, Table.get_modify] at hs'
  refine ⟨e', epoch_eq.mpr ?_, rfl, rfl⟩
  split at hs'
  · rename_i heq
    obtain ⟨epochs, hs, rfl⟩ := map_eq_some_iff.mp hs'
    rw [get_remove] at hget'
    split at hget'
    · cases hget'
    · exact ⟨epochs, heq ▸ hs, hget'⟩
  · exact ⟨epochs', hs', hget'⟩

theorem modify_epoch (sid sid' : SessionId) (eid : UInt32) (t : EpochTables)
    {f : SessionEpoch → SessionEpoch}
    (hf : ∀ e, (f e).key = e.key ∧ (f e).destroyed = e.destroyed) :
    Follows sid t (t.modify_epoch sid' eid f) := by
  refine ⟨fun m' hm => ⟨m', hm, rfl, rfl⟩, ?_⟩
  intro eid' e' he'
  rw [epoch_modify_epoch] at he'
  split at he'
  · rename_i heq
    obtain ⟨e, he, rfl⟩ := map_eq_some_iff.mp he'
    rw [heq.1, heq.2]
    exact ⟨e, he, hf e⟩
  · exact ⟨e', he', rfl, rfl⟩

theorem noted (sid sid' : SessionId) (now : Instant) (t : EpochTables) :
    Follows sid t (t.noted sid' now) := by
  refine ⟨?_, fun _ e' he => ⟨e', he, rfl, rfl⟩⟩
  revert sid
  exact forall_modify (fun _ m hm => ⟨m, hm, rfl, rfl⟩) fun m hm => ⟨m, hm, rfl, rfl⟩

theorem ruled (sid sid' : SessionId) (eid : UInt32) (psn : UInt64) (now : Instant)
    (t : EpochTables) : Follows sid t (t.ruled sid' eid psn now) :=
  modify_epoch sid sid' eid t fun _ => ⟨rfl, rfl⟩

theorem built (c : Crypto) (sid sid' : SessionId) (eid : UInt32) (a : FrameArgs) (t : EpochTables) :
    Follows sid t (t.with_epoch_mut sid' eid fun e => build_frame c e a).1 := by
  apply modify_epoch
  intro e
  rw [build_frame_only_sequencer]
  exact ⟨rfl, rfl⟩

end EpochTables.Follows

/-! ## What a call does to a session -/

/-- The secret and the transcript hash a call created session `sid` with, if it did. -/
def Call.creates (sid : SessionId) : Call → Outcome → Option (Key × Option Key)
  | .create_session sid' session_secret _ _ suite_transcript_hash, .epoch (.ok _) =>
    if sid' = sid then some (session_secret, suite_transcript_hash) else none
  | _, _ => none

/-- What a call does to session `sid`, with what it created the session from. -/
inductive SessionStep (c : Crypto) (cfg : ManagerConfig) (sid : SessionId) (t : EpochTables) :
    Option (Key × Option Key) → EpochTables → Prop
  | kept (t' : EpochTables) (h : t.Follows sid t') : SessionStep c cfg sid t none t'
  | created (secret : Key) (tx : Option Key) (pt : UInt64) (tt : Secs) (hex : String)
    (t0 t1 : Instant) (hnew : t.sessions.get sid = none) :
    SessionStep c cfg sid t (some (secret, tx))
      (t.created c sid (bound_secret c secret tx) pt tt hex t0 t1)
  | rotated (t' t'' : EpochTables) (n : UInt32) (h : t.Follows sid t')
    (hrot : t'.RotatesTo c cfg sid n t'') : SessionStep c cfg sid t none t''

section

variable (c : Crypto) (cfg : ManagerConfig) (schemas : SchemaRegistry) (sid : SessionId)

variable {t t' : EpochTables} {o : Option (Key × Option Key)}

theorem SessionStep.of_rotation {t'' : EpochTables} {sid' : SessionId} {n : UInt32}
    (h : t.Follows sid t') (hrot : t'.RotatesTo c cfg sid' n t'') :
    SessionStep c cfg sid t none t'' := by
  by_cases heq : sid = sid'
  · subst heq
    exact .rotated t' t'' n h hrot
  · obtain ⟨m, e, t0, t1, -, -, -, -, -, rfl⟩ := hrot
    refine .kept _ (h.trans (.of_get_eq ?_ ?_))
    · rw [EpochTables.rotated, get_modify, if_neg heq, get_modify, if_neg heq]
    · rw [EpochTables.rotated, get_modify, if_neg heq]

theorem SessionStep.of_parse {clk : Clock} {buffer : List UInt8}
    {skip : Bool} {r : Result ParsedMEASCFrame}
    (heff : ParseEffect c cfg schemas clk t buffer skip t' r) :
    SessionStep c cfg sid t none t' := by
  cases heff with
  | refused err hauth => exact .kept _ (.refl sid t)
  | replayed h pt e now reason hauth hrule => exact .kept _ (.ruled _ _ _ _ _ t)
  | invalid h pt e now now' reason err hauth hrule hschema =>
    exact .kept _ ((EpochTables.Follows.ruled _ _ _ _ _ t).trans (.noted _ _ _ _))
  | accepted h pt e now now' reason t' hauth hrule hschema hrot =>
    have hkept := (EpochTables.Follows.ruled sid h.session_id h.epoch_id h.psn now t).trans
      (.noted sid h.session_id now' _)
    rcases hrot with rfl | ⟨n, hrot⟩
    · exact .kept _ hkept
    · exact .of_rotation c cfg sid hkept hrot

/-- **What a call can do to a session.** -/
theorem Call.session_step (t : EpochTables) (call : Call) (clk : Clock) :
    SessionStep c cfg sid t (call.creates sid (call.run c cfg schemas clk t).2)
      (call.run c cfg schemas clk t).1 := by
  unfold run
  cases call
  all_goals rw [prog, perform_map]
  case create_session sid' secret pt tt tx =>
    rcases create_session_cases c cfg sid' clk t secret pt tt tx with
      ⟨e, heq⟩ | ⟨hnew, -, hex, t0, t1, heq⟩
    · rw [heq]
      exact .kept t (.refl sid t)
    · rw [heq]
      unfold creates
      by_cases hsid : sid' = sid
      · subst hsid
        dsimp only
        rw [if_pos rfl]
        exact .created secret tx pt tt hex t0 t1 hnew
      · dsimp only
        rw [if_neg hsid]
        refine .kept _ (.of_get_eq ?_ ?_)
        all_goals rw [created, get_insert, if_neg (Ne.symm hsid)]
  case rotate_epoch sid' =>
    rcases rotate_epoch_cases c cfg sid' clk t with ⟨e, heq⟩ | ⟨n, t', hrot, heq⟩
    · rw [heq]
      exact .kept t (.refl sid t)
    · rw [heq]
      exact .of_rotation c cfg sid (.refl sid t) hrot
  case check_and_rotate sid' =>
    rcases check_and_rotate_cases c cfg sid' clk t with heq | ⟨n, t', hrot, heq⟩
    · rw [heq]
      exact .kept t (.refl sid t)
    · rw [heq]
      exact .of_rotation c cfg sid (.refl sid t) hrot
  case destroy_session sid' =>
    exact .kept _ (.without sid sid' t)
  case reap_idle_sessions =>
    refine .kept _ ?_
    exact reap_idle_sessions_keeps c cfg clk t (P := t.Follows sid)
      (fun t' sid' h => h.trans (.without sid sid' t')) (.refl sid t)
  case expire_old_epochs g =>
    refine .kept _ ?_
    exact expire_old_epochs_keeps c clk t (P := t.Follows sid) g
      (fun t' p _ _ _ h => h.trans (.drop_epoch sid p t')) (.refl sid t)
  case build_frame sid' eid a =>
    exact .kept _ (.built c sid sid' eid a t)
  case parse_frame buffer skip =>
    exact .of_parse c cfg schemas sid (parse_frame_effect c cfg schemas clk t buffer skip)

/-! ## Runs -/

def history (t : EpochTables) (calls : List (Call × Clock)) : List (Call × Outcome) :=
  (calls.map Prod.fst).zip (run_calls c cfg schemas t calls).2

def origin (log : List (Call × Outcome)) : Option (Key × Option Key) :=
  log.foldl (fun last x => (x.1.creates sid x.2).or last) none

/-- The run rule for a property of the tables and of what the session was last created
from. -/
theorem run_calls_origin {P : EpochTables → Option (Key × Option Key) → Prop}
    (hstep : ∀ t o call clk, P t o → P (run c cfg schemas call clk t).1
      ((call.creates sid (run c cfg schemas call clk t).2).or o))
    (calls : List (Call × Clock)) (t : EpochTables) (o : Option (Key × Option Key))
    (h : P t o) : P (run_calls c cfg schemas t calls).1
      ((history c cfg schemas t calls).foldl (fun last x => (x.1.creates sid x.2).or last) o) := by
  induction calls generalizing t o with
  | nil => exact h
  | cons call calls ih => exact ih _ _ (hstep t o call.1 call.2 h)

/-! ## Key agreement -/

/-- The root and the live key of `sid` are those of the abstract schedule. -/
def Scheduled (t : EpochTables) (o : Option (Key × Option Key)) : Prop :=
  ∀ m, t.metas.get sid = some m → ∃ secret tx, o = some (secret, tx) ∧
    m.secret = (schedule c cfg.root_ratchet sid (bound_secret c secret tx)
      m.current_epoch.toNat).1 ∧
    ∀ e, t.epoch sid m.current_epoch = some e → e.destroyed = false →
      e.key = (schedule c cfg.root_ratchet sid (bound_secret c secret tx) m.current_epoch.toNat).2

variable {c cfg sid}

theorem Scheduled.follows
    (h : Scheduled c cfg sid t o) (hf : t.Follows sid t') : Scheduled c cfg sid t' o := by
  intro m' hm'
  obtain ⟨m, hm, hsec, hcur⟩ := hf.metas m' hm'
  obtain ⟨secret, tx, ho, hroot, hkey⟩ := h m hm
  refine ⟨secret, tx, ho, ?_, ?_⟩
  · rw [hsec, hcur, hroot]
  · intro e' he' hlive'
    rw [hcur] at he' ⊢
    obtain ⟨e, he, hk, hd⟩ := hf.epochs _ e' he'
    rw [hk]
    exact hkey e he (hd ▸ hlive')

theorem Scheduled.created (t : EpochTables) (secret : Key) (tx : Option Key) (pt : UInt64)
    (tt : Secs) (hex : String) (t0 t1 : Instant) :
    Scheduled c cfg sid (t.created c sid (bound_secret c secret tx) pt tt hex t0 t1)
      (some (secret, tx)) := by
  intro m hm
  rw [EpochTables.created, get_insert_self] at hm
  obtain rfl := some.inj hm
  refine ⟨secret, tx, rfl, rfl, ?_⟩
  intro e he _
  rw [EpochTables.epoch, EpochTables.created, get_insert_self, bind_some, get_insert_self] at he
  obtain rfl := some.inj he
  rfl

theorem Scheduled.rotated {n : UInt32} (h : Scheduled c cfg sid t o)
    (hrot : t.RotatesTo c cfg sid n t') : Scheduled c cfg sid t' o := by
  obtain ⟨m, e, t0, t1, hm, he, hlive, hmax, rfl, rfl⟩ := hrot
  obtain ⟨secret, tx, ho, hroot, hkey⟩ := h m hm
  have hlt := UInt32.lt_add_one hmax
  obtain ⟨hnat, hof⟩ := toNat_succ hlt
  intro m' hm'
  rw [meta_rotated c cfg hm] at hm'
  obtain rfl := some.inj hm'
  refine ⟨secret, tx, ho, ?_, ?_⟩
  · rw [hnat, schedule, hof, ← hroot, ← hkey e he hlive]
  · intro e' he' _
    rw [epoch_rotated c cfg he hmax, if_neg (UInt32.ne_of_lt hlt).symm, if_pos rfl] at he'
    obtain rfl := Option.some.inj he'
    rw [hnat, schedule, hof, ← hroot, ← hkey e he hlive]
    rfl

theorem Scheduled.step {o' : Option (Key × Option Key)} (h : Scheduled c cfg sid t o)
    (hstep : SessionStep c cfg sid t o' t') : Scheduled c cfg sid t' (o'.or o) := by
  cases hstep with
  | kept _ hf => exact h.follows hf
  | created secret tx pt tt hex t0 t1 hnew => exact .created t secret tx pt tt hex t0 t1
  | rotated t1 _ n hf hrot => exact (h.follows hf).rotated hrot

variable (c cfg sid)

theorem scheduled_run (calls : List (Call × Clock)) :
    Scheduled c cfg sid (after c cfg schemas calls)
      (origin sid (history c cfg schemas empty calls)) := by
  apply run_calls_origin c cfg schemas sid
  · intro t o call clk h
    exact h.step (call.session_step c cfg schemas sid t clk)
  · intro m hm
    cases hm

theorem keys_on_schedule (calls : List (Call × Clock)) (secret : Key)
    (tx : Option Key) (n : UInt32)
    (horigin : origin sid (history c cfg schemas empty calls) = some (secret, tx))
    (hn : ((after c cfg schemas calls).metas.get sid).map current_epoch = some n) :
    ((after c cfg schemas calls).metas.get sid).map SessionMeta.secret =
        some (schedule c cfg.root_ratchet sid (bound_secret c secret tx) n.toNat).1 ∧
      (after c cfg schemas calls).with_epoch sid n traffic_key =
        some (.ok (schedule c cfg.root_ratchet sid (bound_secret c secret tx) n.toNat).2) := by
  obtain ⟨m, hm, rfl⟩ := map_eq_some_iff.mp hn
  obtain ⟨secret', tx', ho, hroot, hkey⟩ := scheduled_run c cfg schemas sid calls m hm
  rw [horigin] at ho
  obtain ⟨rfl, rfl⟩ := Prod.mk.inj (some.inj ho)
  -- the current epoch is there and live, by the session-table invariant
  obtain ⟨epochs, eids, hs, -, hok⟩ := (consistent_run c cfg schemas calls).of_meta hm
  obtain ⟨e, he, hlive⟩ := hok.current
  have hep := epoch_eq.mpr ⟨epochs, hs, he⟩
  refine ⟨?_, ?_⟩
  · rw [hm, map_some, hroot]
  · rw [with_epoch, hep, map_some, traffic_key, hlive, ← hkey e hep hlive]
    rfl

/-- **Peers agree on the key schedule.** Two managers with the same ratchet setting, on which
the session was created from the same secret and transcript hash, hold the same root and the
same traffic key whenever both are at epoch `n`: those of the abstract schedule. -/
theorem peers_agree (cfg₁ cfg₂ : ManagerConfig) (schemas₁ schemas₂ : SchemaRegistry)
    (hratchet : cfg₁.root_ratchet = cfg₂.root_ratchet)
    (calls₁ calls₂ : List (Call × Clock)) (secret : Key) (tx : Option Key)
    (horigin₁ : origin sid (history c cfg₁ schemas₁ EpochTables.empty calls₁) = some (secret, tx))
    (horigin₂ : origin sid (history c cfg₂ schemas₂ EpochTables.empty calls₂) = some (secret, tx))
    (n : UInt32)
    (hn₁ : ((after c cfg₁ schemas₁ calls₁).metas.get sid).map SessionMeta.current_epoch = some n)
    (hn₂ : ((after c cfg₂ schemas₂ calls₂).metas.get sid).map SessionMeta.current_epoch = some n) :
    ∃ root key, (root, key) = schedule c cfg₁.root_ratchet sid (bound_secret c secret tx) n.toNat ∧
      ((after c cfg₁ schemas₁ calls₁).metas.get sid).map SessionMeta.secret = some root ∧
      ((after c cfg₂ schemas₂ calls₂).metas.get sid).map SessionMeta.secret = some root ∧
      (after c cfg₁ schemas₁ calls₁).with_epoch sid n SessionEpoch.traffic_key = some (.ok key) ∧
      (after c cfg₂ schemas₂ calls₂).with_epoch sid n SessionEpoch.traffic_key =
        some (.ok key) := by
  obtain ⟨hroot₁, hkey₁⟩ := keys_on_schedule c cfg₁ schemas₁ sid calls₁ secret tx n horigin₁ hn₁
  obtain ⟨hroot₂, hkey₂⟩ := keys_on_schedule c cfg₂ schemas₂ sid calls₂ secret tx n horigin₂ hn₂
  rw [← hratchet] at hroot₂ hkey₂
  exact ⟨_, _, rfl, hroot₁, hroot₂, hkey₁, hkey₂⟩

end

def samplePeer : List (Call × Clock) :=
  sampleCreated ++ [(.build_frame sampleSid 0 sampleArgs, fun _ => 1),
    (.rotate_epoch sampleSid, fun _ => 2)]

theorem peers_agree_at_one : ∃ root key,
    (root, key) = schedule sampleCrypto ManagerConfig.new.root_ratchet sampleSid
      (bound_secret sampleCrypto sampleSecret none) (1 : UInt32).toNat ∧
    ((after sampleCrypto .new sampleSchemas sampleRotated).metas.get sampleSid).map
      SessionMeta.secret = some root ∧
    ((after sampleCrypto .new sampleSchemas samplePeer).metas.get sampleSid).map
      SessionMeta.secret = some root ∧
    (after sampleCrypto .new sampleSchemas sampleRotated).with_epoch sampleSid 1
      SessionEpoch.traffic_key = some (.ok key) ∧
    (after sampleCrypto .new sampleSchemas samplePeer).with_epoch sampleSid 1
      SessionEpoch.traffic_key = some (.ok key) :=
  peers_agree sampleCrypto sampleSid .new .new sampleSchemas sampleSchemas rfl sampleRotated
    samplePeer sampleSecret none (by decide +kernel) (by decide +kernel) 1 (by decide +kernel)
    (by decide +kernel)

/-! ## No grace period -/

/-- Epoch `n` of the session lies behind it, and is destroyed if it is still there. -/
structure Retired (sid : SessionId) (n : UInt32) (t : EpochTables) : Prop where
  passed : ∀ m, t.metas.get sid = some m → n < m.current_epoch
  dead : ∀ e, t.epoch sid n = some e → e.destroyed = true

section

variable {c : Crypto} {cfg : ManagerConfig} {sid : SessionId} {n : UInt32} {t t' : EpochTables}

theorem Retired.follows (h : Retired sid n t) (hf : t.Follows sid t') : Retired sid n t' := by
  constructor
  · intro m' hm'
    obtain ⟨m, hm, -, hcur⟩ := hf.metas m' hm'
    rw [hcur]
    exact h.passed m hm
  · intro e' he'
    obtain ⟨e, he, -, hd⟩ := hf.epochs n e' he'
    rw [hd]
    exact h.dead e he

theorem Retired.rotated {n' : UInt32} (h : Retired sid n t)
    (hrot : t.RotatesTo c cfg sid n' t') : Retired sid n t' := by
  obtain ⟨m, e, t0, t1, hm, he, -, hmax, rfl, rfl⟩ := hrot
  have hpassed := h.passed m hm
  have hlt := UInt32.lt_add_one hmax
  constructor
  · intro m' hm'
    rw [meta_rotated c cfg hm] at hm'
    obtain rfl := some.inj hm'
    exact UInt32.lt_trans hpassed hlt
  · intro e' he'
    rw [epoch_rotated c cfg he hmax, if_neg (UInt32.ne_of_lt hpassed),
      if_neg (UInt32.ne_of_lt (UInt32.lt_trans hpassed hlt))] at he'
    exact h.dead e' he'

theorem retired_of_rotation {n' : UInt32} (hrot : t.RotatesTo c cfg sid n' t')
    (hn : (t.metas.get sid).map current_epoch = some n) : Retired sid n t' := by
  obtain ⟨m, e, t0, t1, hm, he, -, hmax, rfl, rfl⟩ := hrot
  rw [hm] at hn
  obtain rfl := some.inj hn
  constructor
  · intro m' hm'
    rw [meta_rotated c cfg hm] at hm'
    obtain rfl := some.inj hm'
    exact UInt32.lt_add_one hmax
  · intro e' he'
    rw [epoch_rotated c cfg he hmax, if_pos rfl] at he'
    obtain rfl := some.inj he'
    exact destroy_destroyed _

theorem retired_of_call {o : Option (Key × Option Key)} (hc : Consistent cfg t)
    (hstep : SessionStep c cfg sid t o t')
    (hn : (t.metas.get sid).map current_epoch = some n)
    (hn' : (t'.metas.get sid).map current_epoch = some (n + 1)) : Retired sid n t' := by
  obtain ⟨m, hm, hcur⟩ := map_eq_some_iff.mp hn
  cases hstep with
  | kept _ hf =>
    obtain ⟨m', hm', hcur'⟩ := map_eq_some_iff.mp hn'
    obtain ⟨m0, hm0, -, hcur0⟩ := hf.metas m' hm'
    rw [hm] at hm0
    obtain rfl := some.inj hm0
    -- a session that was only followed is still at epoch `n`
    rw [hcur', hcur] at hcur0
    exact absurd hcur0 (by simp)
  | created secret tx pt tt hex t0 t1 hnew =>
    obtain ⟨epochs, eids, hs, -, -⟩ := hc.of_meta hm
    rw [hnew] at hs
    cases hs
  | rotated t1 _ n' hf hrot =>
    obtain ⟨m1, e1, t0, t1', hm1, -⟩ := id hrot
    obtain ⟨m0, hm0, -, hcur0⟩ := hf.metas m1 hm1
    rw [hm] at hm0
    obtain rfl := some.inj hm0
    apply retired_of_rotation hrot
    rw [hm1, map_some, hcur0, hcur]

variable (c cfg) (schemas : SchemaRegistry)

theorem Retired.run (h : Retired sid n t) (later : List (Call × Clock))
    (hstay : origin sid (history c cfg schemas t later) = none) :
    Retired sid n (run_calls c cfg schemas t later).1 := by
  have hrule := run_calls_origin c cfg schemas sid
    (P := fun t o => o = none → Retired sid n t) ?_ later t none fun _ => h
  · exact hrule hstay
  · intro t o call clk hret hnone
    obtain ⟨hcreates, ho⟩ := or_eq_none_iff.mp hnone
    have hstep := call.session_step c cfg schemas sid t clk
    rw [hcreates] at hstep
    generalize (call.run c cfg schemas clk t).1 = t' at hstep ⊢
    cases hstep with
    | kept _ hf => exact (hret ho).follows hf
    | rotated t1 _ n' hf hrot => exact ((hret ho).follows hf).rotated hrot

theorem Retired.refused (h : Retired sid n t) {buffer : List UInt8} {hd : FrameHeader}
    (hdec : decode_header buffer = .ok hd) (hsid : hd.session_id = sid)
    (hn : hd.epoch_id = n) (skip : Bool) (clk : Clock) :
    perform c (parse_frame c cfg schemas buffer skip) clk t =
      (t, .error (epoch_expired hd "unknown or destroyed")) := by
  have hauth : perform c (authenticate c buffer) clk t =
      (t, .error (epoch_expired hd "unknown or destroyed")) := by
    rw [perform_authenticate, hdec]
    dsimp only
    rw [hsid, hn]
    cases hst : t.epoch sid n with
    | none => rfl
    | some e =>
      dsimp only [authenticated]
      rw [if_pos (h.dead e hst)]
  unfold parse_frame
  rw [perform_bind, hauth]
  rfl

/-- **There is no grace period.** Take any reachable state with a session at epoch `n`, any
call that moves it to the next epoch, and any later calls that do not create the session anew.
Then every frame that names epoch `n` of the session is refused as expired, whatever its PSN
and its tag, and the tables stay as they are. -/
theorem no_grace_period (calls : List (Call × Clock)) (call : Call) (clk : Clock)
    (sid : SessionId) (n : UInt32)
    (hbefore : ((after c cfg schemas calls).metas.get sid).map SessionMeta.current_epoch = some n)
    (hafter : ((call.run c cfg schemas clk (after c cfg schemas calls)).1.metas.get sid).map
      SessionMeta.current_epoch = some (n + 1)) (later : List (Call × Clock))
    (hstay : origin sid (history c cfg schemas
      (call.run c cfg schemas clk (after c cfg schemas calls)).1 later) = none)
    (buffer : List UInt8) (hd : FrameHeader) (hdec : decode_header buffer = .ok hd)
    (hsid : hd.session_id = sid) (hn : hd.epoch_id = n) (skip : Bool) (clk' : Clock) :
    perform c (parse_frame c cfg schemas buffer skip) clk'
        (run_calls c cfg schemas (call.run c cfg schemas clk (after c cfg schemas calls)).1
          later).1 =
      ((run_calls c cfg schemas (call.run c cfg schemas clk (after c cfg schemas calls)).1
          later).1, .error (epoch_expired hd "unknown or destroyed")) := by
  have hret : Retired sid n (call.run c cfg schemas clk (after c cfg schemas calls)).1 :=
    retired_of_call (consistent_run c cfg schemas calls)
      (call.session_step c cfg schemas sid _ clk) hbefore hafter
  have hlater := hret.run c cfg schemas later hstay
  exact hlater.refused c cfg schemas hdec hsid hn skip clk'

end

def Outcome.bytes : Outcome → List UInt8
  | .frame (some (.ok (wire, _))) => wire
  | _ => []

def sampleFrame : List UInt8 :=
  (Call.run sampleCrypto .new sampleSchemas (.build_frame sampleSid 0 sampleArgs) (fun _ => 1)
    (after sampleCrypto .new sampleSchemas sampleCreated)).2.bytes

def sampleFrameHeader : FrameHeader where
  schema_id := 7
  status_code := 0
  flags := 1
  action_class := 2
  payload_length := 4
  session_id := sampleSid
  epoch_id := 0
  psn := 1
  context_ref_id := ByteCodec.toArray 32 (ByteCodec.toBE 32
    0xafc58c07a2f9c9f641b4735b2c7f1983785ed8aa68540516d4ee8b4690c59b99)
  context_version := 5
  traceparent := Vector.replicate 24 4
  header := sampleHeader 1
    0xafc58c07a2f9c9f641b4735b2c7f1983785ed8aa68540516d4ee8b4690c59b99
  auth_tag := ByteCodec.toBE 16 0x7be71a057ecdab990d0cccc1e9183dd9
  ciphertext := ByteCodec.toBE 4 0xe2b836b6

theorem no_grace_period_sample :
    let t := (run_calls sampleCrypto .new sampleSchemas (Call.run sampleCrypto .new sampleSchemas
      (.rotate_epoch sampleSid) (fun _ => 1)
      (after sampleCrypto .new sampleSchemas sampleCreated)).1 []).1
    perform sampleCrypto (parse_frame sampleCrypto .new sampleSchemas sampleFrame true) (fun _ => 2)
      t = (t, .error (epoch_expired sampleFrameHeader "unknown or destroyed")) :=
  no_grace_period sampleCrypto .new sampleSchemas sampleCreated (.rotate_epoch sampleSid)
    (fun _ => 1) sampleSid 0 (by decide +kernel) (by decide +kernel) [] rfl sampleFrame
    sampleFrameHeader (by decide +kernel) rfl rfl true (fun _ => 2)

/-- **An in-flight frame lost to a rotation.** Before the rotation the receiver accepts the
frame. One nanosecond later the epoch is still in the table and its window still admits the
PSN, and the frame is refused. -/
theorem in_flight_frame_lost :
    (perform sampleCrypto (parse_frame sampleCrypto .new sampleSchemas sampleFrame true)
      (fun _ => 1) (after sampleCrypto .new sampleSchemas sampleCreated)).2.isOk = true ∧
    (perform sampleCrypto (parse_frame sampleCrypto .new sampleSchemas sampleFrame true)
      (fun _ => 2) (after sampleCrypto .new sampleSchemas sampleRotated)).2 =
      .error (epoch_expired sampleFrameHeader "unknown or destroyed") ∧
    (after sampleCrypto .new sampleSchemas sampleRotated).with_epoch sampleSid 0
      (fun e => e.replay_window.peek 1) = some (true, .ok) := by
  decide +kernel

end Saacp
