/-
The **receiver's side** of the frame protocol, over whole runs.

Whatever is refused up to and including AES-GCM leaves every table as it was, so a run with such
buffers mixed in goes exactly as the run without them. A frame that was sent is handed to the caller
on its first delivery and refused on every other; the invariant carried along the deliveries is
`Expecting`: the window of the epoch tracks the PSNs of exactly those frames delivered before.
-/
import Saacp.SessionTables

set_option autoImplicit false

open ByteCodec Atomic

namespace Saacp

open EpochTables List ReplayWindow Option

variable {buffer : List UInt8} {args : List FrameArgs}

section

variable (c : Crypto) (cfg : ManagerConfig) (schemas : SchemaRegistry)

/-! ## Unauthenticated input -/

def unauthenticated (t : EpochTables) (buffer : List UInt8) (clk : Clock) : Bool :=
  !(perform c (authenticate c buffer) clk t).2.isOk

theorem parse_frame_of_refused {t : EpochTables} {clk : Clock}
    {err : SAACPHardDrop} (h : (perform c (authenticate c buffer) clk t).2 = .error err)
    (skip : Bool) : perform c (parse_frame c cfg schemas buffer skip) clk t = (t, .error err) := by
  have hkept : (perform c (authenticate c buffer) clk t).1 = t := by rw [perform_authenticate]
  unfold parse_frame
  rw [perform_bind, h, hkept]
  rfl

theorem parse_frame_of_unauthenticated {t : EpochTables}
    {clk : Clock} (h : unauthenticated c t buffer clk = true) (skip : Bool) :
    (Call.run c cfg schemas (.parse_frame buffer skip) clk t).1 = t := by
  unfold unauthenticated at h
  cases hres : (perform c (authenticate c buffer) clk t).2 with
  | ok r =>
    rw [hres] at h
    cases h
  | error err =>
    rw [Call.run, Call.prog, perform_map, parse_frame_of_refused c cfg schemas hres]

/-- A call of the run itself, or a buffer the attacker puts in. -/
inductive Event
  | own (call : Call)
  | inserted (buffer : List UInt8) (skip_schema_validation : Bool)

def Event.toCall : Event → Call
  | .own call => call
  | .inserted buffer skip => .parse_frame buffer skip

def Event.genuine : Event → Option Call
  | .own call => some call
  | .inserted _ _ => none

def with_insertions (events : List (Event × Clock)) : List (Call × Clock) :=
  events.map fun x => (x.1.toCall, x.2)

def without_insertions (events : List (Event × Clock)) : List (Call × Clock) :=
  events.filterMap fun x => x.1.genuine.map fun call => (call, x.2)

def genuine_outcomes (events : List (Event × Clock)) (outcomes : List Outcome) :
    List Outcome :=
  (events.zip outcomes).filterMap fun x => x.1.1.genuine.map fun _ => x.2

/-- Every inserted buffer is unauthenticated in the state it arrives in. -/
def Unauthenticated (t : EpochTables) : List (Event × Clock) → Prop
  | [] => True
  | (e, clk) :: events =>
    (∀ buffer skip, e = .inserted buffer skip → unauthenticated c t buffer clk = true) ∧
      Unauthenticated (e.toCall.run c cfg schemas clk t).1 events

theorem run_with_insertions (events : List (Event × Clock)) (t : EpochTables)
    (h : Unauthenticated c cfg schemas t events) :
    let with_ := run_calls c cfg schemas t (with_insertions events)
    let without := run_calls c cfg schemas t (without_insertions events)
    with_.1 = without.1 ∧ genuine_outcomes events with_.2 = without.2 := by
  induction events generalizing t with
  | nil => exact ⟨rfl, rfl⟩
  | cons x events ih =>
    obtain ⟨e, clk⟩ := x
    obtain ⟨hhere, hrest⟩ := h
    cases e with
    | own call =>
      obtain ⟨hstate, hout⟩ := ih _ hrest
      exact ⟨hstate, congrArg (List.cons (call.run c cfg schemas clk t).2) hout⟩
    | inserted buffer skip =>
      -- the inserted buffer is not there in the other run, and has changed nothing in this one
      have hsame := parse_frame_of_unauthenticated c cfg schemas (hhere buffer skip rfl) skip
      have hnext : Unauthenticated c cfg schemas t events := by rwa [Event.toCall, hsame] at hrest
      obtain ⟨hstate, hout⟩ := ih t hnext
      rw [← hsame] at hstate hout
      constructor
      · refine hstate.trans ?_
        rw [hsame]
        rfl
      · refine hout.trans ?_
        rw [hsame]
        rfl

/-- **Unauthenticated input cannot move receiver state.** A buffer refused up to and including
AES-GCM leaves every table as it was; and inserting any number of such buffers anywhere into
a run changes neither the tables it ends with nor the outcome of any other call. -/
theorem unauthenticated_input_inert (calls : List (Call × Clock)) : (∀ buffer skip clk err,
      (perform c (authenticate c buffer) clk (after c cfg schemas calls)).2 = .error err →
      perform c (parse_frame c cfg schemas buffer skip) clk (after c cfg schemas calls) =
        (after c cfg schemas calls, .error err)) ∧
    ∀ events, Unauthenticated c cfg schemas (after c cfg schemas calls) events →
      (run_calls c cfg schemas (after c cfg schemas calls) (with_insertions events)).1 =
          (run_calls c cfg schemas (after c cfg schemas calls) (without_insertions events)).1 ∧
        genuine_outcomes events
            (run_calls c cfg schemas (after c cfg schemas calls) (with_insertions events)).2 =
          (run_calls c cfg schemas (after c cfg schemas calls) (without_insertions events)).2 := by
  constructor
  · intro buffer skip clk err h
    exact parse_frame_of_refused c cfg schemas h skip
  · intro events h
    exact run_with_insertions c cfg schemas events _ h

/-! ## Frames that were sent -/

structure SentFrame where
  args : FrameArgs
  psn : UInt64
  wire : List UInt8
  deriving DecidableEq

/-- The frames `build_frame` builds on an epoch, in order. A call that fails sends nothing. -/
def send_all (e : SessionEpoch) : List FrameArgs → List SentFrame
  | [] => []
  | a :: args =>
    match build_frame c e a with
    | (e', .ok (wire, psn)) => ⟨a, psn, wire⟩ :: send_all e' args
    | (e', .error _) => send_all e' args

def SentFrame.delivered (f : SentFrame) (sid : SessionId) (eid : UInt32) : ParsedMEASCFrame where
  schema_id := f.args.schema_id
  status_code := f.args.status_code
  flags := f.args.flags
  action_class := f.args.action_class
  payload_length := UInt32.ofNat f.args.payload.length
  session_id := sid
  epoch_id := eid
  psn := f.psn
  context_ref_id := f.args.context_ref_id
  context_version := f.args.context_version
  traceparent := f.args.traceparent
  payload := f.args.payload

def SentFrame.SealedBy (f : SentFrame) (sid : SessionId) (eid : UInt32) (key : Key) : Prop :=
  ∃ ct, c.aes_gcm_encrypt key (derive_iv c key eid f.psn) f.args.payload
      (encode_header f.args sid eid f.psn (easi_encrypt c f.args.context_ref_id key eid f.psn)) =
        some ct ∧
    f.wire = encode_header f.args sid eid f.psn
        (easi_encrypt c f.args.context_ref_id key eid f.psn) ++
      ct.drop (ct.length - MEASC_AUTH_TAG_SIZE) ++ ct.take (ct.length - MEASC_AUTH_TAG_SIZE)

variable {c}

variable {f : SentFrame}

theorem mem_send_all {e : SessionEpoch} (hf : f ∈ send_all c e args) :
    f.args ∈ args ∧ e.sequencer.next ≤ f.psn ∧ f.psn < MEASC_PSN_MAX ∧
      f.SealedBy c e.session_id e.epoch_id e.key := by
  induction args generalizing e with
  | nil => cases hf
  | cons a args ih =>
    unfold send_all at hf
    rcases hb : build_frame c e a with ⟨e', r⟩
    rw [hb] at hf
    cases r with
    | error err =>
      obtain ⟨hmem, hlo, hhi, hseal⟩ := ih hf
      -- a failed call keeps the epoch, up to one PSN that is never used
      have hepoch := build_frame_only_sequencer c e a
      have hnext := build_frame_next_le c e a
      rw [hb] at hepoch hnext
      dsimp only at hepoch
      refine ⟨mem_cons_of_mem a hmem, UInt64.le_trans hnext hlo, hhi, ?_⟩
      rwa [hepoch] at hseal
    | ok r =>
    obtain ⟨wire, psn⟩ := r
    obtain ⟨-, hpsn, hmax, he', ct, hct, hwire⟩ := build_frame_ok hb
    rcases mem_cons.mp hf with rfl | hf
    · exact ⟨mem_cons_self, UInt64.le_of_eq hpsn.symm, hmax, ct, hct, hwire⟩
    · obtain ⟨hmem, hlo, hhi, hseal⟩ := ih hf
      have hnext := build_frame_next_le c e a
      rw [hb] at hnext
      refine ⟨mem_cons_of_mem a hmem, UInt64.le_trans hnext hlo, hhi, ?_⟩
      rwa [he'] at hseal

theorem send_all_pairwise (args : List FrameArgs) (e : SessionEpoch) :
    (send_all c e args).Pairwise fun f g => f.psn < g.psn := by
  induction args generalizing e with
  | nil => exact List.Pairwise.nil
  | cons a args ih =>
    unfold send_all
    rcases hb : build_frame c e a with ⟨e', r⟩
    cases r with
    | error err => exact ih e'
    | ok r =>
    obtain ⟨wire, psn⟩ := r
    obtain ⟨-, -, hmax, he', -⟩ := build_frame_ok hb
    refine List.Pairwise.cons ?_ (ih e')
    intro g hg
    obtain ⟨-, hlo, -, -⟩ := mem_send_all hg
    rw [he'] at hlo
    exact UInt64.lt_of_lt_of_le (lt_succ_of_lt_psn_max hmax) hlo

theorem SentFrame.SealedBy.decode {sid : SessionId} {eid : UInt32} {key : Key}
    (hseal : f.SealedBy c sid eid key) (hlaw : c.Lawful)
    (hsize : f.args.payload.length ≤ MEASC_MAX_PAYLOAD) :
    ∃ h, decode_header f.wire = .ok h ∧ h.session_id = sid ∧ h.epoch_id = eid ∧ h.psn = f.psn ∧
      c.aes_gcm_decrypt key (derive_iv c key eid f.psn) (h.ciphertext ++ h.auth_tag) h.header =
        some f.args.payload ∧
      parsed_frame c h key f.args.payload = f.delivered sid eid := by
  obtain ⟨ct, hct, hwire⟩ := hseal
  have hlen := hlaw.length_encrypt _ _ _ _ _ hct
  have hcut : ct.length - MEASC_AUTH_TAG_SIZE = f.args.payload.length := by
    rw [hlen, MEASC_AUTH_TAG_SIZE]
    omega
  rw [hcut] at hwire
  have hdec := decode_header_frame f.args sid eid f.psn
    (easi_encrypt c f.args.context_ref_id key eid f.psn) hsize hlen
  rw [← hwire] at hdec
  refine ⟨_, hdec, rfl, rfl, rfl, ?_, ?_⟩
  · dsimp only
    rw [take_append_drop]
    exact hlaw.decrypt_encrypt _ _ _ _ _ hct
  · unfold parsed_frame SentFrame.delivered
    dsimp only
    rw [easi_decrypt_encrypt]

end

/-! ## Deliveries -/

/-- At most a window behind the highest PSN and at most the maximal advance ahead of it. -/
def ReplayWindow.in_range (w : ReplayWindow) (psn : UInt64) : Bool :=
  !w.initialized || (decide (w.highest_psn - 4096 < psn.toNat) &&
    decide ((psn.toNat : ℤ) ≤ w.highest_psn + 2048))

section

variable {c : Crypto} {cfg : ManagerConfig} {sid : SessionId} {eid : UInt32} {key : Key}

structure Expecting (cfg : ManagerConfig) (sid : SessionId) (eid : UInt32) (key : Key)
    (seen : List SentFrame) (t : EpochTables) : Prop where
  consistent : Consistent cfg t
  window : ∀ e, t.epoch sid eid = some e → e.destroyed = false →
    e.key = key ∧ e.replay_window.policy = ReplayWindowPolicy.default ∧
      e.replay_window.quarantined = false ∧
      ∃ acc, e.replay_window.Tracks acc ∧ ∀ p, p ∈ acc ↔ p ∈ seen.map SentFrame.psn

theorem in_range_iff {w : ReplayWindow} {acc : List UInt64} {p : UInt64} (ht : w.Tracks acc) :
    w.in_range p = true ↔ (0 ≤ w.highest_psn →
      w.highest_psn < p.toNat + 4096 ∧ (p.toNat : ℤ) ≤ w.highest_psn + 2048) := by
  unfold in_range
  rw [Bool.or_eq_true, Bool.not_eq_true', Bool.and_eq_true, decide_eq_true_eq, decide_eq_true_eq]
  constructor
  · rintro (hfresh | hrange) hnn
    · have := (ht.fresh hfresh).1
      omega
    · omega
  · intro h
    by_cases hinit : w.initialized = true
    · obtain ⟨q, -, htop⟩ := ht.started hinit
      have := h (by omega)
      omega
    · exact Or.inl (Bool.eq_false_iff.mpr hinit)

variable {seen : List SentFrame} {t : EpochTables} {e : SessionEpoch} {f : SentFrame}

theorem Consistent.eq_current (h : Consistent cfg t) {m : SessionMeta}
    (hm : t.metas.get sid = some m) (he : t.epoch sid eid = some e)
    (hlive : e.destroyed = false) : eid = m.current_epoch := by
  obtain ⟨epochs, eids, hs, -, hok⟩ := h.of_meta hm
  obtain ⟨epochs', hs', he'⟩ := epoch_eq.mp he
  rw [hs] at hs'
  obtain rfl := some.inj hs'
  by_contra hne
  have hdead := (hok.retired eid e he' hne).1
  rw [hlive] at hdead
  cases hdead

theorem Authentic.unique {h h' : FrameHeader}
    {pt pt' : List UInt8} {e' : SessionEpoch} (ha : Authentic c t buffer h pt e)
    (ha' : Authentic c t buffer h' pt' e') : h = h' ∧ pt = pt' ∧ e = e' := by
  obtain rfl := Except.ok.inj (ha.decoded.symm.trans ha'.decoded)
  obtain rfl := some.inj (ha.stored.symm.trans ha'.stored)
  obtain rfl := some.inj (ha.opened.symm.trans ha'.opened)
  exact ⟨rfl, rfl, rfl⟩

variable (h : Expecting cfg sid eid key seen t) (he : t.epoch sid eid = some e)
  (hlive : e.destroyed = false)
include h he hlive

theorem Expecting.admits {p : UInt64} (hpos : 1 ≤ p.toNat) (hmax : p < MEASC_PSN_MAX)
    (hrange : e.replay_window.in_range p = true)
    (hnew : p ∉ seen.map SentFrame.psn) : e.replay_window.Admits p := by
  obtain ⟨-, hpol, hq, acc, htr, hacc⟩ := h.window e he hlive
  have hin := (in_range_iff htr).mp hrange
  rw [UInt64.lt_iff_toNat_lt] at hmax
  have hsize : e.replay_window.size = 4096 := by rw [ReplayWindow.size, hpol]; rfl
  have hadv : e.replay_window.policy.max_advance.toNat = 2048 := by rw [hpol]; rfl
  have hbound : MEASC_PSN_MAX.toNat = 9223372036854775807 := rfl
  apply htr.admits (fun hmem => hnew ((hacc p).mp hmem)) hpos (by omega) hq
  · intro hnn
    have := hin hnn
    unfold saturating_add
    omega
  · intro hnn
    have := hin hnn
    omega

theorem Expecting.duplicate {p : UInt64} (hrange : e.replay_window.in_range p = true)
    (hold : p ∈ seen.map SentFrame.psn) : e.replay_window.peek p = (false, .duplicate) := by
  obtain ⟨-, hpol, hq, acc, htr, hacc⟩ := h.window e he hlive
  have hmem := (hacc p).mpr hold
  have hsize : e.replay_window.size = 4096 := by rw [ReplayWindow.size, hpol]; rfl
  have hle := htr.le_highest p hmem
  have hin := (in_range_iff htr).mp hrange (by omega)
  exact htr.peek_of_mem hmem hq (by omega)

theorem Expecting.rotated {t' : EpochTables} {n : UInt32}
    (hrot : t.RotatesTo c cfg sid n t') : Expecting cfg sid eid key seen t' := by
  refine ⟨h.consistent.rotated c hrot, ?_⟩
  obtain ⟨m, ecur, t0, t1, hm, hcur, -, hmax, rfl, rfl⟩ := hrot
  obtain rfl := h.consistent.eq_current hm he hlive
  intro e' he' hlive'
  rw [epoch_rotated c cfg hcur hmax, if_pos rfl] at he'
  obtain rfl := some.inj he'
  rw [SessionEpoch.destroy_destroyed] at hlive'
  cases hlive'

theorem Expecting.accepted (hadm : e.replay_window.Admits f.psn) (now now' : Instant) :
    Expecting cfg sid eid key (seen ++ [f]) ((t.ruled sid eid f.psn now).noted sid now') := by
  obtain ⟨hkey, hpol, -, acc, htr, hacc⟩ := h.window e he hlive
  have haudit : e.replay_window.policy.anomaly_policy = .Audit := by rw [hpol]; rfl
  obtain ⟨hok, hq⟩ := check_and_accept_of_audit hadm now haudit
  refine ⟨(h.consistent.ruled _ _ _ _).noted _ _, ?_⟩
  intro e' he' _
  change (t.ruled sid eid f.psn now).epoch sid eid = some e' at he'
  rw [EpochTables.ruled, epoch_modify_epoch, if_pos ⟨rfl, rfl⟩, he, map_some] at he'
  obtain rfl := some.inj he'
  refine ⟨hkey, ?_, hq, f.psn :: acc, ?_, ?_⟩
  · dsimp only
    rw [check_and_accept_policy, hpol]
  · rcases tracks_check_and_accept htr now f.psn with ⟨-, -, htr'⟩ | ⟨hno, -⟩
    · exact htr'
    · rw [hok] at hno
      cases hno
  · intro p
    rw [mem_cons, hacc p, map_append, mem_append, map_singleton, mem_singleton, or_comm]

variable (schemas : SchemaRegistry)

def verdict (sid : SessionId) (eid : UInt32) (seen : List SentFrame) (f : SentFrame) :
    Result ParsedMEASCFrame :=
  if f ∈ seen then .error (psn_rejection f.psn eid .duplicate) else .ok (f.delivered sid eid)

variable (hlaw : c.Lawful) (hseal : f.SealedBy c sid eid key)
  (hsize : f.args.payload.length ≤ MEASC_MAX_PAYLOAD)
include hlaw hseal hsize

theorem Expecting.deliver_again
    (hrange : e.replay_window.in_range f.psn = true) (hold : f ∈ seen) (clk : Clock) :
    perform c (parse_frame c cfg schemas f.wire true) clk t =
      (t, .error (psn_rejection f.psn eid .duplicate)) := by
  have hpeek := h.duplicate he hlive hrange (mem_map_of_mem hold)
  obtain ⟨hd, hdec, hsid, heid, hpsn, -, -⟩ := hseal.decode hlaw hsize
  apply parse_frame_of_refused
  rw [perform_authenticate, hdec]
  dsimp only
  rw [hsid, heid, he]
  unfold authenticated
  dsimp only
  rw [if_neg (by simp [hlive]), hpsn, hpeek, heid]

theorem Expecting.deliver_first (hadm : e.replay_window.Admits f.psn) (clk : Clock) :
    (perform c (parse_frame c cfg schemas f.wire true) clk t).2 = .ok (f.delivered sid eid) ∧
      Expecting cfg sid eid key (seen ++ [f])
        (perform c (parse_frame c cfg schemas f.wire true) clk t).1 := by
  obtain ⟨hkey, hpol, -⟩ := h.window e he hlive
  obtain ⟨hd, hdec, rfl, rfl, hpsn, hopen, hfields⟩ := hseal.decode hlaw hsize
  rw [← hpsn, ← hkey] at hopen
  have hauth : Authentic c t f.wire hd f.args.payload e :=
    ⟨hdec, he, hlive, by rw [hpsn, peek_of_admits hadm], hopen⟩
  have haudit : e.replay_window.policy.anomaly_policy = .Audit := by rw [hpol]; rfl
  have heff := parse_frame_effect c cfg schemas clk t f.wire true
  generalize (perform c (parse_frame c cfg schemas f.wire true) clk t).1 = t' at heff ⊢
  generalize (perform c (parse_frame c cfg schemas f.wire true) clk t).2 = r at heff ⊢
  -- of the four things a call can do, only acceptance fits an authentic frame in range
  cases heff with
  | refused err hrefused =>
    rw [perform_authenticate, hdec] at hrefused
    have hok := (authenticated_ok_iff c).mpr
      ⟨e, hauth.stored, rfl, rfl, hlive, hauth.admitted, hopen⟩
    dsimp only at hrefused
    rw [hok] at hrefused
    cases hrefused
  | replayed hd' pt e' now reason hauth' hrule =>
    obtain ⟨rfl, rfl, rfl⟩ := hauth.unique hauth'
    have hacc := (check_and_accept_of_audit hadm now haudit).1
    rw [hpsn] at hrule
    rw [hrule] at hacc
    cases hacc
  | invalid hd' pt e' now now' reason err hauth' hrule hschema => cases hschema
  | accepted hd' pt e' now now' reason t' hauth' hrule hschema hrot =>
    obtain ⟨rfl, rfl, rfl⟩ := hauth.unique hauth'
    rw [hkey]
    refine ⟨congrArg Except.ok hfields, ?_⟩
    have hnext := h.accepted he hlive hadm now now'
    rw [← hpsn] at hnext
    rcases hrot with rfl | ⟨n, hrot⟩
    · exact hnext
    · refine hnext.rotated (e := { e with
        replay_window := (e.replay_window.check_and_accept now hd.psn).1 }) ?_ hlive hrot
      change (t.ruled hd.session_id hd.epoch_id hd.psn now).epoch hd.session_id hd.epoch_id = _
      rw [EpochTables.ruled, epoch_modify_epoch, if_pos ⟨rfl, rfl⟩, he]
      rfl

theorem Expecting.deliver {e0 : SessionEpoch}
    (hrange : e.replay_window.in_range f.psn = true) (hpos : 1 ≤ f.psn.toNat)
    (hmax : f.psn < MEASC_PSN_MAX) (hf : f ∈ send_all c e0 args)
    (hseen : ∀ g ∈ seen, g ∈ send_all c e0 args) (clk : Clock) :
    (perform c (parse_frame c cfg schemas f.wire true) clk t).2 = verdict sid eid seen f ∧
      Expecting cfg sid eid key (seen ++ [f])
        (perform c (parse_frame c cfg schemas f.wire true) clk t).1 := by
  unfold verdict
  by_cases hold : f ∈ seen
  · rw [if_pos hold, h.deliver_again he hlive schemas hlaw hseal hsize hrange hold clk]
    refine ⟨rfl, h.consistent, ?_⟩
    intro e' he' hlive'
    obtain ⟨hk, hp, hq, acc, htr, hacc⟩ := h.window e' he' hlive'
    refine ⟨hk, hp, hq, acc, htr, ?_⟩
    intro p
    rw [hacc p, map_append, mem_append, map_singleton, mem_singleton]
    refine ⟨Or.inl, ?_⟩
    rintro (hp' | rfl)
    · exact hp'
    · exact mem_map_of_mem hold
  · rw [if_neg hold]
    -- a frame of the same PSN would be the same frame
    have hnew : f.psn ∉ seen.map SentFrame.psn := by
      intro hdup
      obtain ⟨g, hg, hpsn⟩ := mem_map.mp hdup
      have hnodup : ((send_all c e0 args).map SentFrame.psn).Nodup := by
        rw [List.Nodup, pairwise_map]
        exact (send_all_pairwise args e0).imp fun h => UInt64.ne_of_lt h
      exact hold (inj_on_of_nodup_map hnodup (hseen g hg) hf hpsn ▸ hg)
    have hadm := h.admits he hlive hpos hmax hrange hnew
    exact h.deliver_first he hlive schemas hlaw hseal hsize hadm clk

omit h he hlive hlaw hseal hsize

variable (c cfg sid eid)

def deliveries (ds : List (SentFrame × Clock)) : List (Call × Clock) :=
  ds.map fun d => (.parse_frame d.1.wire true, d.2)

/-- Before each delivery the epoch is live and the PSN in range. -/
def undisturbed (t : EpochTables) : List (SentFrame × Clock) → Bool
  | [] => true
  | d :: ds =>
    decide (t.with_epoch sid eid (fun e => !e.destroyed && e.replay_window.in_range d.1.psn) =
        some true) &&
      undisturbed (Call.run c cfg schemas (.parse_frame d.1.wire true) d.2 t).1 ds

variable {c cfg sid eid}

theorem Expecting.run {e0 : SessionEpoch} (hlaw : c.Lawful) (hsid : e0.session_id = sid)
    (heid : e0.epoch_id = eid) (hkey : e0.key = key) (hseq : 1 ≤ e0.sequencer.next.toNat)
    (hsize : ∀ a ∈ args, a.payload.length ≤ MEASC_MAX_PAYLOAD)
    (ds : List (SentFrame × Clock)) (hsent : ∀ d ∈ ds, d.1 ∈ send_all c e0 args)
    (seen : List SentFrame) (hseen : ∀ f ∈ seen, f ∈ send_all c e0 args) (t : EpochTables)
    (h : Expecting cfg sid eid key seen t) (hrun : undisturbed c cfg sid eid schemas t ds = true)
    (i : ℕ) (d : SentFrame × Clock) (hd : ds[i]? = some d) :
    (run_calls c cfg schemas t (deliveries ds)).2[i]? =
      some (.parsed (verdict sid eid (seen ++ (ds.take i).map Prod.fst) d.1)) := by
  induction ds generalizing seen t i with
  | nil => cases hd
  | cons d0 ds ih =>
    unfold undisturbed at hrun
    rw [Bool.and_eq_true, decide_eq_true_eq] at hrun
    obtain ⟨hhere, hrest⟩ := hrun
    obtain ⟨e, he, hcond⟩ := map_eq_some_iff.mp hhere
    rw [Bool.and_eq_true, Bool.not_eq_true'] at hcond
    obtain ⟨hlive, hrange⟩ := hcond
    have hmem := hsent d0 mem_cons_self
    obtain ⟨hargs, hlo, hhi, hseal⟩ := mem_send_all hmem
    rw [hsid, heid, hkey] at hseal
    have hpay := hsize _ hargs
    have hpos : 1 ≤ d0.1.psn.toNat := by
      rw [UInt64.le_iff_toNat_le] at hlo
      omega
    have hstep := h.deliver he hlive schemas hlaw hseal hpay hrange hpos hhi hmem hseen d0.2
    cases i with
    | zero =>
      obtain rfl := some.inj hd
      rw [take_zero, map_nil, append_nil, ← hstep.1]
      exact congrArg some (congrArg Prod.snd (perform_map c d0.2 t Outcome.parsed _))
    | succ i =>
      have hcall : (Call.run c cfg schemas (.parse_frame d0.1.wire true) d0.2 t).1 =
          (perform c (parse_frame c cfg schemas d0.1.wire true) d0.2 t).1 :=
        congrArg Prod.fst (perform_map c d0.2 t Outcome.parsed _)
      rw [hcall] at hrest
      have hnext := ih (fun d' hd' => hsent d' (mem_cons_of_mem d0 hd')) (seen ++ [d0.1]) ?_ _
        hstep.2 hrest i hd
      · rw [← hcall, append_assoc, singleton_append] at hnext
        rw [take_succ_cons, map_cons]
        exact hnext
      · exact forall_mem_append.mpr ⟨hseen, forall_mem_singleton.mpr hmem⟩

variable (c cfg)

/-- **Frames round-trip under reordering and duplication.** Frames are built in order on a new
epoch with some key, and the receiver is any reachable manager that holds that key for the
same session and epoch number with a fresh window. Then in every sequence of deliveries in
which the epoch stays live and each PSN after the first is in range, a frame is accepted
exactly on its first delivery, with every field as it was sent. -/
theorem frames_round_trip (hlaw : c.Lawful) (sid : SessionId) (eid : UInt32) (key : Key)
    (packet_threshold : UInt64) (time_threshold_secs : Secs) (created_at : Instant)
    (args : List FrameArgs) (hsize : ∀ a ∈ args, a.payload.length ≤ 10000000)
    (calls : List (Call × Clock)) (e : SessionEpoch)
    (he : (after c cfg schemas calls).epoch sid eid = some e) (hkey : e.key = key) (start : Instant)
    (hfresh : e.replay_window = ReplayWindow.with_default_policy start)
    (ds : List (SentFrame × Clock)) (hsent : ∀ d ∈ ds, d.1 ∈ send_all c
      (SessionEpoch.new sid eid key packet_threshold time_threshold_secs created_at) args)
    (hrun : undisturbed c cfg sid eid schemas (after c cfg schemas calls) ds = true) (i : ℕ)
    (d : SentFrame × Clock) (hd : ds[i]? = some d) :
    (run_calls c cfg schemas (after c cfg schemas calls) (deliveries ds)).2[i]? =
      some (.parsed (if d.1 ∈ (ds.take i).map Prod.fst then
        .error (psn_rejection d.1.psn eid .duplicate) else .ok (d.1.delivered sid eid))) := by
  have hstart : Expecting cfg sid eid key [] (after c cfg schemas calls) := by
    refine ⟨consistent_run c cfg schemas calls, ?_⟩
    intro e' he' _
    rw [he] at he'
    obtain rfl := some.inj he'
    rw [hfresh]
    exact ⟨hkey, rfl, rfl, [], tracks_with_default_policy start, fun p => Iff.rfl⟩
  have hverdict := hstart.run schemas hlaw rfl rfl rfl (Nat.le_of_eq rfl) hsize ds hsent []
    (fun f hf => absurd hf not_mem_nil) _ hrun i d hd
  rw [nil_append] at hverdict
  exact hverdict

end

def sampleSent : List SentFrame :=
  send_all sampleCrypto (SessionEpoch.new sampleSid 0 (toArray 32 sampleKey0) 1000
    sampleThreshold 0) [sampleArgs, sampleArgs]

def sampleSecond : SentFrame := sampleSent.getD 1 ⟨sampleArgs, 0, []⟩

def sampleDeliveries : List (SentFrame × Clock) :=
  (sampleSent.reverse ++ sampleSent.drop 1).map fun f => (f, fun _ => 1)

theorem frames_round_trip_third :
    (run_calls sampleCrypto .new sampleSchemas (after sampleCrypto .new sampleSchemas sampleCreated)
        (deliveries sampleDeliveries)).2[2]? =
      some (.parsed (if sampleSecond ∈ (sampleDeliveries.take 2).map Prod.fst then
        .error (psn_rejection sampleSecond.psn 0 .duplicate) else
        .ok (sampleSecond.delivered sampleSid 0))) := by
  have hthird : (sampleSent.reverse ++ sampleSent.drop 1)[2]? = some sampleSecond := by
    decide +kernel
  refine frames_round_trip sampleCrypto .new sampleSchemas sampleCrypto_lawful sampleSid 0
    (toArray 32 sampleKey0) 1000 600 0 [sampleArgs, sampleArgs] (by decide +kernel) sampleCreated
    (SessionEpoch.new sampleSid 0 (toArray 32 sampleKey0) 1000 600 0) (by decide +kernel) rfl 0 rfl
    sampleDeliveries (by decide +kernel) (by decide +kernel) 2 (sampleSecond, fun _ => 1) ?_
  rw [sampleDeliveries, List.getElem?_map, hthird, map_some]

def sampleEvents : List (Event × Clock) :=
  [(.inserted (sampleSecond.wire.dropLast ++ [0]) true, fun _ => 1),
   (.own (.parse_frame sampleSecond.wire true), fun _ => 2)]

theorem unauthenticated_input_inert_forged :
    let run := run_calls sampleCrypto .new sampleSchemas
      (after sampleCrypto .new sampleSchemas sampleCreated)
    (run (with_insertions sampleEvents)).1 = (run (without_insertions sampleEvents)).1 ∧
      genuine_outcomes sampleEvents (run (with_insertions sampleEvents)).2 =
        (run (without_insertions sampleEvents)).2 := by
  have hforged : unauthenticated sampleCrypto (after sampleCrypto .new sampleSchemas sampleCreated)
      (sampleSecond.wire.dropLast ++ [0]) (fun _ => 1) = true := by decide +kernel
  refine (unauthenticated_input_inert sampleCrypto .new sampleSchemas sampleCreated).2
    sampleEvents ⟨?_, ?_, trivial⟩
  · rintro buffer skip heq
    obtain ⟨rfl, rfl⟩ := Event.inserted.inj heq
    exact hforged
  · rintro buffer skip heq
    cases heq

end Saacp
