/-
**Authorization** over whole runs: every accepted packet stands on a capability token that
Gate 1.0 validated, in the packet itself or in the `STREAM_START` that created its stream.

Beside the state a run keeps, for each stream, what Gate 1.0 validated in the packet that created
it, and the number of blanket revocations. The stream paths do not deliver the property for every
run; `Proper` rules out the five ways around it, step by step.
-/
import Saacp.HandlerSpecs

set_option autoImplicit false

open ByteCodec

namespace Saacp

open List StreamRegistry Option Table UInt8

/-! ## Runs -/

inductive PipelineStep
  | full (call : PacketCall)
  | encrypted (call : PacketCall)
  | revoke_token (token_b64 : List UInt8) (wall : ℚ)
  | revoke_all_tokens (wall : ℚ)
  | prune_expired_revocations (wall : ℚ)
  | register_issuer_key (issuer_agent : Text) (issuer_secret : List UInt8)
  | clear_trusted_issuers
  | set_strict_asymmetric_mode (enabled : Bool)
  | register_key_source
  | sweep_expired (wall : ℚ)

def PipelineStep.call : PipelineStep → Option PacketCall
  | .full call | .encrypted call => some call
  | _ => none

/-- A token Gate 1.0 validated, and the cap the trust engine had on its bearer. -/
structure Grant where
  token : Text
  scope_cap : Option UInt8

/-- What Gate 1.0 validated in the packet, and how many blanket revocations there had been. -/
structure Creation where
  grant : Option Grant
  recoveries : ℕ

structure AuthRun where
  pipeline : Pipeline
  creators : Table Text Creation
  recoveries : ℕ

namespace AuthRun

variable (H : Hashes) (X : Crates)

def start : AuthRun := ⟨⟨.new, .new⟩, .empty, 0⟩

variable (run : AuthRun)

def granted (call : PacketCall) : Option Grant :=
  (validated_token H X run.pipeline.gateway call).map fun token =>
    ⟨token, call.subsystems.scope_cap⟩

def answer : PipelineStep → Option (Result ParsedPacket)
  | .full call => some (intercept_packet_full_with_ctx H X run.pipeline call).2
  | .encrypted call => some (intercept_packet_encrypted_with_ctx H X run.pipeline call).2
  | _ => none

def advance : PipelineStep → Pipeline
  | .full call => (intercept_packet_full_with_ctx H X run.pipeline call).1
  | .encrypted call => (intercept_packet_encrypted_with_ctx H X run.pipeline call).1
  | .revoke_token token wall =>
    { run.pipeline with gateway := (run.pipeline.gateway.revoke_token H X token wall).1 }
  | .revoke_all_tokens wall =>
    { run.pipeline with gateway := run.pipeline.gateway.revoke_all_tokens wall }
  | .prune_expired_revocations wall =>
    { run.pipeline with gateway := run.pipeline.gateway.prune_expired_revocations wall }
  | .register_issuer_key issuer_agent secret =>
    { run.pipeline with
      gateway := (run.pipeline.gateway.register_issuer_key X issuer_agent secret).1 }
  | .clear_trusted_issuers =>
    { run.pipeline with gateway := run.pipeline.gateway.clear_trusted_issuers }
  | .set_strict_asymmetric_mode enabled =>
    { run.pipeline with gateway := run.pipeline.gateway.set_strict_asymmetric_mode enabled }
  | .register_key_source =>
    { run.pipeline with gateway := run.pipeline.gateway.register_key_source }
  | .sweep_expired wall =>
    { run.pipeline with streams := run.pipeline.streams.sweep_expired wall }

/-- An accepted `STREAM_START` that the registry takes creates its stream. -/
def record_creation (call : PacketCall) : Result ParsedPacket → Table Text Creation
  | .error _ => run.creators
  | .ok p =>
    if p.status_code = SAACPBytecodes.StreamStart.code ∧
        run.pipeline.streams.below_cap call.current_agent_name then
      run.creators.insert p.session_uuid ⟨run.granted H X call, run.recoveries⟩
    else run.creators

def step (st : PipelineStep) : AuthRun where
  pipeline := run.advance H X st
  creators :=
    match st.call, run.answer H X st with
    | some call, some answer => run.record_creation H X call answer
    | _, _ => run.creators
  recoveries :=
    match st with
    | .revoke_all_tokens _ => run.recoveries + 1
    | _ => run.recoveries

def steps (sts : List PipelineStep) : AuthRun := sts.foldl (step H X) run

end AuthRun

/-! ## Standing on a token -/

/-- The token of a grant is unexpired, neither revoked nor recalled, and allows an action class. -/
def Grant.Covers (H : Hashes) (X : Crates) (g : Grant) (gw : ZeroTrustGateway) (wall : ℚ)
    (action_class : UInt8) : Prop :=
  ∃ data signature, decode_token X g.token = some (data, signature) ∧ wall ≤ token_exp data ∧
    gw.is_token_revoked (sha256_hex H signature) = false ∧ gw.recalls data = false ∧
    action_class.toNat ≤ token_max_action_class data ∧
    ∀ cap, g.scope_cap = some cap → action_class ≤ cap

/-- The packet stands on a token that Gate 1.0 validated in this call, or in the packet that created
its stream. -/
def AuthRun.Authorized (H : Hashes) (X : Crates) (run : AuthRun) (call : PacketCall)
    (p : ParsedPacket) : Prop :=
  ∃ g : Grant, (run.granted H X call = some g ∨ is_schema_exempt p.status_code = true ∧
        (run.creators.get p.session_uuid).bind Creation.grant = some g) ∧
    g.Covers H X run.pipeline.gateway call.wall p.action_class

/-! ## The condition on the steps -/

/-- A `STREAM_START` comes unmarked, at a positive wall-clock time, and not for an open stream
by an agent that has all the streams it may have. A stream frame that is no cover traffic
comes while the wall clock is not ahead of the monotonic one and with no blanket revocation
since its stream was created; an end comes for an open stream. -/
def AuthRun.ProperFrame (run : AuthRun) (call : PacketCall) (f : ParsedFrame) : Prop :=
  (f.status_code = SAACPBytecodes.StreamStart.code →
    f.flags &&& FLAG_COVER_TRAFFIC = 0 ∧ 0 < call.wall ∧
      (run.pipeline.streams.below_cap call.current_agent_name = true ∨
        run.pipeline.streams.streams.contains f.session_uuid = false)) ∧
  (is_schema_exempt f.status_code = true ∧ f.flags &&& FLAG_COVER_TRAFFIC = 0 →
    call.wall ≤ call.mono ∧
      ((run.creators.get f.session_uuid).all fun c => c.recoveries = run.recoveries) = true ∧
      (f.status_code = STATUS_STREAM_END →
        run.pipeline.streams.streams.contains f.session_uuid = true))

instance (run : AuthRun) (call : PacketCall) (f : ParsedFrame) :
    Decidable (run.ProperFrame call f) :=
  inferInstanceAs (Decidable (_ ∧ _))

def AuthRun.ProperStep (run : AuthRun) (st : PipelineStep) : Prop :=
  match st.call with
  | none => True
  | some call =>
    match call.frame with
    | .error _ => True
    | .ok f => run.ProperFrame call f

instance (run : AuthRun) (st : PipelineStep) : Decidable (run.ProperStep st) :=
  match h : st.call with
  | none => .isTrue (by unfold AuthRun.ProperStep; rw [h]; trivial)
  | some call =>
    match h' : call.frame with
    | .error _ => .isTrue (by unfold AuthRun.ProperStep; rw [h]; simp [h'])
    | .ok f =>
      decidable_of_iff (run.ProperFrame call f) (by unfold AuthRun.ProperStep; rw [h]; simp [h'])

def AuthRun.Proper (H : Hashes) (X : Crates) : AuthRun → List PipelineStep → Prop
  | _, [] => True
  | run, st :: sts => run.ProperStep st ∧ AuthRun.Proper H X (run.step H X st) sts

instance AuthRun.decidableProper (H : Hashes) (X : Crates) :
    (run : AuthRun) → (sts : List PipelineStep) → Decidable (AuthRun.Proper H X run sts)
  | _, [] => .isTrue trivial
  | run, st :: sts =>
    have := AuthRun.decidableProper H X (run.step H X st) sts
    inferInstanceAs (Decidable (_ ∧ _))

def presented_tokens (X : Crates) (sts : List PipelineStep) : List Text :=
  sts.filterMap fun st => st.call.bind fun call => call.presented X

/-! ## The invariant -/

/-- What an open stream has kept is the token of the packet that created it. -/
structure Bound (H : Hashes) (X : Crates) (run : AuthRun) (t : StreamToken) (c : Creation)
    (g : Grant) (data : Json) (signature : List UInt8) : Prop where
  grant : c.grant = some g
  decoded : decode_token X g.token = some (data, signature)
  exp_eq : t.token_exp = token_exp data
  exp_pos : 0 < t.token_exp
  sig_eq : t.token_sig_hash = sha256_hex H signature
  class_le : t.max_action_class.toNat ≤ token_max_action_class data
  cap_le : ∀ cap, g.scope_cap = some cap → t.max_action_class ≤ cap
  recoveries_le : c.recoveries ≤ run.recoveries
  not_recalled : c.recoveries = run.recoveries → run.pipeline.gateway.recalls data = false

/-- The cache is sound, and every open stream is bound to its creator. -/
structure Faithful (H : Hashes) (X : Crates) (T : Set (List UInt8)) (run : AuthRun) : Prop where
  cache : CacheSound H X run.pipeline.gateway T
  stream : ∀ id t, run.pipeline.streams.tokens id = some t →
    ∃ c g data signature, run.creators.get id = some c ∧ Bound H X run t c g data signature

section

variable {H : Hashes} {X : Crates} {T : Set (List UInt8)} {run run' : AuthRun}
  {call : PacketCall} {p : ParsedPacket}

theorem faithful_start : Faithful H X T AuthRun.start where
  cache := cacheSound_of_empty fun _ => rfl
  stream id t ht := by
    change Option.map _ ((Table.empty : Table Text StreamSession).get id) = some t at ht
    rw [Table.get_empty] at ht
    cases ht

variable {data : Json} {signature : List UInt8}

theorem Bound.transfer {t : StreamToken} {c : Creation} {g : Grant}
    (h : Bound H X run t c g data signature) (hle : run.recoveries ≤ run'.recoveries)
    (hsame : run.recoveries = run'.recoveries →
      run'.pipeline.gateway.epochs.blanket_revoked_before =
        run.pipeline.gateway.epochs.blanket_revoked_before) :
    Bound H X run' t c g data signature where
  grant := h.grant
  decoded := h.decoded
  exp_eq := h.exp_eq
  exp_pos := h.exp_pos
  sig_eq := h.sig_eq
  class_le := h.class_le
  cap_le := h.cap_le
  recoveries_le := h.recoveries_le.trans hle
  not_recalled hrec := by
    have hrun : run.recoveries = run'.recoveries :=
      le_antisymm hle (hrec ▸ h.recoveries_le)
    have hnot := h.not_recalled (hrec.trans hrun.symm)
    unfold ZeroTrustGateway.recalls at hnot ⊢
    rwa [hsame hrun]

theorem Faithful.of_carries (h : Faithful H X T run)
    (hcache : CacheSound H X run'.pipeline.gateway T)
    (hcarries : run'.pipeline.streams.Carries run.pipeline.streams)
    (hcreators : run'.creators = run.creators) (hle : run.recoveries ≤ run'.recoveries)
    (hsame : run.recoveries = run'.recoveries →
      run'.pipeline.gateway.epochs.blanket_revoked_before =
        run.pipeline.gateway.epochs.blanket_revoked_before) : Faithful H X T run' where
  cache := hcache
  stream id t ht := by
    obtain ⟨c, g, data, signature, hc, hb⟩ := h.stream id t (hcarries id t ht)
    exact ⟨c, g, data, signature, hcreators ▸ hc, hb.transfer hle hsame⟩

/-! ## The token of a `STREAM_START` -/

theorem decode_token_raw {token : List UInt8} (h : decode_token X token = some (data, signature)) :
    ∃ raw, X.base64_decode token = some raw ∧ 4 + ofBE (raw.take 4) ≤ raw.length ∧
      X.json_from_slice (slice raw 4 (4 + ofBE (raw.take 4))) = some data := by
  unfold decode_token at h
  split at h
  · cases h
  · rename_i json sig hwire
    obtain ⟨data', hdata, heq⟩ := map_eq_some_iff.mp h
    cases heq
    unfold parse_token_wire at hwire
    split at hwire
    · cases hwire
    · rename_i raw hraw
      split_ifs at hwire with hshort hlen hsig
      rw [Except.ok.injEq, Prod.mk.injEq] at hwire
      refine ⟨raw, hraw, by omega, ?_⟩
      rw [hwire.1]
      unfold parse_claims at hdata
      split at hdata
      · cases hdata
      · rename_i fields hjson
        rw [hjson]
        exact hdata
      · cases hdata

/-- `extract_token_exp` and Gate 1.0 read the same expiry, unless Gate 1.0 reads zero. -/
theorem extract_token_exp_eq {token : List UInt8}
    (h : decode_token X token = some (data, signature)) (hpos : 0 < token_exp data) :
    extract_token_exp X token = token_exp data := by
  obtain ⟨raw, hraw, hlen, hjson⟩ := decode_token_raw h
  have hexp : ((data.get "exp").bind Json.as_rat).getD 0 = token_exp data := by
    unfold token_exp claim_u64 at hpos ⊢
    cases hget : data.get "exp" with
    | none => simp [hget] at hpos
    | some v =>
      cases v
      case pos_int n => simp [Json.as_rat, Json.as_u64]
      all_goals simp [hget, Json.as_u64] at hpos
  unfold extract_token_exp
  rw [hraw]
  dsimp only
  rw [if_neg (by omega), if_neg (by omega), hjson]
  exact hexp

theorem bound_of_full {token : Text} {r : TokenValidationResult}
    (hv : Vouches H X run.pipeline.gateway token r call.wall)
    (hmax : p.max_action_class = trust_capped call.subsystems.scope_cap r.max_action_class)
    (hsig : p.token_sig_hash = r.token_sig_hash) (hwall : 0 < call.wall) :
    ∃ data signature, Bound H X run
      ⟨extract_token_exp X token, p.token_sig_hash, p.max_action_class⟩
      ⟨some ⟨token, call.subsystems.scope_cap⟩, run.recoveries⟩
      ⟨token, call.subsystems.scope_cap⟩ data signature := by
  obtain ⟨data, signature, hdec, hexp, -, hrec, hr, hclass⟩ := hv
  have hpos : 0 < token_exp data := lt_of_lt_of_le hwall hexp
  have heq := extract_token_exp_eq hdec hpos
  have hself : p.max_action_class ≤ trust_capped call.subsystems.scope_cap r.max_action_class := by
    rw [hmax]
    exact UInt8.le_refl _
  obtain ⟨hle, hcap⟩ := le_trust_capped.mp hself
  rw [le_iff_toNat_le, hclass] at hle
  exact ⟨data, signature, rfl, hdec, heq, by rw [heq]; exact hpos, hsig.trans hr, hle, hcap,
    le_refl _, fun _ => hrec⟩

/-! ## One step -/

inductive CallEffect (H : Hashes) (X : Crates) (T : Set (List UInt8)) (s : Pipeline)
    (call : PacketCall) : Pipeline × Result ParsedPacket → Prop
  | refused (s' : Pipeline) (e : SAACPHardDrop) (hframe : PipelineFrame H X T s s') :
      CallEffect H X T s call (s', .error e)
  | accepted (s' : Pipeline) (f : ParsedFrame) (p : ParsedPacket)
      (hframe : PipelineFrame H X T s s') (hf : call.frame = .ok f) (hheader : p.toParsedFrame = f)
      (hcover : p.is_cover_traffic = decide (f.flags &&& FLAG_COVER_TRAFFIC ≠ 0))
      (haccepted : Accepted H X s call p)
      (hstart : p.status_code ≠ SAACPBytecodes.StreamStart.code) :
      CallEffect H X T s call (s', .ok p)
  | started (s' : Pipeline) (f : ParsedFrame) (p : ParsedPacket)
      (hframe : PipelineFrame H X T s s') (hstreams : s'.streams = s.streams)
      (hf : call.frame = .ok f) (hheader : p.toParsedFrame = f)
      (hcover : p.is_cover_traffic = decide (f.flags &&& FLAG_COVER_TRAFFIC ≠ 0))
      (haccepted : Accepted H X s call p)
      (hstart : p.status_code = SAACPBytecodes.StreamStart.code) :
      CallEffect H X T s call (register_stream_start X s' call p, .ok p)

theorem call_effect (call : PacketCall) {s : Pipeline} (hcache : CacheSound H X s.gateway T)
    (hT : ∀ token, call.presented X = some token → token ∈ T) :
    CallEffect H X T s call (intercept_packet_full_with_ctx H X s call) := by
  have hself : PipelineFrame H X T s s := .of_gateway_eq hcache rfl (.refl _)
  unfold intercept_packet_full_with_ctx intercept
  split_ifs
  · exact .refused s _ hself
  · exact .refused s _ hself
  unfold intercept_packet_inner
  cases hgate0 : call.frame.bind gate_0_from_parsed with
  | error e => exact .refused s e hself
  | ok parsed =>
    obtain ⟨f, hf, hparsed⟩ := bind_eq_ok.mp hgate0
    obtain ⟨hparsed_frame, hparsed_cover⟩ := gate_0_from_parsed_ok hparsed
    obtain ⟨hframe, hstreams, hok⟩ := run_gates_spec hcache hgate0 hT
    dsimp only
    cases hrun : run_gates_1_through_12 H X s call parsed with
    | mk s' res =>
      rw [hrun] at hframe hstreams hok
      cases res with
      | error e => exact .refused s' e hframe
      | ok p =>
        obtain ⟨hheader, hcover, haccepted⟩ := hok p rfl
        rw [hparsed_frame] at hheader
        rw [hparsed_cover] at hcover
        dsimp only
        split
        · rename_i hstart
          refine .started s' f p hframe (hstreams ?_) hf hheader hcover haccepted hstart
          rw [hparsed_frame, ← hheader, hstart]
          rfl
        · rename_i hstart
          exact .accepted s' f p hframe hf hheader hcover haccepted hstart

variable (hH : H.Sized) (hinj : Set.InjOn H.sha256 T) (h : Faithful H X T run)
include hH hinj h

open AuthRun

theorem Faithful.started {s' : Pipeline} {f : ParsedFrame}
    (hT : ∀ token, call.presented X = some token → token ∈ T)
    (hframe : PipelineFrame H X T run.pipeline s') (hstreams : s'.streams = run.pipeline.streams)
    (hheader : p.toParsedFrame = f)
    (hcover : p.is_cover_traffic = decide (f.flags &&& FLAG_COVER_TRAFFIC ≠ 0))
    (haccepted : Accepted H X run.pipeline call p)
    (hstart : p.status_code = SAACPBytecodes.StreamStart.code) (hproper : run.ProperFrame call f) :
    Faithful H X T { run with
      pipeline := register_stream_start X s' call p
      creators := run.record_creation H X call (.ok p) } := by
  have hexempt : is_schema_exempt p.status_code = false := by rw [hstart]; rfl
  obtain ⟨hunmarked, hwall, hcap⟩ := hproper.1 (by rw [← hheader]; exact hstart)
  -- unmarked and no stream frame, so this is the full pipeline
  cases haccepted with
  | stream hex =>
    rw [hexempt] at hex
    cases hex
  | cover _ hmarked =>
    rw [hcover, hunmarked] at hmarked
    cases hmarked
  | full _ token r hpresented hverdict htoken hmax hsig hclass =>
    have hv := validate_lateral_movement_ok hH hinj h.cache (hT token hpresented) hverdict
    have hgranted : run.granted H X call = some ⟨token, call.subsystems.scope_cap⟩ := by
      simp [granted, validated_token, hpresented, hverdict]
    have hregister : register_stream_start X s' call p = { s' with
        streams := register_stream_start_token X (run.pipeline.streams.start_stream p.session_uuid
          p.source_agent call.current_agent_name call.wall).1 p.session_uuid token
          p.token_sig_hash p.source_agent p.max_action_class } := by
      unfold register_stream_start
      rw [htoken, hstreams]
    refine ⟨by rw [hregister]; exact hframe.cache, ?_⟩
    intro id t ht
    rw [hregister] at ht
    -- the bindings of `run` hold in the new run, whose blanket revocations are the same
    have htransfer : ∀ {t c g data signature}, Bound H X run t c g data signature →
        Bound H X { run with
          pipeline := register_stream_start X s' call p
          creators := run.record_creation H X call (.ok p) } t c g data signature := by
      intro t c g data signature hb
      refine hb.transfer (le_refl _) fun _ => ?_
      rw [hregister]
      exact congrArg GatewayEpochs.blanket_revoked_before hframe.epochs
    by_cases hbelow : run.pipeline.streams.below_cap call.current_agent_name = true
    · have hcreators : run.record_creation H X call (.ok p) = run.creators.insert p.session_uuid
          ⟨some ⟨token, call.subsystems.scope_cap⟩, run.recoveries⟩ := by
        simp [record_creation, hstart, hbelow, hgranted]
      rcases tokens_start_set hbelow ht with ⟨rfl, rfl⟩ | ⟨hid, hold⟩
      · obtain ⟨data, signature, hb⟩ := bound_of_full hv hmax hsig hwall
        refine ⟨_, _, data, signature, ?_, htransfer hb⟩
        show (run.record_creation H X call (.ok p)).get p.session_uuid = _
        rw [hcreators, get_insert_self]
      · obtain ⟨c, g, data, signature, hc, hb⟩ := h.stream id t hold
        refine ⟨c, g, data, signature, ?_, htransfer hb⟩
        show (run.record_creation H X call (.ok p)).get id = _
        rw [hcreators, get_insert, if_neg hid]
        exact hc
    · -- at the cap nothing is created, and there is no stream whose token could be swapped
      have hnone := hcap.resolve_left hbelow
      have hcreators : run.record_creation H X call (.ok p) = run.creators := by
        simp [record_creation, hbelow]
      have hold : run.pipeline.streams.tokens id = some t := by
        rw [register_stream_start_token, start_stream_of_cap
          (Bool.not_eq_true _ ▸ hbelow), set_stream_token_info,
          tokens_modify] at ht
        split at ht
        · rw [← hheader] at hnone
          unfold Table.contains at hnone
          rw [isSome_eq_false_iff, isNone_iff_eq_none] at hnone
          rw [hnone] at ht
          cases ht
        · exact ht
      obtain ⟨c, g, data, signature, hc, hb⟩ := h.stream id t hold
      exact ⟨c, g, data, signature, hcreators ▸ hc, htransfer hb⟩

theorem Faithful.handled (hT : ∀ token, call.presented X = some token → token ∈ T)
    (hproper : ∀ f, call.frame = .ok f → run.ProperFrame call f) :
    Faithful H X T { run with
      pipeline := (intercept_packet_full_with_ctx H X run.pipeline call).1
      creators := run.record_creation H X call
        (intercept_packet_full_with_ctx H X run.pipeline call).2 } := by
  have heffect := call_effect call h.cache hT
  cases hres : intercept_packet_full_with_ctx H X run.pipeline call with
  | mk s' res =>
    rw [hres] at heffect
    have hkeep : ∀ s'' : Pipeline, PipelineFrame H X T run.pipeline s'' →
        Faithful H X T { run with pipeline := s'' } := fun s'' hframe =>
      h.of_carries hframe.cache hframe.carries rfl (le_refl _) fun _ =>
        congrArg GatewayEpochs.blanket_revoked_before hframe.epochs
    cases heffect with
    | refused _ e hframe => exact hkeep s' hframe
    | accepted _ f p hframe hf hheader hcover haccepted hstart =>
      have hcreators : run.record_creation H X call (.ok p) = run.creators := by
        simp [record_creation, hstart]
      rw [hcreators]
      exact hkeep s' hframe
    | started s₁ f p hframe hstreams hf hheader hcover haccepted hstart =>
      exact h.started hH hinj hT hframe hstreams hheader hcover haccepted hstart (hproper f hf)

theorem Faithful.step {st : PipelineStep}
    (hT : ∀ call token, st.call = some call → call.presented X = some token → token ∈ T)
    (hproper : run.ProperStep st) : Faithful H X T (run.step H X st) := by
  have hpacket : ∀ call, st.call = some call → ∀ f, call.frame = .ok f →
      run.ProperFrame call f := by
    intro call hcall f hf
    unfold AuthRun.ProperStep at hproper
    rw [hcall] at hproper
    simpa [hf] using hproper
  -- the steps in between leave streams and creators alone, and all but one the blanket
  have hgateway : ∀ gw : ZeroTrustGateway, CacheSound H X gw T → gw.epochs.blanket_revoked_before =
        run.pipeline.gateway.epochs.blanket_revoked_before →
      Faithful H X T { run with pipeline := { run.pipeline with gateway := gw } } :=
    fun gw hcache hblanket =>
      h.of_carries hcache (.refl _) rfl (le_refl _) fun _ => hblanket
  cases st with
  | full call => exact h.handled hH hinj (fun token => hT call token rfl) (hpacket call rfl)
  | encrypted call =>
    have hfull := h.handled hH hinj (fun token => hT call token rfl) (hpacket call rfl)
    rw [← intercept_encrypted_eq] at hfull
    exact hfull
  | revoke_token token_b64 wall =>
    refine hgateway _ (h.cache.revoke_token token_b64 wall) ?_
    exact revoke_token_blanket token_b64 wall
  | revoke_all_tokens wall =>
    refine h.of_carries (cacheSound_of_empty fun _ => rfl) (.refl _) rfl (Nat.le_succ _) ?_
    intro heq
    exact absurd heq (Nat.lt_succ_self run.recoveries).ne
  | prune_expired_revocations wall => exact hgateway _ (h.cache.prune wall) rfl
  | register_issuer_key issuer issuer_secret =>
    refine hgateway _ (h.cache.register_issuer_key issuer issuer_secret) ?_
    unfold ZeroTrustGateway.register_issuer_key
    split_ifs <;> rfl
  | clear_trusted_issuers | set_strict_asymmetric_mode | register_key_source =>
    exact hgateway _ (cacheSound_of_empty fun _ => rfl) rfl
  | sweep_expired wall =>
    exact h.of_carries h.cache (run.pipeline.streams.sweep_expired_carries wall) rfl (le_refl _)
      fun _ => rfl

/-! ## Whole runs -/

theorem Faithful.steps {sts : List PipelineStep} (hT : ∀ token ∈ presented_tokens X sts, token ∈ T)
    (hproper : AuthRun.Proper H X run sts) : Faithful H X T (run.steps H X sts) := by
  induction sts generalizing run with
  | nil => exact h
  | cons st sts ih =>
    have hstep : ∀ call token, st.call = some call → call.presented X = some token → token ∈ T := by
      intro call token hcall htoken
      exact hT token (mem_filterMap.mpr ⟨st, mem_cons_self, by simp [hcall, htoken]⟩)
    refine ih (h.step hH hinj hstep hproper.1) (fun token htoken => ?_) hproper.2
    obtain ⟨st', hmem, hst'⟩ := mem_filterMap.mp htoken
    exact hT token (mem_filterMap.mpr ⟨st', mem_cons_of_mem _ hmem, hst'⟩)

omit hH hinj h

theorem AuthRun.proper_append {sts sts' : List PipelineStep} :
    AuthRun.Proper H X run (sts ++ sts') ↔
      AuthRun.Proper H X run sts ∧ AuthRun.Proper H X (run.steps H X sts) sts' := by
  induction sts generalizing run with
  | nil => simp [AuthRun.Proper, steps]
  | cons st sts ih =>
    simp only [cons_append, AuthRun.Proper, ih, and_assoc, steps, foldl_cons]

theorem Faithful.authorized (hH : H.Sized) (hinj : Set.InjOn H.sha256 T)
    (h : Faithful H X T run) (hT : ∀ token, call.presented X = some token → token ∈ T)
    (hproper : ∀ f, call.frame = .ok f → run.ProperFrame call f)
    (hok : (intercept_packet_full_with_ctx H X run.pipeline call).2 = .ok p)
    (hreal : p.is_cover_traffic = false) : run.Authorized H X call p := by
  have heffect := call_effect call h.cache hT
  -- whether a stream was started or not, the packet was accepted in one of three ways
  have haccepted : Accepted H X run.pipeline call p ∧ ∃ f, call.frame = .ok f ∧
      p.toParsedFrame = f ∧ f.flags &&& FLAG_COVER_TRAFFIC = 0 := by
    cases hres : intercept_packet_full_with_ctx H X run.pipeline call with
    | mk s' res =>
      rw [hres] at heffect hok
      cases heffect with
      | refused => cases hok
      | accepted _ f q _ hf hheader hcover haccepted _ =>
        cases hok
        exact ⟨haccepted, f, hf, hheader, by simpa [hcover] using hreal⟩
      | started _ f q _ _ hf hheader hcover haccepted _ =>
        cases hok
        exact ⟨haccepted, f, hf, hheader, by simpa [hcover] using hreal⟩
  obtain ⟨haccepted, f, hf, rfl, hunmarked⟩ := haccepted
  cases haccepted with
  | cover _ hcover =>
    rw [hcover] at hreal
    cases hreal
  | full _ token r hpresented hverdict _ hmax _ hclass =>
    have hv := validate_lateral_movement_ok hH hinj h.cache (hT token hpresented) hverdict
    obtain ⟨data, signature, hdec, hexp, hrev, hrec, -, hr⟩ := hv
    rw [hmax] at hclass
    obtain ⟨hle, hcap⟩ := le_trust_capped.mp hclass
    rw [le_iff_toNat_le] at hle
    refine ⟨⟨token, call.subsystems.scope_cap⟩, .inl ?_, data, signature, hdec, hexp, hrev, hrec,
      by omega, hcap⟩
    simp [granted, validated_token, hpresented, hverdict]
  | stream hexempt hchecked hopen =>
    obtain ⟨hclock, hrecov, hend⟩ := (hproper _ hf).2 ⟨hexempt, hunmarked⟩
    -- the stream is open: a continuation needs it, and an end is proper only with it
    have hsome : ∃ t, run.pipeline.streams.tokens p.session_uuid = some t := by
      rw [← isSome_iff_exists]
      by_cases hcont : p.status_code = STATUS_STREAM_CONTINUATION
      · exact hopen hcont
      · have hstatus : p.status_code = STATUS_STREAM_END := by
          simpa [is_schema_exempt, hcont] using hexempt
        simpa [StreamRegistry.tokens, Table.contains] using hend hstatus
    obtain ⟨t, ht⟩ := hsome
    obtain ⟨c, g, data, signature, hc, hb⟩ := h.stream _ t ht
    obtain ⟨hexp, hrev, hclass⟩ := hchecked t ht
    have hsame : c.recoveries = run.recoveries := by simpa [hc] using hrecov
    have hsig : t.token_sig_hash ≠ [] := by
      intro hnil
      have hlen := length_sha256_hex hH signature
      rw [← hb.sig_eq, hnil] at hlen
      cases hlen
    refine ⟨g, .inr ⟨hexempt, by rw [hc]; exact hb.grant⟩, data, signature, hb.decoded, ?_, ?_,
      hb.not_recalled hsame, ?_, ?_⟩
    · rw [← hb.exp_eq]
      exact hclock.trans (hexp hb.exp_pos)
    · rw [← hb.sig_eq]
      exact hrev hsig
    · have hle := hb.class_le
      rw [le_iff_toNat_le] at hclass
      omega
    · intro cap hcap
      exact UInt8.le_trans hclass (hb.cap_le cap hcap)

/-- **Authorization invariance.** In every run from a new gateway and registry whose steps all
are proper, and whose tokens have different hashes, a packet that an entry point accepts and
that is not marked as cover traffic stands on a token: one that Gate 1.0 validated in this call
or in the packet that created the stream, unexpired at the time of the call, neither revoked
nor recalled, and of a sufficient action class. -/
theorem authorization_invariance (hH : H.Sized) (sts : List PipelineStep) (st : PipelineStep)
    (hfree : ∀ a ∈ presented_tokens X (sts ++ [st]), ∀ b ∈ presented_tokens X (sts ++ [st]),
      H.sha256 a = H.sha256 b → a = b) (hproper : AuthRun.Proper H X .start (sts ++ [st]))
    (hcall : st.call = some call) (hok : (AuthRun.start.steps H X sts).answer H X st = some (.ok p))
    (hreal : p.is_cover_traffic = false) : (AuthRun.start.steps H X sts).Authorized H X call p := by
  let T : Set (List UInt8) := {token | token ∈ presented_tokens X (sts ++ [st])}
  have hinj : Set.InjOn H.sha256 T := fun a ha b hb => hfree a ha b hb
  obtain ⟨hsts, hst, -⟩ := proper_append.mp hproper
  have hprefix : ∀ token ∈ presented_tokens X sts, token ∈ T := by
    intro token htoken
    show token ∈ presented_tokens X (sts ++ [st])
    unfold presented_tokens at htoken ⊢
    rw [filterMap_append]
    exact mem_append_left _ htoken
  have hlast : ∀ token, call.presented X = some token → token ∈ T := by
    intro token htoken
    refine mem_filterMap.mpr ⟨st, by simp, ?_⟩
    rw [hcall]
    exact htoken
  have hfaithful := faithful_start.steps hH hinj hprefix hsts
  have hframe : ∀ f, call.frame = .ok f → (start.steps H X sts).ProperFrame call f := by
    intro f hf
    unfold AuthRun.ProperStep at hst
    rw [hcall] at hst
    simpa [hf] using hst
  have hfull : (intercept_packet_full_with_ctx H X (start.steps H X sts).pipeline
      call).2 = .ok p := by
    cases st
    case full c =>
      cases hcall
      exact some.inj hok
    case encrypted c =>
      cases hcall
      rw [← intercept_encrypted_eq]
      exact some.inj hok
    all_goals cases hcall
  exact hfaithful.authorized hH hinj hlast hframe hfull hreal

end

/-! ## A concrete run -/

def sampleSubsystems : Subsystems where
  is_locked := false
  requires_reauth := false
  scope_cap := none
  bound_client := none
  audit_health := .Healthy
  keys := ⟨fun _ => none, fun _ => none⟩
  gate _ _ := .ok ()
  validate_payload _ _ := .ok ()

def sampleCall (status_code action_class : UInt8) (sequence_id : UInt64) (payload : List UInt8)
    (now : ℚ) : PacketCall where
  frame := .ok
    { schema_id := 1
      status_code
      flags := 0
      action_class
      session_uuid := ascii "5e5510"
      sequence_id
      context_state_id := []
      context_version := 0
      traceparent := []
      payload }
  current_agent_name := ascii "svc"
  secret_key := List.replicate 32 7
  is_pinned := false
  wall := now
  mono := now
  subsystems := sampleSubsystems

def sampleRun : List PipelineStep :=
  [.full (sampleCall 0x17 0 1 (samplePayload.compact fun _ => []) 1000),
   .encrypted (sampleCall 0x18 1 2 (ascii "part") 1001)]

def sampleEnd : PacketCall := sampleCall 0x19 1 3 (ascii "last") 1002

def accepts_real (answer : Option (Result ParsedPacket)) : Bool :=
  match answer with
  | some (.ok p) => !p.is_cover_traffic
  | _ => false

theorem authorization_invariance_stream :
    ∃ p, (AuthRun.start.steps sampleHashes sampleCrates sampleRun).answer sampleHashes sampleCrates
        (.full sampleEnd) = some (.ok p) ∧
      (AuthRun.start.steps sampleHashes sampleCrates sampleRun).Authorized sampleHashes
        sampleCrates sampleEnd p := by
  have haccepts : accepts_real ((AuthRun.start.steps sampleHashes sampleCrates sampleRun).answer
      sampleHashes sampleCrates (.full sampleEnd)) = true := by decide +kernel
  cases hanswer : (AuthRun.start.steps sampleHashes sampleCrates sampleRun).answer sampleHashes
      sampleCrates (.full sampleEnd) with
  | none => rw [hanswer] at haccepts; cases haccepts
  | some res =>
    cases res with
    | error e => rw [hanswer] at haccepts; cases haccepts
    | ok p =>
      rw [hanswer] at haccepts
      refine ⟨p, rfl, authorization_invariance (H := sampleHashes) Sha256.length_sha256 sampleRun
        (.full sampleEnd) ?_ ?_ rfl hanswer (by simpa [accepts_real] using haccepts)⟩
      · decide +kernel
      · decide +kernel

def strayEnd : PacketCall := sampleCall 0x19 2 1 (ascii "last") 1000

theorem stray_end_unauthorized :
    ∃ p, AuthRun.start.answer sampleHashes sampleCrates (.full strayEnd) = some (.ok p) ∧
      p.is_cover_traffic = false ∧ p.action_class = 2 ∧
      ¬ AuthRun.start.Authorized sampleHashes sampleCrates strayEnd p := by
  refine ⟨_, rfl, rfl, rfl, ?_⟩
  rintro ⟨g, hgranted | ⟨-, hcreated⟩, -⟩
  · cases hgranted
  · cases hcreated

end Saacp
