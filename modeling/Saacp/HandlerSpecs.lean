/-
What an **accepted packet** says about the call: one inversion of each piece of the pipeline,
then one of the pipeline (`Accepted`), and the frame of a call (`pipeline_frame`), whether it
accepts or not.

The two entry points route stream frames at different places and come to the same
(`intercept_encrypted_eq`), so everything is proved about one of them.
-/
import Saacp.Handler

set_option autoImplicit false

open ByteCodec

namespace Saacp

/-! ## Pieces of the pipeline -/

theorem gate_0_from_parsed_ok {f : ParsedFrame} {p : ParsedPacket}
    (h : gate_0_from_parsed f = .ok p) :
    p.toParsedFrame = f ∧ p.is_cover_traffic = decide (f.flags &&& FLAG_COVER_TRAFFIC ≠ 0) := by
  unfold gate_0_from_parsed at h
  by_cases hschema : f.schema_id = 0
  · simp [hschema] at h
  · rw [if_neg hschema, Except.ok.injEq] at h
    rw [← h]
    exact ⟨rfl, rfl⟩

theorem le_trust_capped {cap : Option UInt8} {a m : UInt8} :
    a ≤ trust_capped cap m ↔ a ≤ m ∧ ∀ k, cap = some k → a ≤ k := by
  unfold trust_capped
  split
  · rename_i k
    simp only [Option.some.injEq, forall_eq', UInt8.le_iff_toNat_le]
    by_cases hmk : m ≤ k
    · have hmin : min m k = m := if_pos hmk
      rw [UInt8.le_iff_toNat_le] at hmk
      rw [hmin]
      omega
    · have hmin : min m k = k := if_neg hmk
      rw [UInt8.le_iff_toNat_le] at hmk
      rw [hmin]
      omega
  · simp

theorem gate_2_5_ok {action_class max_action_class : UInt8} {health : AuditHealth} {u : Unit}
    (h : gate_2_5_kinetic_firewall action_class max_action_class health = .ok u) :
    action_class ≤ max_action_class := by
  unfold gate_2_5_kinetic_firewall at h
  by_cases hesc : max_action_class < action_class
  · simp [hesc] at h
  · exact UInt8.not_lt.mp hesc

section

variable {H : Hashes} {X : Crates} {s s' : Pipeline} {gw : ZeroTrustGateway} {call : PacketCall}
  {parsed p : ParsedPacket} {json : ParsedPayloadJson} {token : Text}
  {r : TokenValidationResult}

theorem before_gate_1_0_ok (h : before_gate_1_0 X call parsed = .ok (p, json, token)) :
    p.toParsedFrame = parsed.toParsedFrame ∧ p.is_cover_traffic = parsed.is_cover_traffic ∧
      p.payload_dict.get "_capability_token" = some (.string token) := by
  unfold before_gate_1_0 at h
  simp only [bind_eq_ok] at h
  obtain ⟨⟨dict, json'⟩, -, _, -, htail⟩ := h
  dsimp only at htail
  split at htail
  · rename_i token' hget
    cases htail
    exact ⟨rfl, rfl, hget⟩
  · cases htail

theorem annotated_header (p : ParsedPacket) (ceiling : UInt8) (r : TokenValidationResult) :
    let q := ((p.authorized ceiling r).constrained r).annotated ceiling r
    q.toParsedFrame = p.toParsedFrame ∧ q.is_cover_traffic = p.is_cover_traffic ∧
      q.max_action_class = ceiling ∧ q.token_sig_hash = r.token_sig_hash := by
  unfold ParsedPacket.annotated ParsedPacket.constrained
  split <;> exact ⟨rfl, rfl, rfl, rfl⟩

theorem after_gate_1_0_ok (h : after_gate_1_0 X call parsed json r = .ok p) :
    p.toParsedFrame = parsed.toParsedFrame ∧ p.is_cover_traffic = parsed.is_cover_traffic ∧
      p.max_action_class = trust_capped call.subsystems.scope_cap r.max_action_class ∧
      p.token_sig_hash = r.token_sig_hash ∧
      p.payload_dict.get "_capability_token" = parsed.payload_dict.get "_capability_token" ∧
      p.action_class ≤ p.max_action_class := by
  unfold after_gate_1_0 at h
  simp only [bind_eq_ok] at h
  obtain ⟨_, -, _, hkinetic, _, -, htail⟩ := h
  have hclass := gate_2_5_ok hkinetic
  -- Gate 1.5 may or may not run; either way the remaining gates and the result are the same
  let cap := trust_capped call.subsystems.scope_cap r.max_action_class
  have hp : p = ((parsed.authorized cap r).constrained r).annotated cap r := by
    split at htail
    · simp only [bind_eq_ok] at htail
      obtain ⟨_, -, _, -, hres⟩ := htail
      exact (Except.ok.inj hres).symm
    · simp only [bind_eq_ok] at htail
      obtain ⟨_, -, hres⟩ := htail
      exact (Except.ok.inj hres).symm
  obtain ⟨hframe, hcover, hmax, hsig⟩ := annotated_header parsed cap r
  subst hp
  refine ⟨hframe, hcover, hmax, hsig, ?_, ?_⟩
  · unfold ParsedPacket.annotated ParsedPacket.constrained
    split <;> simp [Table.get_insert, ParsedPacket.authorized]
  · rw [hmax, show (ParsedPacket.annotated _ _ r).action_class = parsed.action_class from
      congrArg ParsedFrame.action_class hframe]
    exact hclass

theorem stream_token_gates_ok {aborted : String} {info : StreamInfo} {u : Unit}
    (h : stream_token_gates aborted gw call info p = .ok u) :
    (0 < info.token_exp → call.mono ≤ info.token_exp) ∧
      (info.token_sig_hash ≠ [] → gw.is_token_revoked info.token_sig_hash = false) ∧
      p.action_class ≤ info.max_action_class := by
  unfold stream_token_gates at h
  by_cases hexp : 0 < info.token_exp ∧ info.token_exp < call.mono
  · simp [hexp] at h
  rw [if_neg hexp] at h
  by_cases hrev : info.token_sig_hash.isEmpty = false ∧ gw.is_token_revoked info.token_sig_hash
  · simp only [if_pos hrev, reduceCtorEq] at h
  rw [if_neg hrev] at h
  refine ⟨fun hpos => ?_, fun hne => ?_, gate_2_5_ok h⟩
  · exact not_lt.mp fun hlt => hexp ⟨hpos, hlt⟩
  · simpa [hne] using hrev

/-! ## The stream cores -/

/-- The checks a stream frame has passed, when its stream was open. -/
def StreamChecked (s : Pipeline) (call : PacketCall) (p : ParsedPacket) : Prop :=
  ∀ t, s.streams.tokens p.session_uuid = some t → (0 < t.token_exp → call.mono ≤ t.token_exp) ∧
      (t.token_sig_hash ≠ [] → s.gateway.is_token_revoked t.token_sig_hash = false) ∧
      p.action_class ≤ t.max_action_class

theorem streamChecked_of_info {aborted : String} {info : StreamInfo} {u : Unit}
    (hinfo : s.streams.get_stream_info p.session_uuid = some info)
    (h : stream_token_gates aborted s.gateway call info p = .ok u) :
    StreamChecked s call p ∧ (s.streams.tokens p.session_uuid).isSome := by
  unfold StreamRegistry.get_stream_info at hinfo
  obtain ⟨session, hget, rfl⟩ := Option.map_eq_some_iff.mp hinfo
  refine ⟨fun t ht => ?_, by simp [StreamRegistry.tokens, hget]⟩
  unfold StreamRegistry.tokens at ht
  rw [hget, Option.map_some, Option.some.injEq] at ht
  rw [← ht]
  exact stream_token_gates_ok h

theorem stream_continuation_spec (X : Crates) (s : Pipeline) (call : PacketCall)
    (parsed : ParsedPacket) :
    let after := stream_continuation_core X s call parsed
    after.1.gateway = s.gateway ∧ after.1.streams.Carries s.streams ∧
      ∀ p, after.2 = .ok p → p = parsed.with_stream_data X ∧ StreamChecked s call parsed ∧
        (s.streams.tokens parsed.session_uuid).isSome := by
  unfold stream_continuation_core
  split
  · exact ⟨rfl, .refl _, nofun⟩
  · rename_i info hinfo
    split
    · exact ⟨rfl, s.streams.abort_stream_carries _, nofun⟩
    · rename_i hgates
      split
      · exact ⟨rfl, .refl _, nofun⟩
      · split
        · exact ⟨rfl, .refl _, nofun⟩
        · exact ⟨rfl, s.streams.continue_stream_carries _ _ _ _,
            fun p hp => ⟨(Except.ok.inj hp).symm, streamChecked_of_info hinfo hgates⟩⟩

theorem stream_end_spec (X : Crates) (s : Pipeline) (call : PacketCall) (parsed : ParsedPacket) :
    let after := stream_end_core X s call parsed
    after.1.gateway = s.gateway ∧ after.1.streams.Carries s.streams ∧
      ∀ p, after.2 = .ok p → p = parsed.with_stream_data X ∧ StreamChecked s call parsed := by
  unfold stream_end_core
  split
  · rename_i hinfo
    refine ⟨rfl, .refl _, fun p hp => ⟨(Except.ok.inj hp).symm, fun t ht => ?_⟩⟩
    unfold StreamRegistry.get_stream_info at hinfo
    unfold StreamRegistry.tokens at ht
    rw [Option.map_eq_none_iff.mp hinfo] at ht
    cases ht
  · rename_i info hinfo
    split
    · exact ⟨rfl, s.streams.abort_stream_carries _, nofun⟩
    · rename_i hgates
      split
      · exact ⟨rfl, .refl _, nofun⟩
      · exact ⟨rfl, s.streams.drop_stream_carries _,
          fun p hp => ⟨(Except.ok.inj hp).symm, (streamChecked_of_info hinfo hgates).1⟩⟩

/-! ## The entry points -/

/-- Routing stream frames before `run_gates_1_through_12` instead of inside it changes
nothing. -/
theorem intercept_encrypted_eq (H : Hashes) (X : Crates) (s : Pipeline) (call : PacketCall) :
    intercept_packet_encrypted_with_ctx H X s call = intercept_packet_full_with_ctx H X s call := by
  have hinner : intercept_encrypted_inner H X = intercept_packet_inner H X := by
    funext s call
    unfold intercept_encrypted_inner intercept_packet_inner
    split
    · rfl
    · unfold run_gates_1_through_12
      split_ifs <;> rfl
  unfold intercept_packet_encrypted_with_ctx intercept_packet_full_with_ctx
  rw [hinner]

def PacketCall.gate_0 (call : PacketCall) : Result ParsedPacket :=
  call.frame.bind gate_0_from_parsed

def PacketCall.presented (X : Crates) (call : PacketCall) : Option Text :=
  match call.gate_0 with
  | .error _ => none
  | .ok parsed =>
    if is_schema_exempt parsed.status_code ∨ parsed.is_cover_traffic then none
    else
      match before_gate_1_0 X call parsed with
      | .error _ => none
      | .ok (_, _, token) => some token

def validated_token (H : Hashes) (X : Crates) (gw : ZeroTrustGateway) (call : PacketCall) :
    Option Text :=
  match call.presented X with
  | none => none
  | some token =>
    match (gw.validate_lateral_movement H X call.subsystems.keys call.current_agent_name token
      call.secret_key call.wall).2 with
    | .error _ => none
    | .ok _ => some token

inductive Accepted (H : Hashes) (X : Crates) (s : Pipeline) (call : PacketCall)
    (p : ParsedPacket) : Prop
  /-- A stream frame, checked against the token its stream has kept. -/
  | stream (hexempt : is_schema_exempt p.status_code = true) (hchecked : StreamChecked s call p)
      (hopen : p.status_code = STATUS_STREAM_CONTINUATION →
        (s.streams.tokens p.session_uuid).isSome)
  | cover (hexempt : is_schema_exempt p.status_code = false) (hcover : p.is_cover_traffic = true)
      (hdict : p.payload_dict = .empty)
  /-- The full pipeline, with a verdict of Gate 1.0. -/
  | full (hexempt : is_schema_exempt p.status_code = false) (token : Text)
      (r : TokenValidationResult) (hpresented : call.presented X = some token)
      (hverdict : (s.gateway.validate_lateral_movement H X call.subsystems.keys
        call.current_agent_name token call.secret_key call.wall).2 = .ok r)
      (htoken : p.payload_dict.get "_capability_token" = some (.string token))
      (hmax : p.max_action_class = trust_capped call.subsystems.scope_cap r.max_action_class)
      (hsig : p.token_sig_hash = r.token_sig_hash)
      (hclass : p.action_class ≤ p.max_action_class)

/-! ## What a call leaves alone -/

/-- Revocations and epochs are untouched, and no stream is opened or given another token. -/
structure PipelineFrame (H : Hashes) (X : Crates) (T : Set (List UInt8)) (s s' : Pipeline) :
    Prop where
  cache : CacheSound H X s'.gateway T
  revoked : s'.gateway.revoked_tokens = s.gateway.revoked_tokens
  epochs : s'.gateway.epochs = s.gateway.epochs
  carries : s'.streams.Carries s.streams

variable {T : Set (List UInt8)}

theorem PipelineFrame.of_gateway_eq (hcache : CacheSound H X s.gateway T)
    (hgw : s'.gateway = s.gateway) (hcarries : s'.streams.Carries s.streams) :
    PipelineFrame H X T s s' where
  cache := by rw [hgw]; exact hcache
  revoked := by rw [hgw]
  epochs := by rw [hgw]
  carries := hcarries

theorem run_gates_spec (hcache : CacheSound H X s.gateway T) (hgate0 : call.gate_0 = .ok parsed)
    (hT : ∀ token, call.presented X = some token → token ∈ T) :
    let after := run_gates_1_through_12 H X s call parsed
    PipelineFrame H X T s after.1 ∧
      (is_schema_exempt parsed.status_code = false → after.1.streams = s.streams) ∧
      ∀ p, after.2 = .ok p → p.toParsedFrame = parsed.toParsedFrame ∧
        p.is_cover_traffic = parsed.is_cover_traffic ∧ Accepted H X s call p := by
  unfold run_gates_1_through_12
  by_cases hcont : parsed.status_code = SAACPBytecodes.StreamContinuation.code
  · rw [if_pos hcont]
    obtain ⟨hgw, hcarries, hok⟩ := stream_continuation_spec X s call parsed
    have hexempt : is_schema_exempt parsed.status_code = true := by
      rw [hcont]
      rfl
    refine ⟨.of_gateway_eq hcache hgw hcarries, fun h => absurd (hexempt.symm.trans h) nofun, ?_⟩
    intro p hp
    obtain ⟨rfl, hchecked, hopen⟩ := hok p hp
    exact ⟨rfl, rfl, .stream hexempt hchecked fun _ => hopen⟩
  rw [if_neg hcont]
  by_cases hend : parsed.status_code = SAACPBytecodes.StreamEnd.code
  · rw [if_pos hend]
    obtain ⟨hgw, hcarries, hok⟩ := stream_end_spec X s call parsed
    have hexempt : is_schema_exempt parsed.status_code = true := by
      rw [hend]
      rfl
    refine ⟨.of_gateway_eq hcache hgw hcarries, fun h => absurd (hexempt.symm.trans h) nofun, ?_⟩
    intro p hp
    obtain ⟨rfl, hchecked⟩ := hok p hp
    exact ⟨rfl, rfl, .stream hexempt hchecked fun hc => absurd hc hcont⟩
  rw [if_neg hend]
  have hself : PipelineFrame H X T s s := .of_gateway_eq hcache rfl (.refl _)
  by_cases hschema : parsed.schema_id = 0
  · rw [if_pos hschema]
    exact ⟨hself, fun _ => rfl, nofun⟩
  rw [if_neg hschema]
  have hexempt : is_schema_exempt parsed.status_code = false := by
    simp only [is_schema_exempt, Bool.or_eq_false_iff, beq_eq_false_iff_ne]
    exact ⟨hcont, hend⟩
  by_cases hcover : parsed.is_cover_traffic
  · rw [if_pos hcover]
    refine ⟨hself, fun _ => rfl, ?_⟩
    rintro p ⟨⟩
    refine ⟨rfl, rfl, .cover hexempt hcover ?_⟩
    unfold PacketCall.gate_0 at hgate0
    obtain ⟨f, -, hf⟩ := bind_eq_ok.mp hgate0
    unfold gate_0_from_parsed at hf
    split at hf
    · cases hf
    · cases hf
      rfl
  rw [if_neg hcover]
  unfold gate_1_0
  cases hbefore : before_gate_1_0 X call parsed with
  | error e => exact ⟨hself, fun _ => rfl, nofun⟩
  | ok out =>
    obtain ⟨packet, json, token⟩ := out
    have hpresented : call.presented X = some token := by
      simp [PacketCall.presented, hgate0, hexempt, hcover, hbefore]
    -- whichever way Gate 1.0 decides, the gateway is the one its validation leaves
    obtain ⟨hsound, hrevoked, hepochs⟩ := hcache.validate (hT token hpresented)
      call.subsystems.keys call.current_agent_name call.secret_key call.wall
    dsimp only
    cases hvalidate : s.gateway.validate_lateral_movement H X call.subsystems.keys
      call.current_agent_name token call.secret_key call.wall with
    | mk gw verdict =>
      rw [hvalidate] at hsound hrevoked hepochs
      have hvalidated : PipelineFrame H X T s { s with gateway := gw } :=
        ⟨hsound, hrevoked, hepochs, .refl _⟩
      cases verdict with
      | error e => exact ⟨hvalidated, fun _ => rfl, nofun⟩
      | ok r =>
        refine ⟨hvalidated, fun _ => rfl, ?_⟩
        intro p hp
        obtain ⟨hframe, hcov, hget⟩ := before_gate_1_0_ok hbefore
        obtain ⟨hframe', hcov', hmax, hsig, hget', hclass⟩ := after_gate_1_0_ok hp
        have hheader := hframe'.trans hframe
        refine ⟨hheader, hcov'.trans hcov, .full ?_ token r hpresented ?_ (hget'.trans hget) hmax
          hsig hclass⟩
        · rw [show p.status_code = parsed.status_code from congrArg ParsedFrame.status_code hheader]
          exact hexempt
        · rw [hvalidate]

end

end Saacp
