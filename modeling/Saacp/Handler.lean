/-
The **gate pipeline** of the protocol handler, around one injected gateway and one stream registry.

A packet that clears Gate 0 takes one of four paths: a stream continuation, a stream end, cover
traffic, or the full pipeline. Modelled in full are the four paths, the payload dictionary, Gate
1.0, the trust cap, the identity cross-check, Gate 2.5, the annotations and the stream table. What
the other subsystems of a context decide is read from `Subsystems`, afresh in every call and without
any assumption; a gate that rejects can only take packets away. A call reads each of the two clocks
once.
-/
import Saacp.GatewaySpecs
import Saacp.StreamRegistry

set_option autoImplicit false

open ByteCodec

namespace Saacp

def FLAG_COVER_TRAFFIC : UInt8 := 0x80
def FLAG_BINARY_STREAM : UInt8 := 0x02
def STATUS_STREAM_CONTINUATION : UInt8 := 0x18
def STATUS_STREAM_END : UInt8 := 0x19
def MAX_PAYLOAD_KEYS : ℕ := 4096
def MAX_PAYLOAD_DICT_BYTES : ℕ := 8 * 1024 * 1024

def MAX_DEPTH : ℕ := 8

def is_schema_exempt (status_code : UInt8) : Bool :=
  status_code == STATUS_STREAM_CONTINUATION || status_code == STATUS_STREAM_END

/-! ## The payload dictionary -/

inductive JsonValue
  | null
  | bool (b : Bool)
  | number (x : ℚ)
  | string (s : Text)
  | array (items : List JsonValue)
  | object (entries : List (String × JsonValue))
  | malformed_depth_exceeded

mutual

/-- `serde_value_to_json_value_bounded`: a node that lies too deep becomes a marker. -/
def serde_value_to_json_value_bounded (depth : ℕ) : Json → JsonValue
  | .null => if MAX_DEPTH < depth then .malformed_depth_exceeded else .null
  | .bool b => if MAX_DEPTH < depth then .malformed_depth_exceeded else .bool b
  | .pos_int n => if MAX_DEPTH < depth then .malformed_depth_exceeded else .number n.toNat
  | .neg_int n => if MAX_DEPTH < depth then .malformed_depth_exceeded else .number n.toInt
  | .float x => if MAX_DEPTH < depth then .malformed_depth_exceeded else .number x.toRat
  | .str s => if MAX_DEPTH < depth then .malformed_depth_exceeded else .string s
  | .arr items =>
    if MAX_DEPTH < depth then .malformed_depth_exceeded
    else .array (bounded_items (depth + 1) items)
  | .obj fields =>
    if MAX_DEPTH < depth then .malformed_depth_exceeded
    else .object (bounded_fields (depth + 1) fields)

def bounded_items (depth : ℕ) : List Json → List JsonValue
  | [] => []
  | v :: items => serde_value_to_json_value_bounded depth v :: bounded_items depth items

def bounded_fields (depth : ℕ) : List (String × Json) → List (String × JsonValue)
  | [] => []
  | (k, v) :: fields =>
    (k, serde_value_to_json_value_bounded depth v) :: bounded_fields depth fields

end

mutual

def depth_exceeded_from (depth : ℕ) : JsonValue → Bool
  | .malformed_depth_exceeded => true
  | .array items => MAX_DEPTH < depth || any_item_exceeds (depth + 1) items
  | .object entries => MAX_DEPTH < depth || any_entry_exceeds (depth + 1) entries
  | _ => MAX_DEPTH < depth

def any_item_exceeds (depth : ℕ) : List JsonValue → Bool
  | [] => false
  | v :: items => depth_exceeded_from depth v || any_item_exceeds depth items

def any_entry_exceeds (depth : ℕ) : List (String × JsonValue) → Bool
  | [] => false
  | (_, v) :: entries => depth_exceeded_from depth v || any_entry_exceeds depth entries

end

def json_value_depth_exceeded (v : JsonValue) : Bool := depth_exceeded_from 0 v

def check_retained (X : Crates) : ℕ → List (String × Json) → Result Unit
  | _, [] => .ok ()
  | retained, (k, v) :: fields =>
    if MAX_PAYLOAD_DICT_BYTES < retained + k.utf8ByteSize + (X.json_to_string v).length then
      .error ⟨.PayloadTooLarge, "Payload dict exceeds retained-byte budget (" ++
        toString (retained + k.utf8ByteSize + (X.json_to_string v).length) ++ " > " ++
        toString MAX_PAYLOAD_DICT_BYTES ++ ")"⟩
    else check_retained X (retained + k.utf8ByteSize + (X.json_to_string v).length) fields

def insert_fields : Table String JsonValue → List (String × Json) →
    Result (Table String JsonValue)
  | dict, [] => .ok dict
  | dict, (k, v) :: fields =>
    if json_value_depth_exceeded (serde_value_to_json_value_bounded 1 v) then
      .error ⟨.PayloadTooLarge, "Payload JSON exceeds max nesting depth (" ++ toString MAX_DEPTH ++
        "). Rejecting before any downstream gate inspects the dict."⟩
    else insert_fields (dict.insert k (serde_value_to_json_value_bounded 1 v)) fields

inductive PayloadJsonParseOutcome
  | InvalidUtf8
  | InvalidJson

/-- What is remembered of the payload for Gate 9.0; `none` when it was not parsed. -/
abbrev ParsedPayloadJson := Option (Except PayloadJsonParseOutcome Json)

variable (X : Crates)

def decode_text_payload (payload : List UInt8) :
    Result (Table String JsonValue × ParsedPayloadJson) :=
  if X.is_utf8 payload = false then .ok (.empty, some (.error .InvalidUtf8))
  else
    match X.json_from_slice payload with
    | none => .ok (.empty, some (.error .InvalidJson))
    | some (.obj fields) =>
      if MAX_PAYLOAD_KEYS < fields.length then
        .error ⟨.PayloadTooLarge, "Payload object has " ++ toString fields.length ++
          " keys, max " ++ toString MAX_PAYLOAD_KEYS⟩
      else do
        check_retained X 0 fields
        let dict ← insert_fields .empty fields
        return (dict, some (.ok (.obj fields)))
    | some v => .ok (.empty, some (.ok v))

/-! ## Packets and calls -/

inductive GateTier
  | Lightweight
  | Standard
  | Full
  deriving DecidableEq

def resolve_gate_tier (action_class flags : UInt8) (is_pinned : Bool) : GateTier :=
  if flags &&& 0x80 ≠ 0 then .Full
  else if 2 ≤ action_class then .Full
  else if action_class = 1 then .Standard
  else if is_pinned then .Lightweight
  else .Standard

structure ParsedFrame where
  schema_id : UInt16
  status_code : UInt8
  flags : UInt8
  action_class : UInt8
  session_uuid : Text
  sequence_id : UInt64
  context_state_id : Text
  context_version : UInt64
  traceparent : List UInt8
  payload : List UInt8

structure ParsedPacket extends ParsedFrame where
  payload_dict : Table String JsonValue
  gate_tier : GateTier
  is_cover_traffic : Bool
  source_agent : Text
  is_binary_stream : Bool
  max_action_class : UInt8
  token_sig_hash : Text

/-- `gate_0_from_parsed`, which the encrypted variant of Gate 0 repeats. -/
def gate_0_from_parsed (f : ParsedFrame) : Result ParsedPacket :=
  if f.schema_id = 0 then
    .error ⟨.SchemaMismatch, "Schema 0 (raw binary) not permitted through the gateway pipeline."⟩
  else
    .ok { toParsedFrame := f
          payload_dict := .empty
          gate_tier := resolve_gate_tier f.action_class f.flags false
          is_cover_traffic := f.flags &&& FLAG_COVER_TRAFFIC ≠ 0
          source_agent := []
          is_binary_stream := f.flags &&& FLAG_BINARY_STREAM ≠ 0
          max_action_class := 0
          token_sig_hash := [] }

inductive AuditHealth
  | Healthy
  | Degraded
  | Saturated
  | Fatal
  deriving DecidableEq

def AuditHealth.at_least_saturated : AuditHealth → Bool
  | .Healthy | .Degraded => false
  | .Saturated | .Fatal => true

def AuditHealth.debug : AuditHealth → String
  | .Healthy => "Healthy"
  | .Degraded => "Degraded"
  | .Saturated => "Saturated"
  | .Fatal => "Fatal"

/-- The gates whose decision belongs to another subsystem. -/
inductive Gate
  | context_state
  | aca_attestation
  | gate_1_5_intent
  | gate_0_5_financial
  | gate_3_0_lateral
  | gate_4_0_inject
  | sid_semantic
  | gate_5_0_epistemic
  | gate_5_0b_scope
  | gate_6_0_audit
  | gate_11_0_aegf
  | gate_12_0_cscs
  | stream_scan

/-- What the rest of the context answers during one call. -/
structure Subsystems where
  is_locked : Bool
  requires_reauth : Bool
  scope_cap : Option UInt8
  /-- The client an identity-bound handshake proved for this session. -/
  bound_client : Option Text
  audit_health : AuditHealth
  keys : KeySources
  gate : Gate → ParsedPacket → Result Unit
  validate_payload : UInt16 → Json → Result Unit

/-- What the frame parser returned, the arguments, the two clocks and the other subsystems. -/
structure PacketCall where
  frame : Result ParsedFrame
  current_agent_name : Text
  secret_key : List UInt8
  is_pinned : Bool
  wall : ℚ
  mono : ℚ
  subsystems : Subsystems

structure Pipeline where
  gateway : ZeroTrustGateway
  streams : StreamRegistry

/-! ## Gate 1.0 and Gate 2.5 -/

def trust_capped (scope_cap : Option UInt8) (max_action_class : UInt8) : UInt8 :=
  match scope_cap with
  | some cap => min max_action_class cap
  | none => max_action_class

def gate_2_5_kinetic_firewall (action_class max_action_class : UInt8) (health : AuditHealth) :
    Result Unit :=
  if max_action_class < action_class then
    .error ⟨.ActionClassEscalation, "Action Class Escalation: Requested " ++
      toString action_class.toNat ++ ", but token max is " ++ toString max_action_class.toNat⟩
  else if 2 ≤ action_class ∧ health.at_least_saturated then
    .error ⟨.AuditSubsystemDegraded,
      "IRREVERSIBLE_ACTION rejected: Gate 6.0 audit subsystem health is " ++ health.debug ++
      ", which cannot guarantee a durable audit trail for this action."⟩
  else .ok ()

def decode_payload (parsed : ParsedPacket) :
    Result (Table String JsonValue × ParsedPayloadJson) :=
  if parsed.payload.isEmpty ∨ parsed.is_binary_stream then .ok (parsed.payload_dict, none)
  else decode_text_payload X parsed.payload

def before_gate_1_0 (call : PacketCall) (parsed : ParsedPacket) :
    Result (ParsedPacket × ParsedPayloadJson × Text) := do
  let tier := resolve_gate_tier parsed.action_class parsed.flags call.is_pinned
  let (dict, json) ← decode_payload X parsed
  call.subsystems.gate .context_state { parsed with gate_tier := tier, payload_dict := dict }
  match dict.get "_capability_token" with
  | some (.string token) =>
    return ({ parsed with gate_tier := tier, payload_dict := dict }, json, token)
  | _ => throw ⟨.LateralMovementBlocked, "Missing '_capability_token' in payload structure. " ++
      "All requests must carry a valid capability token regardless of connection type, tier, " ++
      "or deployment environment."⟩

def gate_1_0 (H : Hashes) (X : Crates) (gw : ZeroTrustGateway) (call : PacketCall)
    (parsed : ParsedPacket) : ZeroTrustGateway ×
      Result (ParsedPacket × ParsedPayloadJson × Text × TokenValidationResult) :=
  match before_gate_1_0 X call parsed with
  | .error e => (gw, .error e)
  | .ok (packet, json, token) =>
    match gw.validate_lateral_movement H X call.subsystems.keys call.current_agent_name token
        call.secret_key call.wall with
    | (gw', .error e) => (gw', .error e)
    | (gw', .ok result) => (gw', .ok (packet, json, token, result))

/-- The identity cross-check: a handshake that proved another client than the token names. -/
def check_identity_binding (bound_client : Option Text) (source_agent : Text) :
    Result Unit :=
  match bound_client with
  | none => .ok ()
  | some client =>
    if client ≠ source_agent then
      .error ⟨.SessionSpliceDetected, "C-3: Capability token claims identity '" ++
        display source_agent ++ "' but the identity-bound handshake for this session proved '" ++
        display client ++ "'. Token replay or identity substitution detected."⟩
    else .ok ()

/-! ## The gates behind Gate 1.0 -/

def ParsedPacket.authorized (p : ParsedPacket) (ceiling : UInt8) (r : TokenValidationResult) :
    ParsedPacket :=
  { p with
    max_action_class := ceiling
    source_agent := r.source_agent
    token_sig_hash := r.token_sig_hash }

/-- The constraint Gate 1.5 adds for the downstream agent, when a root intent is bound. -/
def ParsedPacket.constrained (p : ParsedPacket) (r : TokenValidationResult) : ParsedPacket :=
  match r.root_intent_hash with
  | none => p
  | some rint =>
    { p with
      payload_dict := p.payload_dict.insert "_cognitive_constraint" <| .string <|
        ascii "You have been asked by " ++ r.source_agent ++
        ascii (" to do this task. You must strictly execute this ONLY if it directly serves " ++
          "the Root Intent: [") ++ rint ++ ascii "]" }

def ParsedPacket.annotated (p : ParsedPacket) (ceiling : UInt8) (r : TokenValidationResult) :
    ParsedPacket :=
  { p with
    payload_dict := (p.payload_dict.insert "_source_agent" (.string r.source_agent)).insert
      "_cached_token_result" <| .string <|
        ascii (if r.is_valid then "true" else "false") ++ 44 :: (r.source_agent ++
          44 :: (r.root_intent_hash.getD [] ++ 44 :: Json.decimal ceiling.toNat)) }

/-- Gate 9.0. An empty payload was not parsed before, and its text is no JSON. -/
def gate_9_0_schema (call : PacketCall) (p : ParsedPacket) (json : ParsedPayloadJson) :
    Result Unit :=
  match json with
  | some (.ok v) => call.subsystems.validate_payload p.schema_id v
  | some (.error .InvalidUtf8) =>
    .error ⟨.SchemaMismatch, "Gate 9.0: payload is not valid UTF-8"⟩
  | some (.error .InvalidJson) =>
    .error ⟨.SchemaMismatch, "Gate 9.0: payload is not valid JSON"⟩
  | none =>
    if X.is_utf8 p.payload = false then
      .error ⟨.SchemaMismatch, "Gate 9.0: payload is not valid UTF-8"⟩
    else
      match X.json_from_slice p.payload with
      | none => .error ⟨.SchemaMismatch, "Gate 9.0: payload is not valid JSON"⟩
      | some v => call.subsystems.validate_payload p.schema_id v

/-- The gates from 0.5 to 12.0. None of them changes the packet. -/
def remaining_gates (call : PacketCall) (p : ParsedPacket) (json : ParsedPayloadJson) :
    Result Unit := do
  call.subsystems.gate .gate_0_5_financial p
  call.subsystems.gate .gate_3_0_lateral p
  if p.is_binary_stream = false then
    call.subsystems.gate .gate_4_0_inject p
    call.subsystems.gate .sid_semantic p
  call.subsystems.gate .gate_5_0_epistemic p
  if p.schema_id = 3 then
    call.subsystems.gate .gate_5_0b_scope p
  call.subsystems.gate .gate_6_0_audit p
  if p.is_binary_stream = false ∧ is_schema_exempt p.status_code = false then
    gate_9_0_schema X call p json
  if is_schema_exempt p.status_code = false then
    call.subsystems.gate .gate_11_0_aegf p
    call.subsystems.gate .gate_12_0_cscs p

def after_gate_1_0 (call : PacketCall) (parsed : ParsedPacket)
    (json : ParsedPayloadJson) (r : TokenValidationResult) : Result ParsedPacket := do
  let ceiling := trust_capped call.subsystems.scope_cap r.max_action_class
  check_identity_binding call.subsystems.bound_client r.source_agent
  gate_2_5_kinetic_firewall parsed.action_class ceiling call.subsystems.audit_health
  call.subsystems.gate .aca_attestation (parsed.authorized ceiling r)
  if r.root_intent_hash.isSome then
    call.subsystems.gate .gate_1_5_intent (parsed.authorized ceiling r)
  remaining_gates X call (((parsed.authorized ceiling r).constrained r).annotated ceiling r) json
  return ((parsed.authorized ceiling r).constrained r).annotated ceiling r

/-! ## Stream frames -/

def ParsedPacket.with_stream_data (p : ParsedPacket) : ParsedPacket :=
  { p with
    payload_dict := p.payload_dict.insert "_stream_data" (.string (X.from_utf8_lossy p.payload))
    gate_tier := .Lightweight }

/-- Gate 1.0 and Gate 2.5 on a stream frame, from what the stream kept of its token. -/
def stream_token_gates (aborted : String) (gw : ZeroTrustGateway) (call : PacketCall)
    (info : StreamInfo) (p : ParsedPacket) : Result Unit :=
  -- the expiry is a wall-clock second, and is compared with the monotonic clock
  if 0 < info.token_exp ∧ info.token_exp < call.mono then
    .error ⟨.TokenExpired, aborted ++ ": originating capability token has EXPIRED."⟩
  else if info.token_sig_hash.isEmpty = false ∧ gw.is_token_revoked info.token_sig_hash then
    .error ⟨.LateralMovementBlocked, aborted ++ ": originating token has been REVOKED."⟩
  else gate_2_5_kinetic_firewall p.action_class info.max_action_class call.subsystems.audit_health

def check_stream_sequence (info : StreamInfo) (p : ParsedPacket) : Result Unit :=
  match info.last_sequence_id with
  | none => .ok ()
  | some last =>
    if p.sequence_id ≤ last then
      .error ⟨if p.sequence_id = last then .PsnReplayDetected else .MalformedHeader,
        "Stream frame sequence regression: got " ++ toString p.sequence_id.toNat ++
        ", expected > " ++ toString last.toNat ++ ". Possible replay or reorder attack."⟩
    else .ok ()

def scan_stream_text (call : PacketCall) (p : ParsedPacket) : Result Unit :=
  if p.is_binary_stream = false ∧ X.trim_is_empty (X.from_utf8_lossy p.payload) = false then
    call.subsystems.gate .stream_scan p
  else .ok ()

/-- `stream_continuation_core`. A frame its token does not cover ends the stream. -/
def stream_continuation_core (s : Pipeline) (call : PacketCall) (p : ParsedPacket) :
    Pipeline × Result ParsedPacket :=
  match s.streams.get_stream_info p.session_uuid with
  | none => (s, .error ⟨.MalformedHeader, "No active stream found for continuation frame."⟩)
  | some info =>
    match stream_token_gates "Stream aborted" s.gateway call info p with
    | .error e => ({ s with streams := s.streams.abort_stream p.session_uuid }, .error e)
    | .ok () =>
      match check_stream_sequence info p with
      | .error e => (s, .error e)
      | .ok () =>
        match scan_stream_text X call p with
        | .error e => (s, .error e)
        | .ok () =>
          -- the frame is accepted whatever the registry answers
          ({ s with
             streams := s.streams.continue_stream p.session_uuid p.sequence_id p.payload.length
               call.wall }, .ok (p.with_stream_data X))

/-- `stream_end_core`. Without a stream there is nothing to check, and the frame is accepted. -/
def stream_end_core (s : Pipeline) (call : PacketCall) (p : ParsedPacket) :
    Pipeline × Result ParsedPacket :=
  match s.streams.get_stream_info p.session_uuid with
  | none => (s, .ok (p.with_stream_data X))
  | some info =>
    match stream_token_gates "Stream aborted at END" s.gateway call info p with
    | .error e => ({ s with streams := s.streams.abort_stream p.session_uuid }, .error e)
    | .ok () =>
      match scan_stream_text X call p with
      | .error e => (s, .error e)
      | .ok () =>
        ({ s with streams := (s.streams.end_stream p.session_uuid).1 }, .ok (p.with_stream_data X))

/-! ## The pipeline -/

def run_gates_1_through_12 (H : Hashes) (X : Crates) (s : Pipeline) (call : PacketCall)
    (parsed : ParsedPacket) : Pipeline × Result ParsedPacket :=
  if parsed.status_code = SAACPBytecodes.StreamContinuation.code then
    stream_continuation_core X s call parsed
  else if parsed.status_code = SAACPBytecodes.StreamEnd.code then
    stream_end_core X s call parsed
  else if parsed.schema_id = 0 then
    (s, .error
      ⟨.SchemaMismatch, "Schema 0 (raw binary) not permitted through the gateway pipeline."⟩)
  else if parsed.is_cover_traffic then (s, .ok parsed) -- no token is asked for
  else
    match gate_1_0 H X s.gateway call parsed with
    | (gw, .error e) => ({ s with gateway := gw }, .error e)
    | (gw, .ok (packet, json, _, result)) =>
      ({ s with gateway := gw }, after_gate_1_0 X call packet json result)

def intercept_packet_inner (H : Hashes) (X : Crates) (s : Pipeline) (call : PacketCall) :
    Pipeline × Result ParsedPacket :=
  match call.frame.bind gate_0_from_parsed with
  | .error e => (s, .error e)
  | .ok parsed => run_gates_1_through_12 H X s call parsed

/-- The same part of the encrypted entry point, which routes stream frames itself. -/
def intercept_encrypted_inner (H : Hashes) (X : Crates) (s : Pipeline) (call : PacketCall) :
    Pipeline × Result ParsedPacket :=
  match call.frame.bind gate_0_from_parsed with
  | .error e => (s, .error e)
  | .ok parsed =>
    if parsed.status_code = SAACPBytecodes.StreamContinuation.code then
      stream_continuation_core X s call parsed
    else if parsed.status_code = SAACPBytecodes.StreamEnd.code then
      stream_end_core X s call parsed
    else run_gates_1_through_12 H X s call parsed

def extract_token_exp (token_b64 : List UInt8) : ℚ :=
  match X.base64_decode token_b64 with
  | none => 0
  | some raw =>
    if raw.length < 4 then 0
    else if raw.length < 4 + ofBE (raw.take 4) then 0
    else
      match X.json_from_slice (slice raw 4 (4 + ofBE (raw.take 4))) with
      | none => 0
      | some data => ((data.get "exp").bind Json.as_rat).getD 0

def register_stream_start_token (streams : StreamRegistry)
    (stream_id token token_sig_hash source_agent : Text) (max_action_class : UInt8) :
    StreamRegistry :=
  streams.set_stream_token_info stream_id token_sig_hash (extract_token_exp X token) source_agent
    max_action_class

/-- Whether the registry took the stream is not looked at. -/
def register_stream_start (s : Pipeline) (call : PacketCall) (p : ParsedPacket) : Pipeline :=
  let started := (s.streams.start_stream p.session_uuid p.source_agent call.current_agent_name
    call.wall).1
  match p.payload_dict.get "_capability_token" with
  | some (.string token) =>
    { s with
      streams := register_stream_start_token X started p.session_uuid token p.token_sig_hash
        p.source_agent p.max_action_class }
  | _ => { s with streams := started }

/-- The wrapper both entry points put around their gates. -/
def intercept (inner : Pipeline → PacketCall → Pipeline × Result ParsedPacket)
    (s : Pipeline) (call : PacketCall) : Pipeline × Result ParsedPacket :=
  if call.subsystems.is_locked then
    (s, .error ⟨.CircuitBreakerOpen,
      "Agent '" ++ display call.current_agent_name ++ "' is circuit-breaker locked out."⟩)
  else if call.subsystems.requires_reauth then
    (s, .error ⟨.TrustReauthRequired, "Agent '" ++ display call.current_agent_name ++
      "' failed the behavioral trust floor and must soft-reset (re-handshake) before further " ++
      "packets are accepted."⟩)
  else
    match inner s call with
    | (s', .error e) => (s', .error e)
    | (s', .ok p) =>
      -- by status code alone, whichever path has accepted the packet
      if p.status_code = SAACPBytecodes.StreamStart.code then
        (register_stream_start X s' call p, .ok p)
      else (s', .ok p)

def intercept_packet_full_with_ctx (H : Hashes) (X : Crates) (s : Pipeline) (call : PacketCall) :
    Pipeline × Result ParsedPacket :=
  intercept X (intercept_packet_inner H X) s call

def intercept_packet_encrypted_with_ctx (H : Hashes) (X : Crates) (s : Pipeline)
    (call : PacketCall) : Pipeline × Result ParsedPacket :=
  intercept X (intercept_encrypted_inner H X) s call

end Saacp
