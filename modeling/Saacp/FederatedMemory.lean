/-
The **federated memory**, process-local: texts behind a hash, each with a version and the time it
expires at, in sixteen shards with a lock each.

Every call reaches the table by `put_record`, `get_record` and `remove_record`, one lock scope each.
`evict_expired` sweeps the shards one after the other, by a time it has read before the first one; a
fetch reads the clock after its lookup, and removes an expired record in a third step.
-/
import Saacp.Errors
import Saacp.Execution
import Saacp.Hashes
import Saacp.Json
import Saacp.Table

set_option autoImplicit false

open Atomic ByteCodec

namespace Saacp

def FEDERATED_TTL_SECONDS : ℚ := 300
def FEDERATED_MAX_ENTRIES : ℕ := 10000
def INTENT_MAX_LIFETIME : ℚ := 86400
def FEDERATED_MAX_VALUE_BYTES : ℕ := 65536
def FEDERATED_MEMORY_PER_SHARD_MAX_ENTRIES : ℕ := FEDERATED_MAX_ENTRIES / 16

/-- A stored text and when it goes. -/
structure FederatedRecord where
  data : Text
  version : UInt32
  expires_at : ℚ
  deriving DecidableEq

/-- The shard an id belongs to: its first two bytes choose. -/
def shard_index (id : List UInt8) : Fin 16 := Fin.ofNat 16 (ofBE (id.take 2))

/-- The shards, and the latest reading of the monotonic clock. -/
structure FederatedMemory where
  shards : Fin 16 → Table (List UInt8) FederatedRecord
  clock : ℚ

/-! ## Sections -/

/-- One lock of one shard each, and the reading of the clock. -/
inductive FederatedSection : Type → Type
  | now_secs : FederatedSection ℚ
  | put_record (id : List UInt8) (data : Text) (version : UInt32) (ttl_secs : ℚ) :
      FederatedSection Unit
  | get_record (id : List UInt8) : FederatedSection (Option FederatedRecord)
  | remove_record (id : List UInt8) : FederatedSection Bool
  | sweep (shard : Fin 16) (now : ℚ) : FederatedSection ℕ

namespace FederatedMemory

def new (now : ℚ) : FederatedMemory := ⟨fun _ => .empty, now⟩

/-- The record under `id`, expired or not. -/
def record (m : FederatedMemory) (id : List UInt8) : Option FederatedRecord :=
  (m.shards (shard_index id)).get id

def set_shard (m : FederatedMemory) (i : Fin 16) (store : Table (List UInt8) FederatedRecord) :
    FederatedMemory :=
  { m with shards := Function.update m.shards i store }

/-- The clock does not go back. -/
def advance (later : ℚ) (m : FederatedMemory) : FederatedMemory :=
  { m with clock := max m.clock later }

/-- What a lock scope does. `put_record` reads the clock a second time, for the eviction. -/
def exec {γ : Type} : FederatedSection γ → ℚ → FederatedMemory → FederatedMemory × γ
  | .now_secs, _, m => (m, m.clock)
  | .put_record id data version ttl_secs, later, m =>
    let i := shard_index id
    let store := (m.shards i).insert id ⟨data, version, m.clock + ttl_secs⟩
    let now := max m.clock later
    ((m.advance later).set_shard i (if FEDERATED_MEMORY_PER_SHARD_MAX_ENTRIES < store.len then
        store.retain fun _ r => now < r.expires_at
      else store), ())
  | .get_record id, _, m => (m, m.record id)
  | .remove_record id, _, m =>
    let i := shard_index id
    (m.set_shard i ((m.shards i).remove id), (m.record id).isSome)
  | .sweep i now, _, m =>
    let store := (m.shards i).retain fun _ r => now < r.expires_at
    (m.set_shard i store, (m.shards i).len - store.len)

def sections : Semantics FederatedSection ℚ FederatedMemory where
  exec _ _ a later m := exec a later m

end FederatedMemory

/-! ## Texts -/

/-- The parser and the printer that are used. -/
structure FederatedJson where
  to_string : Json → Text
  from_str : Text → Option Json

def str_field (v : Json) (key : String) : Text := ((v.get key).bind Json.as_str).getD []

-- The maps of the source are sorted: the fields stand in the order of their keys.

/-- A text with the agent that wrote it. -/
def tagged (data writer_agent : Text) : Json :=
  .obj [("_saacp_provenance_v1", .bool true), ("data", .str data),
    ("writer_agent", .str writer_agent)]

/-- What the issuer signs. -/
def signed_fields (root_intent root_issuer : Text) (timestamp : Json) : Json :=
  .obj [("root_intent", .str root_intent), ("root_issuer", .str root_issuer),
    ("timestamp", timestamp)]

/-- What is stored: the signature goes with the fields. -/
def final_fields (root_intent root_issuer root_signature : Text) (timestamp : Json) : Json :=
  .obj [("root_intent", .str root_intent), ("root_issuer", .str root_issuer),
    ("root_signature", .str root_signature), ("timestamp", timestamp)]

variable (H : Hashes) (J : FederatedJson)

def root_signature (secret_key : List UInt8) (root_intent root_issuer : Text) (timestamp : Json) :
    Text :=
  hexText (H.hmac_sha256 secret_key (J.to_string (signed_fields root_intent root_issuer timestamp)))

def whole_seconds (now : ℚ) : UInt64 := UInt64.ofNat (min now.floor.toNat (2 ^ 64 - 1))

def final_json (root_intent root_issuer : Text) (secret_key : List UInt8) (now : ℚ) : Text :=
  let timestamp := Json.pos_int (whole_seconds now)
  J.to_string (final_fields root_intent root_issuer
    (root_signature H J secret_key root_intent root_issuer timestamp) timestamp)

/-- The end of `fetch_intent_envelope`, on the text that was stored. -/
def verify_envelope (secret_key : List UInt8) (raw_data : Text) : Result Text :=
  match J.from_str raw_data with
  | none => .error ⟨.InvalidSignature, "Envelope parse error."⟩
  | some (.obj fields) =>
    let envelope := Json.obj fields
    let root_intent := str_field envelope "root_intent"
    let expected_sig := root_signature H J secret_key root_intent
      (str_field envelope "root_issuer") (envelope.index "timestamp")
    if expected_sig ≠ str_field envelope "root_signature" then
      .error ⟨.InvalidSignature, "Intent Envelope signature verification failed."⟩
    else .ok root_intent
  | some _ => .error ⟨.InvalidSignature, "Envelope not an object."⟩

/-- A text without a tag is returned as it stands, with no writer. -/
def read_provenance (raw : Text) : Text × Option Text :=
  match J.from_str raw with
  | none => (raw, none)
  | some v =>
    match v.get "_saacp_provenance_v1" with
    | some (.bool true) => (str_field v "data", (v.get "writer_agent").bind Json.as_str)
    | _ => (raw, none)

/-! ## Calls -/

def put_record (id : List UInt8) (data : Text) (version : UInt32) (ttl_secs : ℚ) :
    Prog FederatedSection (Except String Unit) :=
  if FEDERATED_MAX_VALUE_BYTES < data.length then
    .ret (.error ("FederatedMemory record exceeds FEDERATED_MAX_VALUE_BYTES (" ++
      toString data.length ++ " > " ++ toString FEDERATED_MAX_VALUE_BYTES ++ ")"))
  else .step (.put_record id data version ttl_secs) fun _ => .ret (.ok ())

/-- What a fetch finds under an id. -/
inductive Lookup
  | missing
  | expired
  | live (r : FederatedRecord)

/-- Read, compare with the clock, and remove what has expired. -/
def look_up (id : List UInt8) : Prog FederatedSection Lookup :=
  .step (.get_record id) fun
    | none => .ret .missing
    | some r => .step .now_secs fun now =>
      if r.expires_at < now then .step (.remove_record id) fun _ => .ret .expired
      else .ret (.live r)

/-- The end of `fetch_context`, with the check of the version. -/
def context_of (expected_version : UInt32) : Lookup → Except String Text
  | .missing => .error "Context-State-ID not found in Federated Memory."
  | .expired => .error "Context-State-ID has expired (TTL)."
  | .live r =>
    if r.version ≠ expected_version then
      .error ("StaleStateError: Expected version " ++ toString expected_version ++ ", got " ++
        toString r.version)
    else .ok r.data

def intent_of (secret_key : List UInt8) : Lookup → Result Text
  | .missing => .error ⟨.StateExpiredOrStale, "Intent Envelope missing from Federated Memory."⟩
  | .expired => .error ⟨.StateExpiredOrStale, "Intent Envelope has expired (TTL)."⟩
  | .live r => verify_envelope H J secret_key r.data

/-- The public methods with their arguments. -/
inductive FederatedCall
  | store_context (agent_id massive_context_string : Text) (version : UInt32)
  | fetch_context (state_id : List UInt8) (expected_version : UInt32)
  | save_context (state_id : List UInt8) (data : Text) (version : UInt32)
  | save_context_with_provenance (state_id : List UInt8) (data : Text) (version : UInt32)
      (writer_agent : Text)
  | fetch_context_with_provenance (state_id : List UInt8) (expected_version : UInt32)
  | create_intent_envelope (root_intent root_issuer : Text) (secret_key : List UInt8)
  | delete_intent_envelope (intent_hash_hex : Text)
  | evict_expired
  | fetch_intent_envelope (intent_hash_hex : Text) (secret_key : List UInt8)

inductive FederatedAnswer
  | stored (result : Except String (List UInt8))
  | saved (result : Except String Unit)
  | context (result : Except String Text)
  | provenance (result : Except String (Text × Option Text))
  | envelope (result : Except String Text)
  | deleted (found : Bool)
  | evicted (count : ℕ)
  | intent (result : Result Text)
  deriving DecidableEq

def id_length_error : String := "Context-State-ID must be exactly 32 bytes."

/-- The Context-State-ID of `store_context`; the length goes in front, least byte first. -/
def context_id (agent_id text : Text) : List UInt8 :=
  H.sha256 ((toBE 8 agent_id.length).reverse ++ agent_id ++ text)

/-- Each method as its lock scopes, in their order. -/
def FederatedCall.prog : FederatedCall → Prog FederatedSection FederatedAnswer
  | .store_context agent_id text version =>
    let state_id := context_id H agent_id text
    (put_record state_id text version FEDERATED_TTL_SECONDS).map fun r =>
      .stored (r.map fun _ => state_id)
  | .fetch_context state_id expected_version =>
    if state_id.length ≠ 32 then .ret (.context (.error id_length_error))
    else (look_up state_id).map fun l => .context (context_of expected_version l)
  | .save_context state_id data version =>
    if state_id.length ≠ 32 then .ret (.saved (.error id_length_error))
    else (put_record state_id data version FEDERATED_TTL_SECONDS).map .saved
  | .save_context_with_provenance state_id data version writer_agent =>
    if state_id.length ≠ 32 then .ret (.saved (.error id_length_error))
    else (put_record state_id (J.to_string (tagged data writer_agent)) version
      FEDERATED_TTL_SECONDS).map .saved
  | .fetch_context_with_provenance state_id expected_version =>
    if state_id.length ≠ 32 then .ret (.provenance (.error id_length_error))
    else (look_up state_id).map fun l =>
      .provenance ((context_of expected_version l).map (read_provenance J))
  | .create_intent_envelope root_intent root_issuer secret_key =>
    .step .now_secs fun now =>
      let text := final_json H J root_intent root_issuer secret_key now
      (put_record (H.sha256 text) text 1 INTENT_MAX_LIFETIME).map fun r =>
        .envelope (r.map fun _ => hexText (H.sha256 text))
  | .delete_intent_envelope intent_hash_hex =>
    match hexDecode intent_hash_hex with
    | none => .ret (.deleted false)
    | some intent_hash => .step (.remove_record intent_hash) fun found => .ret (.deleted found)
  | .evict_expired =>
    .step .now_secs fun now =>
      (Prog.each (FederatedSection.sweep · now) (List.finRange 16)).map fun counts =>
        .evicted counts.sum
  | .fetch_intent_envelope intent_hash_hex secret_key =>
    match hexDecode intent_hash_hex with
    | none => .ret (.intent (.error ⟨.InvalidSignature, "Invalid intent hash format."⟩))
    | some intent_hash => (look_up intent_hash).map fun l => .intent (intent_of H J secret_key l)

/-- Calls from many threads, and the ticks that schedule them. -/
structure FederatedCalls (H : Hashes) (J : FederatedJson) where
  calls : List FederatedCall
  began : ℚ
  ticks : List (Tick ℚ ℚ)

def FederatedCalls.run {H : Hashes} {J : FederatedJson} (r : FederatedCalls H J) :
    Execution FederatedSection ℚ FederatedMemory ℚ FederatedAnswer where
  sem := FederatedMemory.sections
  act := FederatedMemory.advance
  start := ⟨r.calls.map (·.prog H J), .new r.began⟩
  ticks := r.ticks

/-! ## What a call can do -/

/-- The id that a call fetches. -/
def FederatedCall.looks_up : FederatedCall → Option (List UInt8)
  | .fetch_context id _ | .fetch_context_with_provenance id _ =>
    if id.length ≠ 32 then none else some id
  | .fetch_intent_envelope intent_hash_hex _ => hexDecode intent_hash_hex
  | _ => none

/-- The call may put this text under this id, for so long. -/
def FederatedCall.Writes (id : List UInt8) (data : Text) (ttl_secs : ℚ) : FederatedCall → Prop
  | .store_context agent_id text _ =>
    id = context_id H agent_id text ∧ data = text ∧ ttl_secs = FEDERATED_TTL_SECONDS
  | .save_context state_id text _ =>
    id = state_id ∧ data = text ∧ ttl_secs = FEDERATED_TTL_SECONDS
  | .save_context_with_provenance state_id text _ writer_agent =>
    id = state_id ∧ data = J.to_string (tagged text writer_agent) ∧ ttl_secs = FEDERATED_TTL_SECONDS
  | .create_intent_envelope root_intent root_issuer secret_key =>
    ∃ now, data = final_json H J root_intent root_issuer secret_key now ∧ id = H.sha256 data ∧
      ttl_secs = INTENT_MAX_LIFETIME
  | _ => False

/-- The sections that a call may go through. -/
def FederatedCall.May (c : FederatedCall) {γ : Type} : FederatedSection γ → Prop
  | .now_secs => True
  | .put_record id data _ ttl_secs => c.Writes H J id data ttl_secs
  | .get_record id => c.looks_up = some id
  | .remove_record id =>
    c.looks_up = some id ∨ ∃ h, c = .delete_intent_envelope h ∧ hexDecode h = some id
  | .sweep _ _ => c = .evict_expired

variable {H J}

theorem only_put_record {P : ∀ {γ : Type}, FederatedSection γ → Prop} {id : List UInt8}
    {data : Text} {version : UInt32} {ttl_secs : ℚ} (h : P (.put_record id data version ttl_secs)) :
    (put_record id data version ttl_secs).Only P := by
  unfold put_record
  split
  · trivial
  · exact ⟨h, fun _ => trivial⟩

theorem only_look_up {c : FederatedCall} {id : List UInt8} (h : c.looks_up = some id) :
    (look_up id).Only (c.May H J) := by
  refine ⟨h, fun found => ?_⟩
  cases found with
  | none => trivial
  | some r =>
    refine ⟨trivial, fun now => ?_⟩
    show (ite _ _ _ : Prog FederatedSection Lookup).Only _
    split
    · exact ⟨.inl h, fun _ => trivial⟩
    · trivial

theorem FederatedCall.prog_of_looks_up {c : FederatedCall} {id : List UInt8}
    (h : c.looks_up = some id) : ∃ f, c.prog H J = (look_up id).map f := by
  cases c <;> simp only [looks_up, reduceCtorEq, ite_not, Option.ite_none_right_eq_some,
    Option.some.injEq] at h
  case fetch_context | fetch_context_with_provenance =>
    obtain ⟨hlen, rfl⟩ := h
    exact ⟨_, if_neg (not_not_intro hlen)⟩
  case fetch_intent_envelope => exact ⟨_, by rw [prog, h]⟩

/-- **A call goes through its own sections only.** -/
theorem FederatedCall.prog_only (c : FederatedCall) : (c.prog H J).Only (c.May H J) := by
  -- the fetches are their look-up, or nothing
  have hfetch {α : Type} {id : List UInt8} {f : Lookup → α} (h : c.looks_up = some id) :
      ((look_up id).map f).Only (c.May H J) := (only_look_up h).map f
  cases c with
  | store_context agent_id text version => exact (only_put_record ⟨rfl, rfl, rfl⟩).map _
  | fetch_context id v | fetch_context_with_provenance id v =>
    rw [prog]
    split
    · trivial
    · exact hfetch (if_neg ‹_›)
  | save_context id data version | save_context_with_provenance id data version writer =>
    rw [prog]
    split
    · trivial
    · exact (only_put_record ⟨rfl, rfl, rfl⟩).map _
  | create_intent_envelope intent issuer key =>
    exact ⟨trivial, fun now => (only_put_record ⟨now, rfl, rfl, rfl⟩).map _⟩
  | delete_intent_envelope h =>
    rw [prog]
    split
    · trivial
    · exact ⟨.inr ⟨h, rfl, ‹_›⟩, fun _ => trivial⟩
  | evict_expired => exact ⟨trivial, fun now => (Prog.Only.each (fun _ => rfl) _).map _⟩
  | fetch_intent_envelope h key =>
    rw [prog]
    split
    · trivial
    · exact hfetch ‹_›

end Saacp
