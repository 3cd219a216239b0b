/-
**Audit records** as they are hashed and written: the canonical record, its chain hash, the
line of the log file, and the Merkle anchor that commits to the heads of all shards.

The hashes and `serde_json` come from outside the crate and are parameters. Of the hashes
nothing is ever assumed. Of `serde_json` the laws of `SerdeJson.Lawful` are: a line the log
wrote is read back as the value it was printed from.

`sampleJson` prints compact JSON; runs on fixed inputs are evaluated with it.
-/
import Saacp.Json
import Saacp.Hashes

set_option autoImplicit false

open ByteCodec

namespace Saacp

abbrev AUDIT_SHARDS : ℕ := 16
abbrev ShardIdx := Fin AUDIT_SHARDS

def AUDIT_RECORD_VERSION_V2 : UInt8 := 2
def AUDIT_SHARD_GENESIS_TAG : List UInt8 := ascii "SAACP-audit-shard-genesis-v1"
def MERKLE_LEAF_PREFIX : UInt8 := 0x00
def MERKLE_NODE_PREFIX : UInt8 := 0x01
def ANCHOR_LINE_KEY : String := "anchor"

def GENESIS_HASH : Text := ascii "47454e455349535f424c4f434b"

def ANCHOR_GENESIS_ROOT : Text := List.replicate 64 48

def be16 (n : ℕ) : List UInt8 := toBE 2 n

/-! ## Records -/

/-- `AuditRecord`. The last three fields are absent from a record of the first version. -/
structure AuditRecord where
  timestamp : F64
  source : Text
  target : Text
  intent : Text
  token_signature : Text
  traceparent : Text
  prev_hash : Text
  seq : UInt64
  shard_id : Option UInt16
  shard_seq : Option UInt64
  anchor_epoch : Option UInt64

/-- `CanonicalAuditRecord`: the form the chain hash covers. -/
structure CanonicalAuditRecord where
  anchor_epoch : Option UInt64
  intent : Text
  prev_hash : Text
  seq : UInt64
  shard_id : Option UInt16
  shard_seq : Option UInt64
  source : Text
  target : Text
  timestamp : F64
  token_signature : Text
  traceparent : Text
  v : Option UInt8

/-- `AuditRecord::v2_fields`: shard, position, anchor epoch and version, all or none. -/
def AuditRecord.v2_fields (r : AuditRecord) :
    Option UInt16 × Option UInt64 × Option UInt64 × Option UInt8 :=
  match r.shard_id, r.shard_seq, r.anchor_epoch with
  | some sid, some sseq, some ep => (some sid, some sseq, some ep, some AUDIT_RECORD_VERSION_V2)
  | _, _, _ => (none, none, none, none)

def CanonicalAuditRecord.from_record (r : AuditRecord) : CanonicalAuditRecord where
  anchor_epoch := r.v2_fields.2.2.1
  intent := r.intent
  prev_hash := r.prev_hash
  seq := r.seq
  shard_id := r.v2_fields.1
  shard_seq := r.v2_fields.2.1
  source := r.source
  target := r.target
  timestamp := r.timestamp
  token_signature := r.token_signature
  traceparent := r.traceparent
  v := r.v2_fields.2.2.2

/-- A field that `skip_serializing_if = "Option::is_none"` leaves out when it is absent. -/
def optional_field (key : String) (n : Option UInt64) : List (String × Json) :=
  (n.map fun n => (key, Json.pos_int n)).toList

def CanonicalAuditRecord.to_value (r : CanonicalAuditRecord) : Json :=
  .obj <| optional_field "anchor_epoch" r.anchor_epoch ++
    [("intent", .str r.intent), ("prev_hash", .str r.prev_hash), ("seq", .pos_int r.seq)] ++
    optional_field "shard_id" (r.shard_id.map UInt16.toUInt64) ++
    optional_field "shard_seq" r.shard_seq ++
    [("source", .str r.source), ("target", .str r.target), ("timestamp", .float r.timestamp),
     ("token_signature", .str r.token_signature), ("traceparent", .str r.traceparent)] ++
    optional_field "v" (r.v.map UInt8.toUInt64)

structure MerkleAnchor where
  epoch : UInt64
  heads : List Text
  root : Text
  prev_root : Text
  event_count : UInt64
  timestamp : F64

/-- The value `json!` builds from an anchor; its map keeps the keys sorted. -/
def MerkleAnchor.to_value (a : MerkleAnchor) : Json :=
  .obj [("epoch", .pos_int a.epoch), ("event_count", .pos_int a.event_count),
    ("heads", .arr (a.heads.map .str)), ("prev_root", .str a.prev_root), ("root", .str a.root),
    ("timestamp", .float a.timestamp)]

/-! ## Text -/

/-- `serde_json`, as far as the log uses it. -/
structure SerdeJson where
  Line : Type
  as_bytes : Line → List UInt8
  to_string : Json → Line
  /-- `format!` of the text of a record and a hash into the line of an entry. -/
  format_entry : Line → Text → Line
  from_str : Line → Option Json
  f64_of_u64 : UInt64 → F64
  f64_of_i64 : Int64 → F64

/-- The text whose absence marks a line as a record without parsing it. -/
def ANCHOR_MARK : List UInt8 := 34 :: (ascii "anchor" ++ [34])

namespace SerdeJson

variable (S : SerdeJson)

def entry_line (r : CanonicalAuditRecord) (chain_hash : Text) : S.Line :=
  S.format_entry (S.to_string r.to_value) chain_hash

def anchor_line (a : MerkleAnchor) : S.Line := S.to_string (.obj [(ANCHOR_LINE_KEY, a.to_value)])

/-- What reading back a line relies on. A `Value` keeps its keys sorted. -/
structure Lawful : Prop where
  as_bytes_format_entry : ∀ t h, S.as_bytes (S.format_entry t h) =
    ascii "\x7b\"record\":" ++ S.as_bytes t ++ ascii ",\"chain_hash\":\"" ++ h ++ ascii "\"\x7d"
  from_entry_line : ∀ r digest, S.from_str (S.entry_line r (hexText digest)) =
    some (.obj [("chain_hash", .str (hexText digest)), ("record", r.to_value)])
  from_anchor_line : ∀ a, S.from_str (S.anchor_line a) = some (.obj [("anchor", a.to_value)])
  anchor_line_marked : ∀ a, containsSub ANCHOR_MARK (S.as_bytes (S.anchor_line a)) = true

def as_f64 (j : Json) : Option F64 := j.as_f64 S.f64_of_u64 S.f64_of_i64

/-- Extra fields are ignored; an array of the fields in order is accepted as well. -/
def merkle_anchor_from_value : Json → Option MerkleAnchor
  | .obj fields => do
    let anchor := Json.obj fields
    let epoch ← (← anchor.get "epoch").as_u64
    let heads ← (← anchor.get "heads").as_strings
    let root ← (← anchor.get "root").as_str
    let prev_root ← (← anchor.get "prev_root").as_str
    let event_count ← (← anchor.get "event_count").as_u64
    let timestamp ← S.as_f64 (← anchor.get "timestamp")
    return { epoch, heads, root, prev_root, event_count, timestamp }
  | .arr [epoch, heads, root, prev_root, event_count, timestamp] => do
    return { epoch := ← epoch.as_u64, heads := ← heads.as_strings, root := ← root.as_str,
             prev_root := ← prev_root.as_str, event_count := ← event_count.as_u64,
             timestamp := ← S.as_f64 timestamp }
  | _ => none

theorem merkle_anchor_from_to_value (a : MerkleAnchor) :
    S.merkle_anchor_from_value a.to_value = some a := by
  simp [merkle_anchor_from_value, MerkleAnchor.to_value, Json.get, List.lookup_cons, Json.as_u64,
    Json.as_str, Json.as_strings_map_str, as_f64, Json.as_f64]

end SerdeJson

/-! ## Hashes -/

section

variable (H : Hashes)

def shard_genesis_hash (shard_id : ShardIdx) : Text :=
  hexText (H.sha256 (AUDIT_SHARD_GENESIS_TAG ++ be16 shard_id))

/-- `migration_seed_hash`: what the first record of a shard chains to. -/
def migration_seed_hash (shard_id : ShardIdx) (final_v1_hash : Option Text) : Text :=
  match final_v1_hash with
  | none => shard_genesis_hash H shard_id
  | some v1 => hexText (H.sha256 (AUDIT_SHARD_GENESIS_TAG ++ be16 shard_id ++ v1))

def CanonicalAuditRecord.chain_hash (S : SerdeJson) (issuer_secret : List UInt8)
    (r : CanonicalAuditRecord) : Text :=
  hexText (H.hmac_sha256 issuer_secret (S.as_bytes (S.to_string r.to_value)))

def merkle_leaf (shard_id : ℕ) (head_hash : Text) : List UInt8 :=
  H.sha256 (MERKLE_LEAF_PREFIX :: (be16 shard_id ++ head_hash))

/-- One level of the tree. Levels have an even length, so no node is left over. -/
def merkle_level : List (List UInt8) → List (List UInt8)
  | l :: r :: rest => H.sha256 (MERKLE_NODE_PREFIX :: (l ++ r)) :: merkle_level rest
  | _ => []

def merkle_levels : ℕ → List (List UInt8) → List (List UInt8)
  | fuel + 1, l :: r :: rest => merkle_levels fuel (merkle_level H (l :: r :: rest))
  | _, level => level

def merkle_root (leaves : List (List UInt8)) : Text :=
  hexText ((merkle_levels H leaves.length leaves).headD [])

def heads_root (heads : List Text) : Text := merkle_root H (heads.mapIdx (merkle_leaf H))

end

/-- `constant_time_eq_hex`: both sides decode, to the same bytes. -/
def constant_time_eq_hex (a b : Text) : Bool :=
  match hexDecode a, hexDecode b with
  | some ab, some bb => ab == bb
  | _, _ => false

theorem constant_time_eq_hex_self (digest : List UInt8) :
    constant_time_eq_hex (hexText digest) (hexText digest) = true := by
  simp [constant_time_eq_hex]

/-! ## A concrete instance -/

inductive SampleLine
  | value (j : Json)
  | entry (record : SampleLine) (chain_hash : Text)

def integral_text (x : F64) : List UInt8 :=
  let exponent := x.bits.toNat / 2 ^ 52 % 2 ^ 11 - 1023
  Json.decimal ((2 ^ 52 + x.bits.toNat % 2 ^ 52) / 2 ^ (52 - exponent)) ++ ascii ".0"

def SampleLine.as_bytes : SampleLine → List UInt8
  | value j => j.compact integral_text
  | entry record h =>
    ascii "\x7b\"record\":" ++ record.as_bytes ++ ascii ",\"chain_hash\":\"" ++ h ++ ascii "\"\x7d"

def SampleLine.parse : SampleLine → Option Json
  | value j => some j
  | entry record h => record.parse.map fun j => .obj [("chain_hash", .str h), ("record", j)]

def integral_f64 (n : ℕ) : F64 :=
  let bits := UInt64.ofNat ((1023 + n.log2) % 2047 * 2 ^ 52 + (n * 2 ^ (52 - n.log2)) % 2 ^ 52)
  if h : bits.toNat / 2 ^ 52 % 2 ^ 11 ≠ 2 ^ 11 - 1 then ⟨bits, h⟩ else ⟨0, F64.finite_zero⟩

def sampleJson : SerdeJson where
  Line := SampleLine
  as_bytes := SampleLine.as_bytes
  to_string := .value
  format_entry := .entry
  from_str := SampleLine.parse
  f64_of_u64 n := integral_f64 n.toNat
  f64_of_i64 n := integral_f64 n.toInt.toNat

theorem sampleJson_lawful : sampleJson.Lawful where
  as_bytes_format_entry _ _ := rfl
  from_entry_line _ _ := rfl
  from_anchor_line _ := rfl
  anchor_line_marked _ := by
    have hplain : (ascii "anchor").flatMap Json.escape = ascii "anchor" := by decide +kernel
    show containsSub ANCHOR_MARK (Json.compact integral_text (.obj [("anchor", _)])) = true
    simp [Json.compact, Json.compactFields, Json.commas, Json.quoted, ANCHOR_MARK, containsSub,
      hplain]

end Saacp
