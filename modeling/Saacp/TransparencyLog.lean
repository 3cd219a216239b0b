/-
**The transparency log** of capabilities: hash-chained entries over a backend that keeps them.

The log remembers the last chain hash, the floor from which a verification starts, how many entries
were evicted, and the last verdict together with the generation it belongs to. `append` is written
as the sections it consists of, so that they can be interleaved. What the verification computes is
`verify_from`, which splits along the list.
-/
import Saacp.Credentials
import Saacp.Gateway
import Saacp.HashChain

set_option autoImplicit false

open ByteCodec

namespace Saacp

def TRANSPARENCY_LOG_MAX_ENTRIES : ℕ := 100000
def GENESIS_CHAIN_HASH : Text := List.replicate 64 48

/-! ## Entries -/

structure TransparencyLogEntry where
  entry_id : Text
  event_type : Text
  jti : Option Text
  kid : Option Text
  issuer_id : Text
  sub_hash : Text
  aud_hash : Text
  actions_hash : Text
  timestamp : F64
  delegation_depth : UInt64
  parent_jti_hash : Option Text
  entry_hash : Text
  chain_hash : Text
  entry_signature : List UInt8
  deriving DecidableEq

structure LogCrates extends ClusterCrates where
  f64_display : F64 → Text

namespace TransparencyLogEntry

def rendered (C : LogCrates) (e : TransparencyLogEntry) : List Text :=
  [e.entry_id, e.event_type, e.jti.getD [], e.kid.getD [], e.issuer_id, e.sub_hash, e.aud_hash,
    e.actions_hash, C.f64_display e.timestamp, Json.decimal e.delegation_depth.toNat,
    e.parent_jti_hash.getD []]

def compute_entry_hash (H : Hashes) (C : LogCrates) (e : TransparencyLogEntry) : Text :=
  sha256_hex H (List.intercalate [124] (e.rendered C))

end TransparencyLogEntry

open TransparencyLogEntry

/-- What is appended: the arguments of `append`, the random id and the time it takes. -/
structure LogEvent where
  event_type : Text
  issuer_id : Text
  jti : Option Text
  kid : Option Text
  sub : Text
  aud : List Text
  actions : List Text
  delegation_depth : UInt64
  parent_jti : Option Text
  signing_key : Option (List UInt8)
  uuid : List UInt8
  timestamp : F64

def strings_hash (H : Hashes) (C : LogCrates) (texts : List Text) : Text :=
  sha256_hex H (C.json_to_vec (.arr ((texts.insertionSort fun a b => a ≤ b).map .str)))

def LogEvent.entry (H : Hashes) (C : LogCrates) (ev : LogEvent) : TransparencyLogEntry :=
  let entry : TransparencyLogEntry := {
    entry_id := hexText ev.uuid
    event_type := ev.event_type
    jti := ev.jti
    kid := ev.kid
    issuer_id := ev.issuer_id
    sub_hash := sha256_hex H ev.sub
    aud_hash := strings_hash H C ev.aud
    actions_hash := strings_hash H C ev.actions
    timestamp := ev.timestamp
    delegation_depth := ev.delegation_depth
    parent_jti_hash := ev.parent_jti.map (sha256_hex H)
    entry_hash := []
    chain_hash := []
    entry_signature := [] }
  { entry with entry_hash := entry.compute_entry_hash H C }

def LogEvent.linked (H : Hashes) (C : LogCrates) (ev : LogEvent) (prev_hash : Text) :
    TransparencyLogEntry :=
  let entry := ev.entry H C
  let entry := { entry with chain_hash := sha256_hex H (prev_hash ++ entry.entry_hash) }
  match ev.signing_key with
  | none => entry
  | some sk => { entry with entry_signature := C.ed25519_sign sk entry.chain_hash }

/-! ## What a verification computes -/

def verify_from (H : Hashes) (C : LogCrates) : Text → List TransparencyLogEntry → Bool
  | _, [] => true
  | prev_hash, entry :: entries =>
    if entry.compute_entry_hash H C ≠ entry.entry_hash then false
    else if sha256_hex H (prev_hash ++ entry.entry_hash) ≠ entry.chain_hash then false
    else verify_from H C entry.chain_hash entries

section

variable {H : Hashes} {C : LogCrates}

theorem verify_from_cons {prev_hash : Text} {e : TransparencyLogEntry}
    {es : List TransparencyLogEntry} :
    verify_from H C prev_hash (e :: es) = true ↔ e.compute_entry_hash H C = e.entry_hash ∧
        sha256_hex H (prev_hash ++ e.entry_hash) = e.chain_hash ∧
        verify_from H C e.chain_hash es = true := by
  rw [verify_from]
  by_cases hentry : e.compute_entry_hash H C = e.entry_hash
  · rw [if_neg (not_not_intro hentry)]
    by_cases hchain : sha256_hex H (prev_hash ++ e.entry_hash) = e.chain_hash
    · rw [if_neg (not_not_intro hchain)]
      exact ⟨fun h => ⟨hentry, hchain, h⟩, fun h => h.2.2⟩
    · rw [if_pos hchain]
      exact ⟨nofun, fun h => absurd h.2.1 hchain⟩
  · rw [if_pos hentry]
    exact ⟨nofun, fun h => absurd h.1 hentry⟩

theorem verify_from_append {prev_hash : Text} {es es' : List TransparencyLogEntry} :
    verify_from H C prev_hash (es ++ es') = true ↔ verify_from H C prev_hash es = true ∧
        verify_from H C (HashChain.head chain_hash prev_hash es) es' = true := by
  induction es generalizing prev_hash with
  | nil => exact ⟨fun h => ⟨rfl, h⟩, fun h => h.2⟩
  | cons e es ih =>
    rw [List.cons_append, verify_from_cons, verify_from_cons, ih, HashChain.head_cons, and_assoc,
      and_assoc]

theorem linked_fields (ev : LogEvent) (prev_hash : Text) :
    (ev.linked H C prev_hash).rendered C = (ev.entry H C).rendered C ∧
      (ev.linked H C prev_hash).entry_hash = (ev.entry H C).entry_hash ∧
      (ev.linked H C prev_hash).chain_hash =
        sha256_hex H (prev_hash ++ (ev.entry H C).entry_hash) := by
  rw [LogEvent.linked]
  cases ev.signing_key with
  | none | some => exact ⟨rfl, rfl, rfl⟩

theorem entry_hash_entry (ev : LogEvent) :
    (ev.entry H C).entry_hash = (ev.entry H C).compute_entry_hash H C := rfl

theorem compute_entry_hash_linked (ev : LogEvent) (prev_hash : Text) :
    (ev.linked H C prev_hash).compute_entry_hash H C = (ev.linked H C prev_hash).entry_hash := by
  obtain ⟨hfields, hhash, -⟩ := linked_fields (H := H) (C := C) ev prev_hash
  rw [compute_entry_hash, hfields, hhash, entry_hash_entry, compute_entry_hash]

theorem verify_from_concat {seed : Text} {es : List TransparencyLogEntry}
    (h : verify_from H C seed es = true) (ev : LogEvent) :
    verify_from H C seed (es ++ [ev.linked H C (HashChain.head chain_hash seed es)]) = true := by
  obtain ⟨-, hhash, hchain⟩ :=
    linked_fields (H := H) (C := C) ev (HashChain.head chain_hash seed es)
  refine verify_from_append.mpr ⟨h, verify_from_cons.mpr ⟨compute_entry_hash_linked ev _, ?_, rfl⟩⟩
  rw [hhash, hchain]

end

/-! ## Backends -/

/-- An append may read the clock and returns the entry it has evicted. -/
class TransparencyLogBackend (B : Type) where
  append : ℚ → B → TransparencyLogEntry → B × Option TransparencyLogEntry
  get_all : B → List TransparencyLogEntry
  count : B → ℕ

/-- `InMemoryBackend` of `factf`; the state backend of that name is another type. -/
structure Factf.InMemoryBackend where
  entries : List TransparencyLogEntry
  max_entries : ℕ

namespace Factf.InMemoryBackend

def with_capacity (max_entries : ℕ) : InMemoryBackend := ⟨[], max_entries⟩

def new : InMemoryBackend := with_capacity TRANSPARENCY_LOG_MAX_ENTRIES

def append (b : InMemoryBackend) (entry : TransparencyLogEntry) :
    InMemoryBackend × Option TransparencyLogEntry :=
  if b.max_entries ≤ b.entries.length then
    ({ b with entries := b.entries.tail ++ [entry] }, b.entries.head?)
  else ({ b with entries := b.entries ++ [entry] }, none)

instance backend : TransparencyLogBackend InMemoryBackend where
  append _ b entry := b.append entry
  get_all b := b.entries
  count b := b.entries.length

@[simp] theorem max_entries_append (b : InMemoryBackend) (entry : TransparencyLogEntry) :
    (b.append entry).1.max_entries = b.max_entries := by
  rw [append]
  split_ifs <;> rfl

theorem evicted_append_entries (b : InMemoryBackend) (entry : TransparencyLogEntry) :
    (b.append entry).2.toList ++ (b.append entry).1.entries = b.entries ++ [entry] := by
  rw [append]
  split_ifs
  · cases b.entries <;> rfl
  · rfl

theorem append_of_lt {b : InMemoryBackend} (h : b.entries.length < b.max_entries)
    (entry : TransparencyLogEntry) :
    b.append entry = ({ b with entries := b.entries ++ [entry] }, none) := by
  rw [append, if_neg (Nat.not_le.mpr h)]

theorem length_entries_append {b : InMemoryBackend}
    (h : b.entries.length ≤ max 1 b.max_entries) (entry : TransparencyLogEntry) :
    (b.append entry).1.entries.length = min (max 1 b.max_entries) (b.entries.length + 1) := by
  rw [append]
  by_cases hfull : b.max_entries ≤ b.entries.length
  · rw [if_pos hfull, List.length_append, List.length_tail, List.length_singleton]
    omega
  · rw [if_neg hfull, List.length_append, List.length_singleton]
    omega

end Factf.InMemoryBackend

/-! ## The log -/

structure CapabilityTransparencyLog (B : Type) where
  backend : B
  last_hash : Text
  chain_floor_hash : Text
  pruned_count : UInt64
  generation : UInt64
  cached_verification : Option (UInt64 × Bool)

namespace CapabilityTransparencyLog

def with_capacity (max_entries : ℕ) : CapabilityTransparencyLog Factf.InMemoryBackend where
  backend := .with_capacity max_entries
  last_hash := GENESIS_CHAIN_HASH
  chain_floor_hash := GENESIS_CHAIN_HASH
  pruned_count := 0
  generation := 0
  cached_verification := none

variable {B : Type} [TransparencyLogBackend B]

def with_backend (backend : B) : CapabilityTransparencyLog B where
  backend := backend
  last_hash := HashChain.head chain_hash GENESIS_CHAIN_HASH (TransparencyLogBackend.get_all backend)
  chain_floor_hash := GENESIS_CHAIN_HASH
  pruned_count := 0
  generation := 0
  cached_verification := none

/-- Under the lock of `last_hash`: the entry gets its place in the chain. -/
def link (H : Hashes) (C : LogCrates) (log : CapabilityTransparencyLog B) (ev : LogEvent) :
    CapabilityTransparencyLog B × TransparencyLogEntry :=
  let entry := ev.linked H C log.last_hash
  ({ log with last_hash := entry.chain_hash }, entry)

def store (now : ℚ) (log : CapabilityTransparencyLog B) (entry : TransparencyLogEntry) :
    CapabilityTransparencyLog B × Option TransparencyLogEntry :=
  let (backend, evicted) := TransparencyLogBackend.append now log.backend entry
  ({ log with backend }, evicted)

variable (log : CapabilityTransparencyLog B)

def set_floor (evicted : TransparencyLogEntry) : CapabilityTransparencyLog B :=
  { log with chain_floor_hash := evicted.chain_hash }

def count_pruned : CapabilityTransparencyLog B :=
  { log with pruned_count := log.pruned_count + 1 }

def bump : CapabilityTransparencyLog B :=
  { log with generation := log.generation + 1 }

def append (H : Hashes) (C : LogCrates) (now : ℚ) (log : CapabilityTransparencyLog B)
    (ev : LogEvent) : CapabilityTransparencyLog B × Text :=
  let (log, entry) := log.link H C ev
  let (log, evicted) := log.store now entry
  match evicted with
  | none => (log.bump, entry.chain_hash)
  | some old => (((log.set_floor old).count_pruned).bump, entry.chain_hash)

def count : ℕ := TransparencyLogBackend.count log.backend

def verify_chain_integrity (H : Hashes) (C : LogCrates) (log : CapabilityTransparencyLog B) :
    CapabilityTransparencyLog B × Bool :=
  let generation_at_start := log.generation
  let cached := log.cached_verification.filter fun c => c.1 = generation_at_start
  match cached with
  | some c => (log, c.2)
  | none =>
    let result := verify_from H C log.chain_floor_hash (TransparencyLogBackend.get_all log.backend)
    ({ log with cached_verification := some (generation_at_start, result) }, result)

end CapabilityTransparencyLog

end Saacp
