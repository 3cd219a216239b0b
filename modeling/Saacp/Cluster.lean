/-
The **cluster engine** of one node: its view of the members, the failure detector, the signed
messages it sends and accepts, and the leader it believes in.

A method is a function of the engine and of what it reads from outside (the clocks, and whether a
lease was obtained), written as the pieces it performs between two locks, so that the same pieces
can be interleaved later. Durations are nanoseconds, clock readings exact rationals. The order of a
hash map is that of the table. Telemetry is left out.
-/
import Saacp.Json
import Saacp.KeyStores
import Mathlib.Algebra.Order.Ring.Rat
import Mathlib.Order.Lattice

set_option autoImplicit false

open ByteCodec

namespace Saacp

abbrev Duration := ℕ

def as_secs_f64 (d : Duration) : ℚ := d / 1000000000

/-- `x as u64` of a float: truncated, and saturating at both ends. -/
def as_u64 (x : ℚ) : UInt64 := UInt64.ofNat (min x.floor.toNat (2 ^ 64 - 1))

def DEFAULT_SUSPECT_TIMEOUT : Duration := 5 * 1000000000
def DEFAULT_DEAD_TIMEOUT : Duration := 15 * 1000000000
def DEFAULT_MESSAGE_MAX_AGE : Duration := 10 * 1000000000
def CLUSTER_MAX_CLOCK_SKEW : ℚ := 5
def CLUSTER_MAX_MEMBERS : ℕ := 1024
def DEFAULT_LEASE_TTL : Duration := 5 * 1000000000
def LEASE_KEY_PREFIX : Text := ascii "saacp:cluster:leader:"

/-! ## Members -/

inductive NodeState where
  | Alive
  | Suspect
  | Dead
  | Left
  deriving DecidableEq

namespace NodeState

def discriminant : NodeState → ℕ
  | Alive => 0
  | Suspect => 1
  | Dead => 2
  | Left => 3

theorem discriminant_injective : Function.Injective discriminant := by
  intro a b
  cases a <;> cases b <;> simp [discriminant]

/-- The derived order: merge precedence at equal incarnation. -/
instance : LinearOrder NodeState where
  le a b := a.discriminant ≤ b.discriminant
  lt a b := a.discriminant < b.discriminant
  le_refl _ := le_refl _
  le_trans _ _ _ := le_trans
  lt_iff_le_not_ge _ _ := lt_iff_le_not_ge
  le_antisymm _ _ h h' := discriminant_injective (le_antisymm h h')
  le_total _ _ := le_total _ _
  toDecidableLE a b := inferInstanceAs (Decidable (a.discriminant ≤ b.discriminant))
  toDecidableLT a b := inferInstanceAs (Decidable (a.discriminant < b.discriminant))
  toDecidableEq := inferInstance

def as_str : NodeState → Text
  | Alive => ascii "alive"
  | Suspect => ascii "suspect"
  | Dead => ascii "dead"
  | Left => ascii "left"

def counts_for_quorum (s : NodeState) : Bool := s = Alive

theorem le_left (s : NodeState) : s ≤ Left := by
  cases s <;> decide

end NodeState

structure MemberRecord where
  node_id : Text
  addr : Text
  incarnation : UInt64
  state : NodeState
  state_changed_at : ℚ
  last_seen : ℚ

structure MemberUpdate where
  node_id : Text
  addr : Text
  incarnation : UInt64
  state : NodeState
  deriving DecidableEq

abbrev Members := Table Text MemberRecord

/-! ## Messages -/

inductive ClusterMessageKind where
  | Heartbeat
  | Sync
  deriving DecidableEq

def ClusterMessageKind.as_str : ClusterMessageKind → Text
  | Heartbeat => ascii "heartbeat"
  | Sync => ascii "sync"

structure ClusterMessage where
  kind : ClusterMessageKind
  sender_id : Text
  sender_incarnation : UInt64
  sequence : UInt64
  sent_at : F64
  leader_epoch : UInt64
  leader_id : Text
  cluster_size : UInt64
  updates : List MemberUpdate
  signature : List UInt8
  sender_key_id : Text
  deriving DecidableEq

structure ClusterCrates where
  json_to_vec : Json → List UInt8
  ed25519_sign : List UInt8 → List UInt8 → List UInt8
  ed25519_verify : List UInt8 → List UInt8 → List UInt8 → Bool

namespace ClusterMessage

/-- The signed part, with the keys in order. The name of the cluster is not in it. -/
def body (m : ClusterMessage) : Json :=
  .obj [("cluster_size", .pos_int m.cluster_size), ("kind", .str m.kind.as_str),
    ("leader_epoch", .pos_int m.leader_epoch),
    ("leader_id", .str m.leader_id),
    ("sender_id", .str m.sender_id),
    ("sender_incarnation", .pos_int m.sender_incarnation),
    ("sent_at", .float m.sent_at),
    ("sequence", .pos_int m.sequence),
    ("updates", .arr (m.updates.map fun u => .obj [("addr", .str u.addr),
      ("incarnation", .pos_int u.incarnation),
      ("node_id", .str u.node_id),
      ("state", .str u.state.as_str)]))]

def body_bytes (C : ClusterCrates) (m : ClusterMessage) : List UInt8 := C.json_to_vec m.body

end ClusterMessage

def verify_data (C : ClusterCrates) (key message signature : List UInt8) : Bool :=
  signature.length = 64 && C.ed25519_verify key message signature

structure AgentIdentity where
  agent_id : Text
  signing_key : List UInt8
  verifying_key : List UInt8

/-- `ClusterRejection`, without those of the wire format. -/
inductive ClusterRejection where
  | UnknownSender
  | UntrustedKey
  | BadSignature
  | Stale
  | Replay
  | WrongCluster
  deriving DecidableEq

/-! ## Configuration -/

structure ClusterConfig where
  cluster_name : Text
  expected_cluster_size : UInt64
  suspect_timeout : Duration
  dead_timeout : Duration
  message_max_age : Duration
  lease_ttl : Duration

namespace ClusterConfig

def new (cluster_name : Text) (expected_cluster_size : UInt64) : ClusterConfig where
  cluster_name := cluster_name
  expected_cluster_size := max expected_cluster_size 1
  suspect_timeout := DEFAULT_SUSPECT_TIMEOUT
  dead_timeout := DEFAULT_DEAD_TIMEOUT
  message_max_age := DEFAULT_MESSAGE_MAX_AGE
  lease_ttl := DEFAULT_LEASE_TTL

def quorum (c : ClusterConfig) : ℕ := c.expected_cluster_size.toNat / 2 + 1

end ClusterConfig

/-! ## The engine -/

/-- What an engine is constructed with. The roster is what `transport.peers()` returns. -/
structure ClusterSetup where
  node_id : Text
  identity : AgentIdentity
  trust_store : TrustStore
  peers : List Text
  config : ClusterConfig

structure ClusterEngine extends ClusterSetup where
  members : Members
  replay_high_water : Table Text (UInt64 × UInt64)
  leader : Option Text
  incarnation : UInt64
  sequence : UInt64
  leader_epoch : UInt64

structure LeadershipChange where
  previous_leader : Option Text
  new_leader : Option Text
  epoch : UInt64
  self_is_leader : Bool
  deriving DecidableEq

structure TickOutcome where
  newly_suspect : ℕ
  newly_dead : ℕ
  heartbeats_sent : ℕ
  leadership_changed : Bool

structure ClusterInput where
  now : ℚ
  wall : F64
  /-- What `acquire_or_renew_lease` answers, if it is asked; `true` without a backend. -/
  lease : Bool

structure ClusterOutcome where
  engine : ClusterEngine
  sent : List ClusterMessage
  change : Option LeadershipChange

/-! ### The membership view -/

variable (existing : MemberRecord)

def MemberRecord.superseded_by (update : MemberUpdate) : Bool :=
  existing.incarnation < update.incarnation ∨
    (update.incarnation = existing.incarnation ∧ existing.state < update.state)

def MemberRecord.absorb (update : MemberUpdate) (now : ℚ) : MemberRecord :=
  if existing.superseded_by update then
    { existing with
      state_changed_at := if existing.state = update.state then existing.state_changed_at else now
      incarnation := update.incarnation
      state := update.state
      addr := if update.addr = [] then existing.addr else update.addr }
  else existing

def MemberRecord.refresh (state : NodeState) (now : ℚ) : MemberRecord :=
  if existing.state ≠ .Alive ∧ state = .Alive then
    { existing with last_seen := now, state := .Alive, state_changed_at := now }
  else { existing with last_seen := now }

def MemberRecord.merge (update : MemberUpdate) (now : ℚ) (authoritative : Bool) : MemberRecord :=
  -- a departed node comes back only with a larger incarnation
  if existing.state = .Left ∧ update.incarnation ≤ existing.incarnation then existing
  else if authoritative then (existing.absorb update now).refresh update.state now
  else existing.absorb update now

def merge_one (members : Members) (update : MemberUpdate) (now : ℚ) (authoritative : Bool) :
    Members :=
  match members.get update.node_id with
  | some _ => members.modify update.node_id fun existing => existing.merge update now authoritative
  | none =>
    -- a newcomer enters in whatever state it is reported; a full view takes none
    if CLUSTER_MAX_MEMBERS ≤ members.len then members
    else members.insert update.node_id
      ⟨update.node_id, update.addr, update.incarnation, update.state, now, now⟩

namespace ClusterEngine

def new (setup : ClusterSetup) (addr : Text) (now : ℚ) : ClusterEngine where
  toClusterSetup := setup
  members := Table.empty.insert setup.node_id
    ⟨setup.node_id, addr, as_u64 now, .Alive, now, now⟩
  replay_high_water := .empty
  leader := none
  incarnation := as_u64 now
  sequence := 0
  leader_epoch := 0

variable (e : ClusterEngine)

def is_leader : Bool := e.leader = some e.node_id

def alive_count : ℕ := e.members.count fun m => m.state.counts_for_quorum

def has_quorum : Bool := e.config.quorum ≤ e.alive_count

def state_of (node_id : Text) : Option NodeState :=
  (e.members.get node_id).map MemberRecord.state

def add_peer (node_id addr : Text) (now : ℚ) : ClusterEngine :=
  if node_id = e.node_id ∨ e.members.contains node_id ∨ CLUSTER_MAX_MEMBERS ≤ e.members.len then e
  else { e with members := e.members.insert node_id ⟨node_id, addr, 0, .Suspect, now, now⟩ }

/-! ### Sending -/

variable (H : Hashes)

def build_message (C : ClusterCrates) (e : ClusterEngine) (kind : ClusterMessageKind)
    (wall : F64) : ClusterEngine × ClusterMessage :=
  let unsigned : ClusterMessage :=
    { kind := kind
      sender_id := e.node_id
      sender_incarnation := e.incarnation
      sequence := e.sequence + 1 -- `fetch_add(1) + 1`; that it panics at the maximum is left out
      sent_at := wall
      leader_epoch := e.leader_epoch
      leader_id := e.leader.getD []
      cluster_size := e.config.expected_cluster_size
      updates := e.members.entries.map fun m =>
        ⟨m.2.node_id, m.2.addr, m.2.incarnation, m.2.state⟩
      signature := []
      sender_key_id := pub_key_fingerprint H e.identity.verifying_key }
  ({ e with sequence := e.sequence + 1 }, { unsigned with
      signature := C.ed25519_sign e.identity.signing_key (unsigned.body_bytes C) })

def broadcast (C : ClusterCrates) (e : ClusterEngine) (kind : ClusterMessageKind)
    (wall : F64) : ClusterEngine × ClusterMessage := e.build_message H C kind wall

def fanout : ℕ := e.peers.countP fun p => p ≠ e.node_id

/-! ### Electing -/

def alive : List Text :=
  (e.members.entries.filter fun m => m.2.state.counts_for_quorum).map fun m => m.2.node_id

def min_by_key (key : Text → Text) : List Text → Option Text
  | [] => none
  | id :: ids => some (ids.foldl (fun best id => if key id < key best then id else best) id)

def candidate (config : ClusterConfig) (alive : List Text) : Option Text :=
  if alive.length < config.quorum then none
  else min_by_key (fun id => hexText (H.sha256 id)) alive

def swap_leader (candidate : Option Text) : ClusterEngine × Option (Option Text) :=
  if e.leader = candidate then (e, none) else ({ e with leader := candidate }, some e.leader)

/-- `leader_epoch.fetch_add(1) + 1`, and the change that carries the new epoch. At the maximum the
counter wraps and the sum panics: no change is delivered, and the call does not return. -/
def bump_epoch (previous candidate : Option Text) : ClusterEngine × Option LeadershipChange :=
  ({ e with leader_epoch := e.leader_epoch + 1 },
    if e.leader_epoch + 1 = 0 then none
    else some ⟨previous, candidate, e.leader_epoch + 1, candidate = some e.node_id⟩)

def install (candidate : Option Text) : ClusterEngine × Option LeadershipChange :=
  match e.swap_leader candidate with
  | (e, none) => (e, none)
  | (e, some previous) => e.bump_epoch previous candidate

/-- The winner, unless it is this node and the lease is not to be had. -/
def leased (candidate : Option Text) (lease : Bool) : Option Text :=
  if candidate = some e.node_id ∧ lease = false then none else candidate

def recompute_leader (e : ClusterEngine) (lease : Bool) : ClusterEngine × Option LeadershipChange :=
  e.install (e.leased (candidate H e.config e.alive) lease)

def absorb_epoch (seen : UInt64) : ClusterEngine :=
  { e with leader_epoch := max e.leader_epoch seen }

/-! ### Receiving -/

/-- The checks of `receive_message_inner` before the replay map. -/
def check_message (C : ClusterCrates) (e : ClusterEngine) (msg : ClusterMessage) (now : ℚ) :
    Except ClusterRejection Unit :=
  if msg.sender_id = e.node_id then .error .UnknownSender
  else if msg.sender_id ∉ e.peers then .error .UnknownSender
  else
    -- the fingerprint is the one the message gives, and is not under the signature
    match e.trust_store.get_key_by_fingerprint msg.sender_key_id with
    | none => .error .UntrustedKey
    | some key =>
      if verify_data C key (msg.body_bytes C) msg.signature = false then .error .BadSignature
      else if msg.cluster_size ≠ e.config.expected_cluster_size then .error .WrongCluster
      else if as_secs_f64 e.config.message_max_age < now - msg.sent_at.toRat ∨
          now - msg.sent_at.toRat < -CLUSTER_MAX_CLOCK_SKEW then .error .Stale
      else .ok ()

def newer (incoming prev : UInt64 × UInt64) : Bool :=
  prev.1 < incoming.1 ∨ (prev.1 = incoming.1 ∧ prev.2 < incoming.2)

def mark_replay (msg : ClusterMessage) : Except ClusterRejection ClusterEngine :=
  let marked : ClusterEngine :=
    { e with
      replay_high_water :=
        e.replay_high_water.insert msg.sender_id (msg.sender_incarnation, msg.sequence) }
  match e.replay_high_water.get msg.sender_id with
  | some prev =>
    if newer (msg.sender_incarnation, msg.sequence) prev then .ok marked else .error .Replay
  | none =>
    -- without a mark any message is new
    if CLUSTER_MAX_MEMBERS ≤ e.replay_high_water.len then .error .UnknownSender else .ok marked

def sender_state (msg : ClusterMessage) : NodeState :=
  if (msg.updates.find? fun u => u.node_id = msg.sender_id).map MemberUpdate.state = some .Left
  then .Left else .Alive

def sender_update (msg : ClusterMessage) : MemberUpdate :=
  ⟨msg.sender_id, [], msg.sender_incarnation, sender_state msg⟩

def third_party (msg : ClusterMessage) : List MemberUpdate :=
  msg.updates.filter fun u => u.node_id ≠ e.node_id ∧ u.node_id ≠ msg.sender_id

def refutes (msg : ClusterMessage) : Bool :=
  msg.updates.any fun u =>
    u.node_id = e.node_id ∧ u.state ≠ .Alive ∧ e.incarnation ≤ u.incarnation

/-- The lock scope of `apply_message`. -/
def apply_message (msg : ClusterMessage) (now : ℚ) : ClusterEngine :=
  { e with
    members := (e.third_party msg).foldl (fun members u => merge_one members u now false)
      (merge_one e.members (sender_update msg) now true) }

/-- The new incarnation; that the sum panics at the maximum is left out, as in `mark_left`. -/
def refute_suspicion (now : ℚ) : ClusterEngine :=
  { e with
    incarnation := e.incarnation + 1
    members := e.members.modify e.node_id fun me =>
      -- after `leave` the counter still moves, the record does not
      if me.state = .Left then me
      else { me with
        incarnation := e.incarnation + 1
        state := .Alive
        state_changed_at := now
        last_seen := now } }

def apply_and_refute (C : ClusterCrates) (e : ClusterEngine) (msg : ClusterMessage)
    (inp : ClusterInput) : ClusterEngine × List ClusterMessage :=
  if e.refutes msg then
    let sent :=
      ((e.apply_message msg inp.now).refute_suspicion inp.now).broadcast H C .Sync inp.wall
    (sent.1, [sent.2])
  else (e.apply_message msg inp.now, [])

def accept_message (C : ClusterCrates) (e : ClusterEngine) (msg : ClusterMessage)
    (inp : ClusterInput) : ClusterOutcome :=
  let applied := e.apply_and_refute H C msg inp
  let elected := (applied.1.absorb_epoch msg.leader_epoch).recompute_leader H inp.lease
  ⟨elected.1, applied.2, elected.2⟩

def receive_message (C : ClusterCrates) (e : ClusterEngine) (msg : ClusterMessage)
    (inp : ClusterInput) : ClusterOutcome × Except ClusterRejection Unit :=
  match e.check_message C msg inp.now with
  | .error r => (⟨e, [], none⟩, .error r)
  | .ok () =>
    match e.mark_replay msg with
    | .error r => (⟨e, [], none⟩, .error r)
    | .ok marked => (marked.accept_message H C msg inp, .ok ())

/-! ### Ageing and leaving -/

def age_member (now : ℚ) (m : MemberRecord) : MemberRecord :=
  if m.node_id = e.node_id then m
  else
    match m.state with
    | .Alive =>
      if as_secs_f64 e.config.suspect_timeout < now - m.last_seen then
        { m with state := .Suspect, state_changed_at := now }
      else m
    | .Suspect =>
      -- counted from the last message, so that a peer that never spoke dies as well
      if as_secs_f64 e.config.dead_timeout < now - m.last_seen then
        { m with state := .Dead, state_changed_at := now }
      else m
    | .Dead => m
    | .Left => m

def age_members (now : ℚ) : ClusterEngine :=
  { e with members := e.members.mapValues (e.age_member now) }

def newly (now : ℚ) (before after : NodeState) : ℕ :=
  e.members.count fun m => m.state = before ∧ (e.age_member now m).state = after

def tick (C : ClusterCrates) (e : ClusterEngine) (inp : ClusterInput) :
    ClusterOutcome × TickOutcome :=
  let sent := (e.age_members inp.now).broadcast H C .Heartbeat inp.wall
  let elected := sent.1.recompute_leader H inp.lease
  (⟨elected.1, [sent.2], elected.2⟩,
    ⟨e.newly inp.now .Alive .Suspect, e.newly inp.now .Suspect .Dead, e.fanout, elected.2.isSome⟩)

def mark_left (now : ℚ) : ClusterEngine :=
  { e with
    members := e.members.modify e.node_id fun me =>
      { me with state := .Left, state_changed_at := now, incarnation := me.incarnation + 1 } }

def bump_incarnation : ClusterEngine :=
  { e with incarnation := e.incarnation + 1 }

def leave (C : ClusterCrates) (e : ClusterEngine) (inp : ClusterInput) : ClusterOutcome :=
  let sent := (e.mark_left inp.now).bump_incarnation.broadcast H C .Sync inp.wall
  let elected := sent.1.recompute_leader H inp.lease
  ⟨elected.1, [sent.2], elected.2⟩

def doomed (now : ℚ) : List Text :=
  (e.members.entries.filter fun m => m.2.node_id ≠ e.node_id ∧
      (m.2.state = .Dead ∨ m.2.state = .Left) ∧
      as_secs_f64 e.config.dead_timeout < now - m.2.state_changed_at).map fun m => m.2.node_id

def sweep_expired (now : ℚ) : ClusterEngine × ℕ :=
  -- the replay marks go with the members
  ({ e with
     members := e.members.removeAll (e.doomed now)
     replay_high_water := e.replay_high_water.removeAll (e.doomed now) }, (e.doomed now).length)

end ClusterEngine

/-! ## A small cluster

Three nodes, for runs on fixed inputs: `A`, `B` and `C`, with `A` before `C` before `B` in the
order of the election. -/

def sampleClusterCrates : ClusterCrates where
  json_to_vec := Json.compact fun _ => []
  ed25519_sign key _ := key ++ key
  ed25519_verify key _ signature := signature = key ++ key

def sampleKey (id : UInt8) : List UInt8 := List.replicate 32 id

def sampleTrust : TrustStore :=
  [65, 66, 67].foldl (fun t id => t.pin_identity sampleHashes [id] (sampleKey id)) .new

def sampleSetup (id : UInt8) : ClusterSetup where
  node_id := [id]
  identity := ⟨[id], sampleKey id, sampleKey id⟩
  trust_store := sampleTrust
  peers := ([65, 66, 67].filter fun p => p ≠ id).map fun p => [p]
  config := .new (ascii "test-cluster") 3

def sampleEngine (id : UInt8) : ClusterEngine := .new (sampleSetup id) [] 0

def wall_0 : F64 := ⟨0, F64.finite_zero⟩
def wall_12 : F64 := ⟨0x4028000000000000, by decide⟩

def sampleHeartbeat : ClusterMessage :=
  ((sampleEngine 66).broadcast sampleHashes sampleClusterCrates .Heartbeat wall_0).2

end Saacp
