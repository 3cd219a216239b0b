/-
**Gossip of revocations**: an engine verifies and stores what it receives, remembers the id it came
under, and hands new records on to a few peers.

The id is part of the envelope and not of what is signed, and an engine forwards nothing under an id
it has accepted something under. The bytes that are handed to a peer are those of the record alone;
nothing in them says how far the record has come.
-/
import Saacp.RevocationStore
import Saacp.Handler
import Mathlib.Algebra.Order.Floor.Ring
import Mathlib.Data.Rat.Floor

set_option autoImplicit false

open ByteCodec

namespace Saacp

open List Table SignedRevocationRecord DistributedRevocationInfrastructure UInt8

def GOSSIP_FANOUT : ℕ := 3
def GOSSIP_MAX_HOPS : UInt8 := 5
def GOSSIP_DEDUP_TTL_SECONDS : ℚ := 3600
def SEEN_SET_MAX_ENTRIES : ℕ := 100000

/-! ## Records on the wire -/

namespace SignedRevocationRecord

def to_wire (C : FaitfCrates) (r : SignedRevocationRecord) : List UInt8 :=
  let body := r.body_bytes C
  C.base64_encode (toBE 4 body.length ++ body ++ r.revoker_signature ++ r.revoker_key_id)

def body (r : SignedRevocationRecord) : Json :=
  Json.sort_keys (.obj [("agent_id", .str r.agent_id),
    ("credential_fingerprint", .str r.credential_fingerprint), ("reason", .str r.reason),
    ("revoked_at", .float r.revoked_at), ("revoker_id", .str r.revoker_id)])

end SignedRevocationRecord

/-! ## Envelopes -/

structure GossipEnvelope where
  record : SignedRevocationRecord
  hop_count : UInt8
  origin_id : Text
  revocation_id : Text
  deriving DecidableEq

namespace GossipEnvelope

def derive_revocation_id (H : Hashes) (record : SignedRevocationRecord) : Text :=
  hexText (H.sha256 (record.agent_id ++ record.credential_fingerprint ++
    toBE 8 record.revoked_at.bits.toNat))

def next (env : GossipEnvelope) : GossipEnvelope := { env with hop_count := env.hop_count + 1 }

end GossipEnvelope

def decode_gossip_envelope (C : PeerCrates) (payload_dict : Table String JsonValue) :
    Option GossipEnvelope :=
  match payload_dict.get "gossip_record", payload_dict.get "hop_count",
    payload_dict.get "origin_id", payload_dict.get "revocation_id" with
  | some (.string gossip_record_b64), some (.number n), some (.string origin_id),
    some (.string revocation_id) =>
    if 0 ≤ n ∧ n ≤ 255 then
      match C.base64_decode gossip_record_b64 with
      | .error _ => none
      | .ok wire =>
        match SignedRevocationRecord.from_wire C wire with
        | .error _ => none
        | .ok record =>
          some { record, hop_count := UInt8.ofNat ⌊n⌋.toNat, origin_id, revocation_id }
    else none
  | _, _, _, _ => none

/-! ## The seen set -/

abbrev SeenSet := Table Text ℚ

namespace SeenSet

def evict_expired (seen : SeenSet) (now : ℚ) : SeenSet := Table.retain seen fun _ exp => now ≤ exp

def check_and_insert (order : MapOrder ℚ) (now : ℚ) (seen : SeenSet) (revocation_id : Text) :
    SeenSet × Bool :=
  let seen := evict_expired seen now
  if Table.contains seen revocation_id then (seen, true)
  else
    let seen : SeenSet :=
      if SEEN_SET_MAX_ENTRIES ≤ Table.len seen then
        let by_expiry := (order.walk seen.entries).insertionSort fun a b => a.2 ≤ b.2
        Table.removeAll seen
          ((by_expiry.take (Table.len seen + 1 - SEEN_SET_MAX_ENTRIES)).map Prod.fst)
      else seen
    (Table.insert seen revocation_id (now + GOSSIP_DEDUP_TTL_SECONDS), false)

theorem get_check_and_insert {order : MapOrder ℚ} {now : ℚ} {seen : SeenSet} {id k : Text} {exp : ℚ}
    (h : get (check_and_insert order now seen id).1 k = some exp) :
    get seen k = some exp ∨ k = id ∧ exp = now + GOSSIP_DEDUP_TTL_SECONDS := by
  have hevicted : ∀ {k exp}, get (evict_expired seen now) k = some exp →
      get seen k = some exp := fun hk => (get_retain.mp hk).1
  unfold check_and_insert at h
  simp only at h
  split_ifs at h with hcontains hfull
  · exact .inl (hevicted h)
  · apply forall_insert _ _ k exp h
    · exact fun _ _ hk => .inl (hevicted (removeAll_le _ _ _ _ hk))
    · exact .inr ⟨rfl, rfl⟩
  · apply forall_insert _ _ k exp h
    · exact fun _ _ hk => .inl (hevicted hk)
    · exact .inr ⟨rfl, rfl⟩

theorem check_of_expired (order : MapOrder ℚ) {now : ℚ} {seen : SeenSet} {id : Text}
    (h : ∀ exp, get seen id = some exp → exp < now) :
    (check_and_insert order now seen id).2 = false := by
  have hcontains : ¬ contains (evict_expired seen now) id = true := by
    intro hcontains
    obtain ⟨exp, hexp⟩ := Option.isSome_iff_exists.mp hcontains
    obtain ⟨hget, hlive⟩ := get_retain.mp hexp
    exact absurd (of_decide_eq_true hlive) (not_le.mpr (h exp hget))
  unfold check_and_insert
  rw [if_neg hcontains]

end SeenSet

/-! ## The engine -/

/-- How a random generator picks some of a list: `choose_multiple`. -/
structure PeerChoice where
  choose_multiple : List Text → ℕ → List Text
  subperm : ∀ peers amount, (choose_multiple peers amount).Subperm peers
  length : ∀ peers amount, (choose_multiple peers amount).length = min amount peers.length

/-- What a call reads: the clock, the order of the hash maps, and the peers of the moment. -/
structure GossipReads where
  now : ℚ
  order : MapOrder ℚ
  store_order : MapOrder SignedRevocationRecord
  store_now : Text → ℚ
  known_peers : List Text
  choice : PeerChoice

structure GossipEngine where
  seen : SeenSet
  dri : DistributedRevocationInfrastructure
  trust_store : AnchoredTrustStore
  node_id : Text

structure Received where
  engine : GossipEngine
  accepted : Bool
  forwarded : Option GossipEnvelope

namespace GossipEngine

def new (dri : DistributedRevocationInfrastructure) (trust_store : AnchoredTrustStore)
    (node_id : Text) : GossipEngine := ⟨.empty, dri, trust_store, node_id⟩

def fanout (C : FaitfCrates) (reads : GossipReads) (env : GossipEnvelope) :
    List (Text × List UInt8) :=
  if reads.known_peers.isEmpty then []
  else
    let chosen := reads.choice.choose_multiple reads.known_peers GOSSIP_FANOUT
    let payload := env.record.to_wire C
    chosen.map fun peer_id => (peer_id, payload)

/-- The envelope of a record that was made on this node. -/
def origin_envelope (H : Hashes) (e : GossipEngine) (record : SignedRevocationRecord) :
    GossipEnvelope :=
  ⟨record, 0, e.node_id, GossipEnvelope.derive_revocation_id H record⟩

def broadcast (H : Hashes) (e : GossipEngine) (record : SignedRevocationRecord)
    (reads : GossipReads) : GossipEngine :=
  { e with
    seen := (e.seen.check_and_insert reads.order reads.now
      (GossipEnvelope.derive_revocation_id H record)).1 }

def receive (H : Hashes) (C : PeerCrates) (e : GossipEngine) (env : GossipEnvelope)
    (reads : GossipReads) : Received :=
  match e.dri.propagate H C reads.store_order reads.store_now
    (env.record.to_wire C.toFaitfCrates) e.trust_store with
  | (dri, false) => ⟨{ e with dri }, false, none⟩
  | (dri, true) =>
    match e.seen.check_and_insert reads.order reads.now env.revocation_id with
    | (seen, true) => ⟨{ e with dri, seen }, true, none⟩
    | (seen, false) =>
      ⟨{ e with dri, seen }, true, if env.hop_count < GOSSIP_MAX_HOPS then some env.next else none⟩

theorem receive_cases (H : Hashes) (C : PeerCrates) (e : GossipEngine) (env : GossipEnvelope)
    (reads : GossipReads) :
    let stored := (e.dri.propagate H C reads.store_order reads.store_now
      (env.record.to_wire C.toFaitfCrates) e.trust_store).2
    let seen := e.seen.check_and_insert reads.order reads.now env.revocation_id
    let received := e.receive H C env reads
    (stored = false ∧ received.accepted = false ∧ received.forwarded = none ∧
        received.engine.seen = e.seen) ∨
      (stored = true ∧ received.accepted = true ∧ received.engine.seen = seen.1 ∧
        received.forwarded = if seen.2 then none
          else if env.hop_count < GOSSIP_MAX_HOPS then some env.next else none) := by
  unfold receive
  rcases e.dri.propagate H C reads.store_order reads.store_now
    (env.record.to_wire C.toFaitfCrates) e.trust_store with ⟨dri, stored⟩
  cases stored with
  | false => exact .inl ⟨rfl, rfl, rfl, rfl⟩
  | true =>
    rcases e.seen.check_and_insert reads.order reads.now env.revocation_id with ⟨seen, already⟩
    cases already with
    | false | true => exact .inr ⟨rfl, rfl, rfl, rfl⟩

def sent (C : PeerCrates) (reads : GossipReads) (r : Received) : List (Text × List UInt8) :=
  match r.forwarded with
  | some env => fanout C.toFaitfCrates reads env
  | none => []

def sweep_expired (e : GossipEngine) (now : ℚ) : GossipEngine :=
  { e with seen := e.seen.evict_expired now }

/-! ## Runs -/

/-- The calls on an engine, and what others do to the store and the trust store between them. -/
inductive GossipCall
  | receive (env : GossipEnvelope) (reads : GossipReads)
  | broadcast (record : SignedRevocationRecord) (reads : GossipReads)
  | sweep_expired (now : ℚ)
  | elsewhere (dri : DistributedRevocationInfrastructure) (trust_store : AnchoredTrustStore)

section Runs

variable (H : Hashes) (C : PeerCrates)

def apply (e : GossipEngine) : GossipCall → GossipEngine
  | .receive env reads => (e.receive H C env reads).engine
  | .broadcast record reads => e.broadcast H record reads
  | .sweep_expired now => e.sweep_expired now
  | .elsewhere dri trust_store => { e with dri, trust_store }

def marks (e : GossipEngine) : GossipCall → Option (Text × ℚ)
  | .receive env reads =>
    if (e.receive H C env reads).accepted then some (env.revocation_id, reads.now) else none
  | .broadcast record reads =>
    some (GossipEnvelope.derive_revocation_id H record, reads.now)
  | _ => none

def all_marks (e : GossipEngine) : List GossipCall → List (Text × ℚ)
  | [] => []
  | call :: calls => (e.marks H C call).toList ++ all_marks (e.apply H C call) calls

variable {H C}

theorem seen_apply {e : GossipEngine} {call : GossipCall} {k : Text} {exp : ℚ}
    (h : (e.apply H C call).seen.get k = some exp) :
    e.seen.get k = some exp ∨
      ∃ at_, e.marks H C call = some (k, at_) ∧ exp = at_ + GOSSIP_DEDUP_TTL_SECONDS := by
  cases call with
  | receive env reads =>
    rw [apply] at h
    rcases e.receive_cases H C env reads with ⟨-, -, -, hseen⟩ | ⟨-, haccepted, hseen, -⟩
    · rw [hseen] at h
      exact .inl h
    · rw [hseen] at h
      rcases SeenSet.get_check_and_insert h with hold | ⟨rfl, rfl⟩
      · exact .inl hold
      · exact .inr ⟨reads.now, if_pos haccepted, rfl⟩
  | broadcast record reads =>
    rcases SeenSet.get_check_and_insert h with hold | ⟨rfl, rfl⟩
    · exact .inl hold
    · exact .inr ⟨reads.now, rfl, rfl⟩
  | sweep_expired now => exact .inl (get_retain.mp h).1
  | elsewhere dri trust_store => exact .inl h

theorem marked_of_seen {e : GossipEngine} {calls : List GossipCall} {k : Text} {exp : ℚ}
    (h : (calls.foldl (apply H C) e).seen.get k = some exp) :
    e.seen.get k = some exp ∨
      ∃ at_, (k, at_) ∈ e.all_marks H C calls ∧ exp = at_ + GOSSIP_DEDUP_TTL_SECONDS := by
  induction calls generalizing e with
  | nil => exact .inl h
  | cons call calls ih =>
    rcases ih h with hseen | ⟨at_, hmem, hexp⟩
    · rcases seen_apply hseen with hold | ⟨at_, hmark, hexp⟩
      · exact .inl hold
      · refine .inr ⟨at_, mem_append_left _ ?_, hexp⟩
        rw [hmark]
        exact mem_singleton_self _
    · exact .inr ⟨at_, mem_append_right _ hmem, hexp⟩

end Runs

variable {C : PeerCrates} {env : GossipEnvelope}

theorem receive_of_unseen {H : Hashes} {e : GossipEngine}
    {reads : GossipReads} {record : SignedRevocationRecord}
    (hsigned : verified H C (env.record.to_wire C.toFaitfCrates) e.trust_store = some record)
    (hroom : e.dri.store_record reads.store_order reads.store_now record ≠ none)
    (hseen : ∀ exp, e.seen.get env.revocation_id = some exp → exp < reads.now) :
    (e.receive H C env reads).accepted = true ∧ (e.receive H C env reads).forwarded =
        if env.hop_count < GOSSIP_MAX_HOPS then some env.next else none := by
  obtain ⟨dri, hdri⟩ := Option.ne_none_iff_exists'.mp hroom
  have hstored : (e.dri.propagate H C reads.store_order reads.store_now
      (env.record.to_wire C.toFaitfCrates) e.trust_store).2 = true := by
    rw [propagate, hsigned]
    simp only [hdri]
  have hcheck := SeenSet.check_of_expired reads.order hseen
  rcases e.receive_cases H C env reads with ⟨hrejected, -⟩ | ⟨-, haccepted, -, hforwarded⟩
  · rw [hstored] at hrejected
    cases hrejected
  · rw [hcheck] at hforwarded
    exact ⟨haccepted, hforwarded⟩

/-- **A revocation is forwarded** when it is received with hops left, the store takes it, and
nothing was accepted under its id during the time ids are remembered: to as many of the peers as
there are, up to three. -/
theorem revocation_forwarded (H : Hashes) (C : PeerCrates)
    (dri : DistributedRevocationInfrastructure) (trust_store : AnchoredTrustStore) (node_id : Text)
    (calls : List GossipCall) (env : GossipEnvelope) (reads : GossipReads)
    (record : SignedRevocationRecord) (hhops : env.hop_count < GOSSIP_MAX_HOPS)
    (hsigned : SignedRevocationRecord.verified H C (env.record.to_wire C.toFaitfCrates)
      (calls.foldl (apply H C) (new dri trust_store node_id)).trust_store = some record)
    (hroom : (calls.foldl (apply H C) (new dri trust_store node_id)).dri.store_record
      reads.store_order reads.store_now record ≠ none)
    (hunmarked : ∀ at_, (env.revocation_id, at_) ∈
      (new dri trust_store node_id).all_marks H C calls →
        at_ + GOSSIP_DEDUP_TTL_SECONDS < reads.now) :
    ∃ chosen : List Text, chosen.Subperm reads.known_peers ∧
      chosen.length = min GOSSIP_FANOUT reads.known_peers.length ∧
      sent C reads ((calls.foldl (apply H C) (new dri trust_store node_id)).receive H C env reads) =
        chosen.map fun peer_id => (peer_id, env.record.to_wire C.toFaitfCrates) := by
  have hseen : ∀ exp,
      (calls.foldl (apply H C) (new dri trust_store node_id)).seen.get env.revocation_id =
        some exp → exp < reads.now := by
    intro exp hexp
    rcases marked_of_seen hexp with hnew | ⟨at_, hmem, rfl⟩
    · cases hnew
    · exact hunmarked at_ hmem
  obtain ⟨-, hforwarded⟩ := receive_of_unseen hsigned hroom hseen
  rw [sent, hforwarded, if_pos hhops]
  by_cases hnone : reads.known_peers.isEmpty = true
  · rw [List.isEmpty_iff] at hnone
    refine ⟨[], List.nil_subperm, ?_, ?_⟩
    · rw [hnone]
      rfl
    · simp only [fanout, hnone]
      rfl
  · refine ⟨reads.choice.choose_multiple reads.known_peers GOSSIP_FANOUT, reads.choice.subperm _ _,
      reads.choice.length _ _, ?_⟩
    simp only [fanout, if_neg hnone]
    rfl

/-! ## From engine to engine -/

theorem forwarded_eq {H : Hashes} {e : GossipEngine} {env' : GossipEnvelope}
    {reads : GossipReads} (h : (e.receive H C env reads).forwarded = some env') :
    env.hop_count < GOSSIP_MAX_HOPS ∧ env' = env.next := by
  rcases e.receive_cases H C env reads with ⟨-, -, hnone, -⟩ | ⟨-, -, -, hforwarded⟩
  · rw [hnone] at h
    cases h
  · rw [hforwarded] at h
    split_ifs at h with hseen hhops
    exact ⟨hhops, (Option.some.inj h).symm⟩

/-- Only the record and the id decide whether a copy with hops left is forwarded. -/
theorem forwarded_of_copy {H : Hashes} {e : GossipEngine} {twin env' : GossipEnvelope}
    {reads : GossipReads} (h : (e.receive H C env reads).forwarded = some env')
    (hrecord : twin.record = env.record) (hid : twin.revocation_id = env.revocation_id)
    (hleft : twin.hop_count < GOSSIP_MAX_HOPS) :
    (e.receive H C twin reads).forwarded = some twin.next := by
  rcases e.receive_cases H C env reads with ⟨-, -, hnone, -⟩ | ⟨hstored, -, -, hcase⟩
  · cases hnone.symm.trans h
  rw [hcase, ← hid] at h
  rw [← hrecord] at hstored
  rcases e.receive_cases H C twin reads with ⟨hrefused, -⟩ | ⟨-, -, -, hcase'⟩
  · cases hrefused.symm.trans hstored
  rw [hcase', if_pos hleft]
  split_ifs at h with hseen
  exact if_neg hseen

/-- A copy on its way through a network of engines, which has been fanned out `n` times. -/
inductive ForwardingPath (H : Hashes) (C : PeerCrates)
    (deliver : GossipEnvelope → Option GossipEnvelope) : GossipEnvelope → ℕ → Prop
  | outside (env : GossipEnvelope) : ForwardingPath H C deliver env 0
  | broadcast (e : GossipEngine) (record : SignedRevocationRecord) :
      ForwardingPath H C deliver (e.origin_envelope H record) 1
  | receive {env received env' : GossipEnvelope} {n : ℕ} (e : GossipEngine) (reads : GossipReads)
      (hpath : ForwardingPath H C deliver env n) (hdeliver : deliver env = some received)
      (hforward : (e.receive H C received reads).forwarded = some env') :
      ForwardingPath H C deliver env' (n + 1)

/-- **The bytes never say what was forwarded.** Whatever an engine forwards, it would send the same
bytes for an envelope that came from another origin and over another number of hops, so that no
transport can make of them what the decoder of the peer needs. What one node broadcasts it would
send for another one, too. -/
theorem forwarded_not_conveyed (H : Hashes) (C : PeerCrates) (e : GossipEngine)
    (reads : GossipReads) :
    (∀ env env', (e.receive H C env reads).forwarded = some env' →
        ∃ twin twin', (e.receive H C twin reads).forwarded = some twin' ∧
          twin'.hop_count ≠ env'.hop_count ∧ twin'.origin_id ≠ env'.origin_id ∧
          ∀ pack : List (Text × List UInt8) → Table String JsonValue,
            decode_gossip_envelope C (pack (sent C reads (e.receive H C env reads))) = some env' →
            decode_gossip_envelope C (pack (sent C reads (e.receive H C twin reads))) ≠
              some twin') ∧
      ∀ record, ∃ other : GossipEngine,
        other.origin_envelope H record ≠ e.origin_envelope H record ∧
        fanout C.toFaitfCrates reads (other.origin_envelope H record) =
          fanout C.toFaitfCrates reads (e.origin_envelope H record) := by
  refine ⟨fun env env' hforwarded => ?_, fun record => ⟨{ e with node_id := 0 :: e.node_id }, ?_⟩⟩
  · obtain ⟨hhops, rfl⟩ := forwarded_eq hforwarded
    let twin : GossipEnvelope :=
      { env with
        hop_count := if env.hop_count = 0 then 1 else 0
        origin_id := 0 :: env.origin_id }
    have hleft : twin.hop_count < GOSSIP_MAX_HOPS := by
      show (if env.hop_count = 0 then 1 else 0) < GOSSIP_MAX_HOPS
      split <;> decide
    have hother : twin.next.hop_count ≠ env.next.hop_count := by
      show (if env.hop_count = 0 then 1 else 0) + 1 ≠ env.hop_count + 1
      split
      · rename_i hzero
        rw [hzero]
        decide
      · rename_i hpos
        exact fun hsame => hpos ((UInt8.add_left_inj 1).mp hsame).symm
    have htwin : (e.receive H C twin reads).forwarded = some twin.next :=
      forwarded_of_copy hforwarded rfl rfl hleft
    have hbytes : sent C reads (e.receive H C twin reads) =
        sent C reads (e.receive H C env reads) := by
      rw [sent, sent, htwin, hforwarded]
      rfl
    refine ⟨twin, twin.next, htwin, hother, List.cons_ne_self 0 _, fun pack hpack htwin' => ?_⟩
    rw [hbytes, hpack] at htwin'
    exact hother (congrArg GossipEnvelope.hop_count (Option.some.inj htwin')).symm
  · refine ⟨fun hsame => List.cons_ne_self 0 _ (congrArg GossipEnvelope.origin_id hsame), rfl⟩

/-! ## Samples -/

open RevocationCall renaming samplePeer → peerCrates

def samplePacked : PeerCrates :=
  { peerCrates with
    json_to_vec := fun value => ((value.get "agent_id").bind Json.as_str).getD []
    json_from_slice := fun agent_id => .ok (SignedRevocationRecord.body
      ⟨agent_id, [], ascii "retired", wall_0, [90], [], []⟩) }

def sampleSigned (agent_id : Text) : SignedRevocationRecord :=
  .signed sampleIdeal samplePacked.toFaitfCrates wall_0 agent_id (ascii "retired")
    ⟨[90], sampleKey 90, sampleKey 90⟩ []

def gossipReads (now : ℚ) : GossipReads where
  now
  order := .stored
  store_order := .stored
  store_now _ := now
  known_peers := [[80], [81], [82], [83]]
  choice := ⟨fun peers n => peers.take n, fun _ _ => (List.take_sublist _ _).subperm,
    fun _ _ => List.length_take⟩

def sampleEnvelope (agent_id : Text) (hop_count : UInt8) (id_of : Text) : GossipEnvelope :=
  ⟨sampleSigned agent_id, hop_count, [79],
    GossipEnvelope.derive_revocation_id sampleIdeal (sampleSigned id_of)⟩

def sampleGossip : GossipEngine := new .new sampleAnchors [78]

theorem revocation_forwarded_sample :
    ∃ chosen : List Text, chosen.Subperm [[80], [81], [82], [83]] ∧ chosen.length = 3 ∧
      sent samplePacked (gossipReads 1)
          (([GossipCall.receive (sampleEnvelope [66] 5 [66]) (gossipReads 0)].foldl
            (apply sampleIdeal samplePacked) sampleGossip).receive sampleIdeal samplePacked
              (sampleEnvelope [65] 0 [65]) (gossipReads 1)) =
        chosen.map fun peer_id => (peer_id, (sampleSigned [65]).to_wire samplePacked.toFaitfCrates)
    := by
  refine revocation_forwarded sampleIdeal samplePacked .new sampleAnchors [78]
    [.receive (sampleEnvelope [66] 5 [66]) (gossipReads 0)] (sampleEnvelope [65] 0 [65])
    (gossipReads 1) (sampleSigned [65]) (by decide) (by decide +kernel) ?_ ?_
  · have hsome : (store_record (gossipReads 1).store_order
        (gossipReads 1).store_now ([GossipCall.receive (sampleEnvelope [66] 5 [66])
          (gossipReads 0)].foldl (apply sampleIdeal samplePacked) sampleGossip).dri
            (sampleSigned [65])).isSome = true := by
      decide +kernel
    intro hnone
    rw [sampleGossip] at hsome
    rw [hnone] at hsome
    cases hsome
  · intro at_ hmem
    have hmarks : (new .new sampleAnchors [78]).all_marks sampleIdeal samplePacked
        [.receive (sampleEnvelope [66] 5 [66]) (gossipReads 0)] =
          [(GossipEnvelope.derive_revocation_id sampleIdeal (sampleSigned [66]), 0)] := by
      decide +kernel
    rw [hmarks, mem_singleton, Prod.mk.injEq] at hmem
    exact absurd hmem.1 (by decide +kernel)

/-- **Gossip can be suppressed**, by another signed record that was sent under the id of this one,
and by a copy of this one that was sent with no hops left: it is accepted and sent to nobody. -/
theorem gossip_suppressed :
    sampleSigned [66] ≠ sampleSigned [65] ∧ (gossipReads 1).known_peers ≠ [] ∧
      ∀ earlier ∈ [sampleEnvelope [66] 0 [65], sampleEnvelope [65] 5 [65]],
        let after := (sampleGossip.receive sampleIdeal samplePacked earlier (gossipReads 0)).engine
        let answer := after.receive sampleIdeal samplePacked (sampleEnvelope [65] 0 [65])
          (gossipReads 1)
        answer.accepted = true ∧ sent samplePacked (gossipReads 1) answer = [] := by
  decide +kernel

theorem forwarded_not_conveyed_sample : ∃ twin twin',
    (sampleGossip.receive sampleIdeal samplePacked twin (gossipReads 0)).forwarded = some twin' ∧
      twin'.hop_count ≠ 1 ∧ twin'.origin_id ≠ [79] := by
  obtain ⟨twin, twin', htwin, hhops, horigin, -⟩ :=
    (forwarded_not_conveyed sampleIdeal samplePacked sampleGossip (gossipReads 0)).1
      (sampleEnvelope [65] 0 [65]) (sampleEnvelope [65] 1 [65]) (by decide +kernel)
  exact ⟨twin, twin', htwin, hhops, horigin⟩

def sampleRebuild (env : GossipEnvelope) : Option GossipEnvelope :=
  match SignedRevocationRecord.from_wire samplePacked
    (env.record.to_wire samplePacked.toFaitfCrates) with
  | .ok record => some ⟨record, 0, [79], GossipEnvelope.derive_revocation_id sampleIdeal record⟩
  | .error _ => none

theorem sampleRebuild_path (n : ℕ) :
    ForwardingPath sampleIdeal samplePacked sampleRebuild (sampleEnvelope [65] 1 [65]) n := by
  induction n with
  | zero => exact .outside _
  | succ n ih =>
    have hsame : sampleRebuild (sampleEnvelope [65] 1 [65]) =
        some (sampleEnvelope [65] 0 [65]) := by decide +kernel
    exact .receive sampleGossip (gossipReads 0) ih hsame (by decide +kernel)

/-- **The bytes do not say how far a record has come**: the same bytes are sent for envelopes with
another hop count, origin and id, and a peer that rebuilds an envelope from them forwards the
record for the seventh time as for the first. -/
theorem forwarding_unbounded :
    fanout samplePacked.toFaitfCrates (gossipReads 0) (sampleEnvelope [65] 1 [65]) =
        fanout samplePacked.toFaitfCrates (gossipReads 0) ⟨sampleSigned [65], 5, [77], [76]⟩ ∧
      (fanout samplePacked.toFaitfCrates (gossipReads 0) (sampleEnvelope [65] 1 [65])).length = 3 ∧
      ∃ env, ForwardingPath sampleIdeal samplePacked sampleRebuild env
        (GOSSIP_MAX_HOPS.toNat + 2) :=
  ⟨by decide +kernel, by decide +kernel, sampleEnvelope [65] 1 [65], sampleRebuild_path 7⟩

end GossipEngine

end Saacp
