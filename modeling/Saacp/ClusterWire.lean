/-
**Cluster messages on the wire**: what a node sends, and what a peer makes of it.

A message read back is the one that was sent, since no view grows past the number of updates that
is accepted. An empty id is the exception: it can be added to a view, and is refused on the wire.
-/
import Saacp.ClusterFence
import Saacp.Errors
import Saacp.RevocationStore

set_option autoImplicit false

open ByteCodec

namespace Saacp

open List Table

/-! ## The format -/

def NodeState.from_str (s : Text) : Option NodeState :=
  if s = ascii "alive" then some .Alive
  else if s = ascii "suspect" then some .Suspect
  else if s = ascii "dead" then some .Dead
  else if s = ascii "left" then some .Left
  else none

def ClusterMessageKind.from_str (s : Text) : Option ClusterMessageKind :=
  if s = ascii "heartbeat" then some .Heartbeat
  else if s = ascii "sync" then some .Sync
  else none

namespace ClusterMessage

def to_wire (C : FaitfCrates) (m : ClusterMessage) : List UInt8 :=
  let body := m.body_bytes C.toClusterCrates
  C.base64_encode (toBE 4 body.length ++ body ++ m.signature ++ m.sender_key_id)

def read_update (entry : Json) : Except String MemberUpdate :=
  let node_id := (entry.index "node_id").as_str.getD []
  if node_id = [] then .error "cluster message update has empty node_id"
  else
    match NodeState.from_str ((entry.index "state").as_str.getD []) with
    | none => .error "cluster message update has unknown state"
    | some state => .ok {
        node_id
        addr := (entry.index "addr").as_str.getD []
        incarnation := (entry.index "incarnation").as_u64.getD 0
        state }

def read_updates : Json → Except String (List MemberUpdate)
  | .arr entries =>
    if CLUSTER_MAX_MEMBERS < entries.length then
      .error "cluster message carries more updates than CLUSTER_MAX_MEMBERS"
    else entries.mapM read_update
  | _ => .ok []

/-- The fields of a parsed body; what is outside it is given. -/
def read_body (C : FaitfCrates) (parsed : Json) (signature : List UInt8) (sender_key_id : Text) :
    Except String ClusterMessage :=
  match ClusterMessageKind.from_str ((parsed.index "kind").as_str.getD []) with
  | none => .error "cluster message has unknown kind"
  | some kind =>
    let sender_id := (parsed.index "sender_id").as_str.getD []
    if sender_id = [] then .error "cluster message has empty sender_id"
    else (read_updates (parsed.index "updates")).map fun updates => {
      kind, sender_id, updates, signature, sender_key_id
      sender_incarnation := (parsed.index "sender_incarnation").as_u64.getD 0
      sequence := (parsed.index "sequence").as_u64.getD 0
      sent_at := ((parsed.index "sent_at").as_f64 C.f64_of_u64 C.f64_of_i64).getD
        ⟨0, F64.finite_zero⟩
      leader_epoch := (parsed.index "leader_epoch").as_u64.getD 0
      leader_id := (parsed.index "leader_id").as_str.getD []
      cluster_size := (parsed.index "cluster_size").as_u64.getD 0 }

def from_wire (C : PeerCrates) (wire : List UInt8) : Except String ClusterMessage :=
  match C.base64_decode wire with
  | .error e => .error s!"cluster message base64 decode failed: {e}"
  | .ok raw =>
    if raw.length < 4 then .error "cluster message truncated (no length prefix)"
    else
      let body_len := ofBE (raw.take 4)
      if body_len = 0 then .error "cluster message has empty body"
      -- the sum cannot overflow on a 64-bit machine
      else if raw.length < 4 + body_len + 64 then
        .error "cluster message truncated (body/signature)"
      else
        match C.json_from_slice (slice raw 4 (4 + body_len)) with
        | .error e => .error s!"cluster message body is not valid JSON: {e}"
        | .ok parsed => read_body C.toFaitfCrates parsed
            (slice raw (4 + body_len) (4 + body_len + 64))
            (C.from_utf8_lossy (raw.drop (4 + body_len + 64)))

/-! ## Reading back -/

theorem read_updates_map {us : List MemberUpdate} (hids : ∀ u ∈ us, u.node_id ≠ [])
    (hlen : us.length ≤ CLUSTER_MAX_MEMBERS) :
    read_updates (.arr (us.map fun u => .obj [("addr", .str u.addr),
      ("incarnation", .pos_int u.incarnation), ("node_id", .str u.node_id),
      ("state", .str u.state.as_str)])) = .ok us := by
  rw [read_updates, if_neg (by rw [length_map]; omega)]
  clear hlen
  induction us with
  | nil => rfl
  | cons u us ih =>
    obtain ⟨node_id, addr, incarnation, state⟩ := u
    have hid : node_id ≠ [] := hids _ mem_cons_self
    have hread : read_update (.obj [("addr", .str addr), ("incarnation", .pos_int incarnation),
        ("node_id", .str node_id), ("state", .str state.as_str)]) =
          .ok ⟨node_id, addr, incarnation, state⟩ := by
      refine (if_neg hid).trans ?_
      cases state <;> rfl
    rw [map_cons, mapM_cons, hread, ih fun u hu => hids u (mem_cons_of_mem _ hu)]
    rfl

theorem read_update_ok {entry : Json} {u : MemberUpdate} (h : read_update entry = .ok u) :
    u.node_id ≠ [] := by
  dsimp only [read_update] at h
  split_ifs at h with hid
  split at h
  · cases h
  · cases h
    exact hid

theorem read_updates_ok {entries : Json} {us : List MemberUpdate}
    (h : read_updates entries = .ok us) : ∀ u ∈ us, u.node_id ≠ [] := by
  unfold read_updates at h
  split at h
  · rename_i entries
    split_ifs at h
    clear * - h
    induction entries generalizing us with
    | nil =>
      cases h
      exact nofun
    | cons entry entries ih =>
      rw [mapM_cons] at h
      obtain ⟨u, hu, hrest⟩ := bind_eq_ok.mp h
      obtain ⟨us, hus, hall⟩ := bind_eq_ok.mp hrest
      cases hall
      exact forall_mem_cons.mpr ⟨read_update_ok hu, ih hus⟩
  · cases h
    exact nofun

theorem from_wire_ok {C : PeerCrates} {raw : List UInt8} {m : ClusterMessage} {wire : List UInt8}
    (hraw : C.base64_decode wire = .ok raw) (h : from_wire C wire = .ok m) :
    (∀ u ∈ m.updates, u.node_id ≠ []) ∧
      m.sender_key_id = C.from_utf8_lossy (raw.drop (4 + ofBE (raw.take 4) + 64)) := by
  simp only [from_wire, hraw] at h
  split_ifs at h
  split at h
  · cases h
  dsimp only [read_body] at h
  split at h
  · cases h
  split_ifs at h
  cases hus : read_updates _ with
  | error e =>
    rw [hus] at h
    cases h
  | ok us =>
    rw [hus] at h
    cases h
    exact ⟨read_updates_ok hus, rfl⟩

theorem read_body_body {m : ClusterMessage} (hsender : m.sender_id ≠ [])
    (hids : ∀ u ∈ m.updates, u.node_id ≠ []) (hlen : m.updates.length ≤ CLUSTER_MAX_MEMBERS)
    (C : FaitfCrates) : read_body C m.body m.signature m.sender_key_id = .ok m := by
  have hkind : ClusterMessageKind.from_str ((m.body.index "kind").as_str.getD []) =
      some m.kind := by
    show ClusterMessageKind.from_str m.kind.as_str = _
    cases m.kind <;> rfl
  have hupdates : read_updates (m.body.index "updates") = .ok m.updates :=
    read_updates_map hids hlen
  have hid : (m.body.index "sender_id").as_str.getD [] ≠ [] := hsender
  simp only [read_body, hkind, hupdates, if_neg hid]
  rfl

end ClusterMessage

/-! ## What a node sends -/

namespace ClusterEngine

theorem len_run (setup : ClusterSetup) (addr : Text) (now : ℚ) (H : Hashes) (C : ClusterCrates)
    (calls : ClusterCalls) :
    ((new setup addr now).run H C calls).members.len ≤ CLUSTER_MAX_MEMBERS :=
  (kept_run setup addr now H C calls).2.len

/-- **The table of members** stays within its bound and keeps the node itself, whatever messages
are received. -/
theorem members_bounded (setup : ClusterSetup) (addr : Text) (now : ℚ) (H : Hashes)
    (C : ClusterCrates) (calls : ClusterCalls) :
    let e := (new setup addr now).run H C calls
    e.members.len ≤ CLUSTER_MAX_MEMBERS ∧ e.node_id = setup.node_id ∧
      ∃ me, e.members.get setup.node_id = some me ∧ me.node_id = setup.node_id := by
  obtain ⟨hid, hkept⟩ := kept_run setup addr now H C calls
  exact ⟨hkept.len, hid, hkept.own⟩

/-- **When a message is read as it was sent**: if no member has an empty id and its body is
shorter than four gigabytes. The reader takes the bytes beyond its count for a part of the key
id. -/
theorem wire_round_trip (H : Hashes) (C : PeerCrates) (setup : ClusterSetup) (addr : Text)
    (start : ℚ) (calls : ClusterCalls) (kind : ClusterMessageKind)
    (wall : F64) (m : ClusterMessage)
    (hm : m = (((new setup addr start).run H C.toClusterCrates calls).build_message H
      C.toClusterCrates kind wall).2)
    (hbase64 : ∀ bytes, C.base64_decode (C.base64_encode bytes) = .ok bytes)
    (hjson : C.json_from_slice (m.body_bytes C.toClusterCrates) = .ok m.body)
    (hutf8 : C.from_utf8_lossy m.sender_key_id = m.sender_key_id)
    (hlossy : ∀ bytes, bytes.length ≤ (C.from_utf8_lossy bytes).length)
    (hsigned : m.signature.length = 64) (hbody : m.body_bytes C.toClusterCrates ≠ []) :
    ClusterMessage.from_wire C (m.to_wire C.toFaitfCrates) = .ok m ↔
      (∀ u ∈ m.updates, u.node_id ≠ []) ∧
        (m.body_bytes C.toClusterCrates).length < 2 ^ 32 := by
  constructor
  · intro h
    obtain ⟨hids, hkey⟩ := ClusterMessage.from_wire_ok (hbase64 _) h
    refine ⟨hids, ?_⟩
    -- what the count leaves is no longer than the key id that was read
    have hrest := (hlossy _).trans_eq (congrArg length hkey).symm
    rw [append_assoc, append_assoc, take_left' (length_toBE 4 _), ofBE_toBE] at hrest
    simp only [length_drop, length_append, length_toBE, hsigned] at hrest
    have := Nat.mod_lt (m.body_bytes C.toClusterCrates).length (show 0 < 256 ^ 4 by decide)
    omega
  rintro ⟨hids, hlen⟩
  obtain ⟨hnode, me, hme, hown⟩ := own_run setup addr start H C.toClusterCrates calls
  have hmembers := len_run setup addr start H C.toClusterCrates calls
  generalize (new setup addr start).run H C.toClusterCrates calls = e at hm hnode hme hmembers
  have hupdates : m.updates.length ≤ CLUSTER_MAX_MEMBERS := by
    rw [hm]
    exact (length_map _).trans_le ((length_map _).trans_le hmembers)
  -- the sender is one of the members it tells about
  have hsender : m.sender_id ≠ [] := by
    have hsent : m.sender_id = setup.node_id := by rw [hm]; exact hnode
    rw [hsent, ← hown]
    refine hids ⟨me.node_id, me.addr, me.incarnation, me.state⟩ ?_
    rw [hm]
    exact mem_map.mpr ⟨_, mem_entries.mpr hme, rfl⟩
  have hread := ClusterMessage.read_body_body hsender hids hupdates C.toFaitfCrates
  rw [ClusterMessage.from_wire, ClusterMessage.to_wire, hbase64]
  generalize m.body_bytes C.toClusterCrates = body at hjson hbody hlen
  obtain ⟨hcount, hraw, htext, hsignature, hid⟩ :=
    framed_parts (w := 4) hlen m.signature m.sender_key_id
  rw [hsigned] at hraw hsignature hid
  simp only [hcount, hraw, htext, hsignature, hid, hjson, hutf8]
  rw [if_neg (by omega), if_neg (length_eq_zero_iff.not.mpr hbody), if_neg (by omega)]
  exact hread

def sampleSent (C : ClusterCrates) (peer : Text) : ClusterMessage :=
  (((sampleEngine 65).run sampleHashes C [(.add_peer peer [], ⟨0, wall_0, true⟩)]).build_message
    sampleHashes C .Heartbeat wall_0).2

theorem sampleSent_body (C : ClusterCrates) (peer : Text) :
    (sampleSent C peer).body = (sampleSent sampleClusterCrates peer).body := rfl

def sampleWire (peer : Text) : PeerCrates :=
  { RevocationCall.samplePeer with
    json_to_vec := Json.compact fun _ => ascii "0.0"
    json_from_slice := fun text =>
      let body := (sampleSent sampleClusterCrates peer).body
      if body.compact (fun _ => ascii "0.0") = text then .ok body else .error "" }

theorem sampleWire_parses (peer : Text) :
    let m := sampleSent (sampleWire peer).toClusterCrates peer
    (sampleWire peer).json_from_slice (m.body_bytes (sampleWire peer).toClusterCrates) =
      .ok m.body := by
  intro m
  have hbody : m.body = (sampleSent sampleClusterCrates peer).body := sampleSent_body _ peer
  rw [hbody]
  exact if_pos (congrArg (Json.compact _) hbody.symm)

theorem wire_round_trip_sample : let m := sampleSent (sampleWire [66]).toClusterCrates [66]
    ClusterMessage.from_wire (sampleWire [66]) (m.to_wire (sampleWire [66]).toFaitfCrates) =
      .ok m :=
  (wire_round_trip sampleHashes (sampleWire [66]) (sampleSetup 65) [] 0 _ .Heartbeat wall_0 _ rfl
    (fun _ => rfl) (sampleWire_parses [66]) rfl (fun _ => le_rfl) rfl (by decide +kernel)).mpr
    ⟨by decide +kernel, by decide +kernel⟩

theorem nameless_peer_refused : let m := sampleSent (sampleWire []).toClusterCrates []
    m.signature.length = 64 ∧
      (sampleWire []).json_from_slice (m.body_bytes (sampleWire []).toClusterCrates) =
        .ok m.body ∧
      ClusterMessage.from_wire (sampleWire []) (m.to_wire (sampleWire []).toFaitfCrates) =
        .error "cluster message update has empty node_id" :=
  ⟨by decide +kernel, sampleWire_parses [], by decide +kernel⟩

end ClusterEngine

end Saacp
