/-
**What one cluster engine accepts**, over every sequence of its calls: under whose key, who counts
for quorum, and how often.

The results share how a call is taken apart: `receive_message_cases` says what an accepted message
has passed, `installed` what an election leaves.
-/
import Saacp.Cluster
import Mathlib.Data.List.Nodup
import Mathlib.Order.Basic
import Mathlib.Tactic.Linarith

set_option autoImplicit false

open ByteCodec

namespace Saacp

open List Option Table MemberRecord

variable {H : Hashes} {C : ClusterCrates} {e : ClusterEngine}

namespace ClusterEngine

variable {msg : ClusterMessage} {inp : ClusterInput}

/-! ## Taking a call apart -/

structure Checked (C : ClusterCrates) (e : ClusterEngine) (msg : ClusterMessage) (now : ℚ) :
    Prop where
  other : msg.sender_id ≠ e.node_id
  sender : msg.sender_id ∈ e.peers
  signed : ∃ key, e.trust_store.get_key_by_fingerprint msg.sender_key_id = some key ∧
    verify_data C key (msg.body_bytes C) msg.signature = true
  size : msg.cluster_size = e.config.expected_cluster_size
  fresh : now - msg.sent_at.toRat ≤ as_secs_f64 e.config.message_max_age
  not_ahead : -CLUSTER_MAX_CLOCK_SKEW ≤ now - msg.sent_at.toRat

theorem check_message_ok {now : ℚ} (h : e.check_message C msg now = .ok ()) :
    Checked C e msg now := by
  unfold check_message at h
  by_cases hself : msg.sender_id = e.node_id
  · rw [if_pos hself] at h
    cases h
  rw [if_neg hself] at h
  by_cases hpeer : msg.sender_id ∉ e.peers
  · rw [if_pos hpeer] at h
    cases h
  rw [if_neg hpeer] at h
  cases hkey : e.trust_store.get_key_by_fingerprint msg.sender_key_id with
  | none =>
    rw [hkey] at h
    cases h
  | some key =>
    rw [hkey] at h
    dsimp only at h
    split_ifs at h with hsig hsize hstale
    exact ⟨hself, not_not.mp hpeer, ⟨key, hkey, Bool.eq_true_of_not_eq_false hsig⟩,
      not_not.mp hsize, not_lt.mp fun hlt => hstale (.inl hlt),
      not_lt.mp fun hlt => hstale (.inr hlt)⟩

theorem receive_message_cases (H : Hashes) (C : ClusterCrates) (e : ClusterEngine)
    (msg : ClusterMessage) (inp : ClusterInput) :
    (∃ r, e.receive_message H C msg inp = (⟨e, [], none⟩, .error r)) ∨
      ∃ marked, Checked C e msg inp.now ∧ e.mark_replay msg = .ok marked ∧
        e.receive_message H C msg inp = (marked.accept_message H C msg inp, .ok ()) := by
  unfold receive_message
  cases hcheck : e.check_message C msg inp.now with
  | error r => exact .inl ⟨r, rfl⟩
  | ok _ =>
    cases hmark : e.mark_replay msg with
    | error r => exact .inl ⟨r, rfl⟩
    | ok marked => exact .inr ⟨marked, check_message_ok hcheck, rfl, rfl⟩

theorem mark_replay_ok {marked : ClusterEngine} (h : e.mark_replay msg = .ok marked) :
    marked = { e with
      replay_high_water :=
        e.replay_high_water.insert msg.sender_id (msg.sender_incarnation, msg.sequence) } ∧
    ∀ prev, e.replay_high_water.get msg.sender_id = some prev →
      newer (msg.sender_incarnation, msg.sequence) prev = true := by
  unfold mark_replay at h
  cases hprev : e.replay_high_water.get msg.sender_id with
  | none =>
    rw [hprev] at h
    dsimp only at h
    split_ifs at h
    exact ⟨(Except.ok.inj h).symm, nofun⟩
  | some prev =>
    rw [hprev] at h
    dsimp only at h
    split_ifs at h with hnewer
    refine ⟨(Except.ok.inj h).symm, ?_⟩
    rintro prev' ⟨⟩
    exact hnewer

structure Installed (e e' : ClusterEngine) (candidate : Option Text) : Prop where
  leader : e'.leader = candidate
  members : e'.members = e.members
  replay_high_water : e'.replay_high_water = e.replay_high_water
  setup : e'.toClusterSetup = e.toClusterSetup

theorem installed (e : ClusterEngine) (candidate : Option Text) :
    Installed e (e.install candidate).1 candidate := by
  unfold install swap_leader bump_epoch
  by_cases hsame : e.leader = candidate
  · rw [if_pos hsame]
    exact ⟨hsame, rfl, rfl, rfl⟩
  · rw [if_neg hsame]
    exact ⟨rfl, rfl, rfl, rfl⟩

theorem apply_and_refute_frame (H : Hashes) (C : ClusterCrates) (e : ClusterEngine)
    (msg : ClusterMessage) (inp : ClusterInput) :
    (e.apply_and_refute H C msg inp).1.replay_high_water = e.replay_high_water ∧
      (e.apply_and_refute H C msg inp).1.toClusterSetup = e.toClusterSetup := by
  unfold apply_and_refute
  split
  · exact ⟨rfl, rfl⟩
  · exact ⟨rfl, rfl⟩

theorem le_absorb_epoch (e : ClusterEngine) (seen : UInt64) :
    e.leader_epoch ≤ (e.absorb_epoch seen).leader_epoch := by
  show e.leader_epoch ≤ if e.leader_epoch ≤ seen then seen else e.leader_epoch
  split
  · assumption
  · exact UInt64.le_refl _

/-! ## The key behind a message -/

/-- **Messages and their senders.** For a scheme in which no signature verifies under two keys: an
accepted message verifies under the key pinned for its sender if and only if that is the key the
store has under the fingerprint the message gives. -/
theorem message_bound_iff_key_pinned (H : Hashes)
    (hexclusive : ∀ key key' body signature, C.ed25519_verify key body signature = true →
      C.ed25519_verify key' body signature = true → key = key') (e : ClusterEngine)
    (msg : ClusterMessage) (inp : ClusterInput) (hok : (e.receive_message H C msg inp).2 = .ok ()) :
    (∃ key, e.trust_store.get_pinned_key msg.sender_id = some key ∧
        verify_data C key (msg.body_bytes C) msg.signature = true) ↔
      e.trust_store.get_pinned_key msg.sender_id =
        e.trust_store.get_key_by_fingerprint msg.sender_key_id := by
  obtain ⟨r, hr⟩ | ⟨marked, hchecked, -, -⟩ := receive_message_cases H C e msg inp
  · rw [hr] at hok
    cases hok
  obtain ⟨key, hkey, hverify⟩ := hchecked.signed
  constructor
  · rintro ⟨pinned, hpinned, hverify'⟩
    unfold verify_data at hverify hverify'
    rw [Bool.and_eq_true] at hverify hverify'
    rw [hpinned, hkey, hexclusive pinned key _ _ hverify'.2 hverify.2]
  · intro hsame
    exact ⟨key, hsame.trans hkey, hverify⟩

theorem sampleClusterCrates_exclusive (key key' body sig : List UInt8)
    (h : sampleClusterCrates.ed25519_verify key body sig = true)
    (h' : sampleClusterCrates.ed25519_verify key' body sig = true) : key = key' := by
  have heq : key ++ key = key' ++ key' :=
    (of_decide_eq_true h).symm.trans (of_decide_eq_true h')
  have hlen : key.length = key'.length := by
    have := congrArg List.length heq
    rw [length_append, length_append] at this
    omega
  exact (append_inj heq hlen).1

theorem heartbeat_bound : ∃ key, sampleTrust.get_pinned_key [66] = some key ∧
      verify_data sampleClusterCrates key (sampleHeartbeat.body_bytes sampleClusterCrates)
        sampleHeartbeat.signature = true :=
  (message_bound_iff_key_pinned sampleHashes sampleClusterCrates_exclusive (sampleEngine 65)
    sampleHeartbeat ⟨0, wall_0, true⟩ (by decide +kernel)).mpr (by decide +kernel)

/-- A message that `B` signs in the name of `C`. -/
def forged : ClusterMessage where
  kind := .Heartbeat
  sender_id := [67]
  sender_incarnation := 1
  sequence := 1
  sent_at := wall_0
  leader_epoch := 0
  leader_id := []
  cluster_size := 3
  updates := []
  signature := sampleKey 66 ++ sampleKey 66
  sender_key_id := pub_key_fingerprint sampleHashes (sampleKey 66)

theorem forged_accepted : ((sampleEngine 65).receive_message sampleHashes sampleClusterCrates forged
      ⟨0, wall_0, true⟩).2 = .ok () ∧
    (sampleEngine 65).trust_store.get_pinned_key forged.sender_id = some (sampleKey 67) ∧
    verify_data sampleClusterCrates (sampleKey 67) (forged.body_bytes sampleClusterCrates)
      forged.signature = false := by
  decide +kernel

end ClusterEngine

/-! ## Runs -/

inductive ClusterCall where
  | add_peer (node_id addr : Text)
  | tick
  | receive_message (msg : ClusterMessage)
  | leave
  | sweep_expired

/-- Calls, each with the clocks it reads and what its environment answers. -/
abbrev ClusterCalls := List (ClusterCall × ClusterInput)

namespace ClusterEngine

def call (H : Hashes) (C : ClusterCrates) (e : ClusterEngine) (inp : ClusterInput) :
    ClusterCall → ClusterEngine
  | .add_peer node_id addr => e.add_peer node_id addr inp.now
  | .tick => (e.tick H C inp).1.engine
  | .receive_message msg => (e.receive_message H C msg inp).1.engine
  | .leave => (e.leave H C inp).engine
  | .sweep_expired => (e.sweep_expired inp.now).1

def run (H : Hashes) (C : ClusterCrates) (e : ClusterEngine) (calls : ClusterCalls) :
    ClusterEngine :=
  calls.foldl (fun e c => e.call H C c.2 c.1) e

end ClusterEngine

/-! ## Who counts for quorum -/

def ClusterSetup.Roster (s : ClusterSetup) (id : Text) : Prop := id ∈ s.peers ∨ id = s.node_id

/-- Records are under their own id, and only nodes with `R` are alive. -/
structure Sane (R : Text → Prop) (members : Members) : Prop where
  keyed : ∀ id m, members.get id = some m → m.node_id = id
  known : ∀ id m, members.get id = some m → m.state = .Alive → R id

namespace Sane

variable {R : Text → Prop} {members : Members}

variable (h : Sane R members)
include h

theorem of_le {members' : Members} (hle : members' ≤ members) : Sane R members' :=
  ⟨fun id m hm => h.keyed id m (hle id m hm), fun id m hm => h.known id m (hle id m hm)⟩

theorem insert {m : MemberRecord} (hR : m.state = .Alive → R m.node_id) :
    Sane R (members.insert m.node_id m) :=
  ⟨forall_insert h.keyed rfl, forall_insert h.known hR⟩

theorem modify {k : Text} {f : MemberRecord → MemberRecord} (hid : ∀ m, (f m).node_id = m.node_id)
    (halive : ∀ m, members.get k = some m → (f m).state = .Alive → m.state = .Alive ∨ R k) :
    Sane R (members.modify k f) := by
  refine ⟨forall_modify h.keyed fun m hm => ?_, forall_modify h.known fun m hm hstate => ?_⟩
  · exact (hid m).trans (h.keyed k m hm)
  · exact (halive m hm hstate).elim (h.known k m hm) id

theorem mapValues {f : MemberRecord → MemberRecord} (hid : ∀ m, (f m).node_id = m.node_id)
    (halive : ∀ m, (f m).state = .Alive → m.state = .Alive) : Sane R (members.mapValues f) := by
  constructor
  all_goals
    intro id m' hm'
    rw [get_mapValues] at hm'
    obtain ⟨m, hm, rfl⟩ := map_eq_some_iff.mp hm'
  · rw [hid]
    exact h.keyed id m hm
  · intro hstate
    exact h.known id m hm (halive m hstate)

end Sane

section Merge

variable (existing : MemberRecord) (update : MemberUpdate) (now : ℚ)

theorem absorb_node_id : (existing.absorb update now).node_id = existing.node_id := by
  unfold absorb
  split <;> rfl

theorem absorb_alive (h : (existing.absorb update now).state = .Alive) :
    existing.state = .Alive ∨ update.state = .Alive := by
  unfold absorb at h
  split at h
  · exact .inr h
  · exact .inl h

theorem merge_node_id (authoritative : Bool) :
    (existing.merge update now authoritative).node_id = existing.node_id := by
  unfold MemberRecord.merge MemberRecord.refresh
  split_ifs
  · rfl
  · exact absorb_node_id existing update now
  · exact absorb_node_id existing update now
  · exact absorb_node_id existing update now

end Merge

theorem merge_one_sane {R : Text → Prop} {members : Members} {update : MemberUpdate}
    (h : Sane R members) (hR : update.state = .Alive → R update.node_id) (now : ℚ)
    (authoritative : Bool) : Sane R (merge_one members update now authoritative) := by
  unfold merge_one
  split
  · apply h.modify
    · intro m
      exact merge_node_id m update now authoritative
    · intro m _ hstate
      unfold MemberRecord.merge MemberRecord.refresh at hstate
      split_ifs at hstate with hleft hauth hrefreshed
      · exact .inl hstate
      · exact .inr (hR hrefreshed.2)
      all_goals exact (absorb_alive m update now hstate).imp_right hR
  · split
    · exact h
    · exact h.insert (m := ⟨update.node_id, update.addr, update.incarnation, update.state, now,
        now⟩) hR

theorem merge_all_sane {R : Text → Prop} {members : Members} {us : List MemberUpdate}
    (h : Sane R members) (hR : ∀ u ∈ us, u.state = .Alive → R u.node_id) (now : ℚ) :
    Sane R (us.foldl (fun members u => merge_one members u now false) members) := by
  exact foldlRecOn us _ h fun _ hs u hu => merge_one_sane hs (hR u hu) now false

namespace ClusterEngine

def Elected (e : ClusterEngine) : Prop :=
  ∀ l, e.leader = some l → e.has_quorum = true ∧ e.state_of l = some .Alive

/-! ### The election -/

theorem length_alive (e : ClusterEngine) : e.alive.length = e.alive_count := by
  unfold alive alive_count Table.count Table.entries
  rw [length_map, ← countP_eq_length_filter, countP_map]
  rfl

variable {R : Text → Prop} {s : ClusterSetup}

theorem mem_alive (h : Sane R e.members) {id : Text} (hid : id ∈ e.alive) :
    e.state_of id = some .Alive ∧ R id := by
  obtain ⟨⟨k, m⟩, hmem, rfl⟩ := mem_map.mp hid
  obtain ⟨hentry, halive⟩ := mem_filter.mp hmem
  have hget := mem_entries.mp hentry
  have hstate : m.state = .Alive := of_decide_eq_true halive
  obtain rfl : m.node_id = k := h.keyed k m hget
  exact ⟨by rw [state_of, hget, map_some, hstate], h.known _ m hget hstate⟩

theorem nodup_alive (h : Sane R e.members) : e.alive.Nodup := by
  have hkeys : e.alive = (e.members.entries.filter fun m => m.2.state.counts_for_quorum).map
      Prod.fst := by
    apply map_congr_left
    rintro ⟨k, m⟩ hmem
    exact h.keyed k m (mem_entries.mp (mem_filter.mp hmem).1)
  rw [hkeys]
  apply List.Nodup.sublist ((filter_sublist).map Prod.fst)
  have hentries : e.members.entries.map Prod.fst = e.members.alist.entries.keys := by
    simp only [Table.entries, List.map_map, List.keys]
    rfl
  rw [hentries]
  exact e.members.alist.nodupKeys

theorem min_by_key_mem {key : Text → Text} {ids : List Text} {id : Text}
    (h : min_by_key key ids = some id) : id ∈ ids := by
  match ids with
  | [] => cases h
  | first :: ids =>
    obtain rfl := Option.some.inj h
    -- the fold returns what it started from or one of the others
    refine foldlRecOn ids _ mem_cons_self fun best hbest next hnext => ?_
    split
    · exact mem_cons_of_mem first hnext
    · exact hbest

theorem leased_eq_some {c : Option Text} {lease : Bool} {l : Text}
    (h : e.leased c lease = some l) : c = some l := by
  unfold leased at h
  split at h
  · cases h
  · exact h

theorem recompute_leader_elected (h : Sane R e.members) (lease : Bool) :
    Elected (e.recompute_leader H lease).1 := by
  have hinst := installed e (e.leased (candidate H e.config e.alive) lease)
  intro l hl
  -- the lease can only take the winner away, never put another in its place
  have hcand : candidate H e.config e.alive = some l :=
    leased_eq_some (hinst.leader.symm.trans hl)
  unfold candidate at hcand
  split_ifs at hcand with hfew
  have hquorum := Nat.le_of_not_lt hfew
  have hmem := min_by_key_mem hcand
  obtain ⟨hstate, -⟩ := mem_alive h hmem
  unfold has_quorum alive_count state_of at *
  unfold recompute_leader
  rw [hinst.members, show (e.install _).1.config = e.config from
    congrArg ClusterSetup.config hinst.setup]
  refine ⟨decide_eq_true ?_, hstate⟩
  rwa [length_alive] at hquorum

/-! ### The calls -/

/-- **The invariant**: a sane view and a leader that follows from it. -/
structure Quorate (s : ClusterSetup) (e : ClusterEngine) : Prop where
  setup : e.toClusterSetup = s
  sane : Sane s.Roster e.members
  elected : e.Elected

theorem quorate_recompute (hsetup : e.toClusterSetup = s) (hsane : Sane s.Roster e.members)
    (lease : Bool) : Quorate s (e.recompute_leader H lease).1 := by
  have hinst := installed e (e.leased (candidate H e.config e.alive) lease)
  refine ⟨hinst.setup.trans hsetup, ?_, recompute_leader_elected hsane lease⟩
  unfold recompute_leader
  rw [hinst.members]
  exact hsane

theorem Quorate.of_members (h : Quorate s e) {members : Members} (hsane : Sane s.Roster members)
    (hcount : (members.count fun m => m.state.counts_for_quorum) = e.alive_count)
    (hstate : ∀ l, e.state_of l = some .Alive → (members.get l).map state =
      some .Alive) (marks : Table Text (UInt64 × UInt64)) :
    Quorate s { e with members := members, replay_high_water := marks } := by
  refine ⟨h.setup, hsane, ?_⟩
  intro l hl
  obtain ⟨hquorum, hl⟩ := h.elected l hl
  refine ⟨?_, hstate l hl⟩
  unfold has_quorum at hquorum ⊢
  unfold alive_count at hcount ⊢
  rw [hcount]
  exact hquorum

theorem add_peer_quorate (h : Quorate s e) (node_id addr : Text) (now : ℚ) :
    Quorate s (e.add_peer node_id addr now) := by
  unfold add_peer
  split
  · exact h
  rename_i hnew
  -- a seeded peer is suspect: no count changes, and no record but its own
  have hnone : e.members.get node_id = none := by
    have hc : ¬ e.members.contains node_id = true := fun hc => hnew (.inr (.inl hc))
    exact not_isSome_iff_eq_none.mp hc
  apply h.of_members (h.sane.insert (m := ⟨node_id, addr, 0, .Suspect, now, now⟩) nofun)
  · rw [Table.count_insert, Table.count_remove_of_none hnone]
    rfl
  · intro l hl
    rw [get_insert, if_neg]
    · exact hl
    · rintro rfl
      rw [state_of, hnone] at hl
      cases hl

theorem doomed_not_alive (h : Sane R e.members) {now : ℚ} {id : Text} (hid : id ∈ e.doomed now)
    {m : MemberRecord} (hm : e.members.get id = some m) : m.state ≠ .Alive := by
  obtain ⟨⟨k, m'⟩, hmem, rfl⟩ := mem_map.mp hid
  obtain ⟨hentry, hcond⟩ := mem_filter.mp hmem
  have hget := mem_entries.mp hentry
  obtain rfl : m'.node_id = k := h.keyed k m' hget
  obtain rfl : m = m' := Option.some.inj (hm.symm.trans hget)
  obtain ⟨-, hstate, -⟩ := of_decide_eq_true hcond
  rcases hstate with hstate | hstate
  · rw [hstate]
    exact nofun
  · rw [hstate]
    exact nofun

theorem sweep_expired_quorate (h : Quorate s e) (now : ℚ) : Quorate s (e.sweep_expired now).1 := by
  apply h.of_members (h.sane.of_le (removeAll_le _ _))
  · apply count_removeAll
    intro id hid m hm
    exact decide_eq_false (doomed_not_alive h.sane hid hm)
  · intro l hl
    obtain ⟨m, hm, hstate⟩ := map_eq_some_iff.mp hl
    rw [get_removeAll, if_neg, hm, map_some, hstate]
    intro hdoomed
    exact doomed_not_alive h.sane hdoomed hm hstate

theorem age_members_sane (h : Sane R e.members) (now : ℚ) : Sane R (e.age_members now).members := by
  apply h.mapValues
  · intro m
    unfold age_member
    split
    · rfl
    · split <;> first | rfl | (split <;> rfl)
  · -- ageing only takes members out of `Alive`
    intro m hstate
    unfold age_member at hstate
    split at hstate
    · exact hstate
    · split at hstate
      · assumption
      · split at hstate
        · cases hstate
        · exact hstate
      · exact hstate
      · exact hstate

theorem mark_left_sane (h : Sane R e.members) (now : ℚ) : Sane R (e.mark_left now).members := by
  apply h.modify
  · intro m
    rfl
  · exact fun m _ hstate => nomatch hstate

def names_roster (s : ClusterSetup) (msg : ClusterMessage) : Bool :=
  msg.updates.all fun u => u.state ≠ .Alive ∨ u.node_id ∈ s.peers ∨ u.node_id = s.node_id

theorem apply_message_sane {msg : ClusterMessage} (h : Sane s.Roster e.members)
    (hsender : s.Roster msg.sender_id) (hnames : names_roster s msg = true) (now : ℚ) :
    Sane s.Roster (e.apply_message msg now).members := by
  have hfirst : Sane s.Roster (merge_one e.members (sender_update msg) now true) :=
    merge_one_sane h (fun _ => hsender) now true
  apply merge_all_sane hfirst
  intro u hu halive
  have hall := all_eq_true.mp hnames u (mem_filter.mp hu).1
  rcases of_decide_eq_true hall with hne | hmem
  · exact absurd halive hne
  · exact hmem

theorem receive_message_quorate (h : Quorate s e) {msg : ClusterMessage}
    (hnames : names_roster s msg = true) (inp : ClusterInput) :
    Quorate s (e.receive_message H C msg inp).1.engine := by
  obtain ⟨r, hr⟩ | ⟨marked, hchecked, hmark, hr⟩ := receive_message_cases H C e msg inp
  · rw [hr]
    exact h
  rw [hr]
  obtain ⟨rfl, -⟩ := mark_replay_ok hmark
  have hsender : s.Roster msg.sender_id := .inl (h.setup ▸ hchecked.sender)
  unfold accept_message
  apply quorate_recompute
  · exact (apply_and_refute_frame H C _ msg inp).2.trans h.setup
  · unfold apply_and_refute
    split
    · apply (apply_message_sane h.sane hsender hnames inp.now).modify
      · intro m
        split <;> rfl
      · -- the one record it brings to life is this node's own
        exact fun m _ _ => .inr (.inr (congrArg ClusterSetup.node_id h.setup))
    · exact apply_message_sane h.sane hsender hnames inp.now

end ClusterEngine

def ClusterCall.names_roster (s : ClusterSetup) : ClusterCall → Bool
  | .receive_message msg => ClusterEngine.names_roster s msg
  | _ => true

namespace ClusterEngine

theorem call_quorate {s : ClusterSetup} (h : Quorate s e) {c : ClusterCall}
    (hc : c.names_roster s = true) (inp : ClusterInput) : Quorate s (e.call H C inp c) := by
  cases c with
  | add_peer node_id addr => exact add_peer_quorate h node_id addr inp.now
  | tick =>
    apply quorate_recompute
    · exact h.setup
    · exact age_members_sane h.sane inp.now
  | receive_message msg => exact receive_message_quorate h hc inp
  | leave =>
    apply quorate_recompute
    · exact h.setup
    · exact mark_left_sane h.sane inp.now
  | sweep_expired => exact sweep_expired_quorate h inp.now

theorem run_quorate {s : ClusterSetup} {calls : ClusterCalls} (h : Quorate s e)
    (hcalls : ∀ c ∈ calls, c.1.names_roster s = true) : Quorate s (e.run H C calls) := by
  exact foldlRecOn calls _ h fun _ he c hc => call_quorate he (hcalls c hc) c.2

theorem new_quorate (s : ClusterSetup) (addr : Text) (now : ℚ) : Quorate s (new s addr now) := by
  refine ⟨rfl, ?_, nofun⟩
  have hempty : Sane s.Roster .empty := ⟨nofun, nofun⟩
  exact hempty.insert (m := ⟨s.node_id, addr, as_u64 now, .Alive, now, now⟩) fun _ => .inr rfl

/-- **Quorum and roster**: in every run whose messages call only nodes of the roster alive, a
quorum, or a leader, means a majority of the intended size among the roster and this node, all
of them recorded alive, and the leader is one of them. -/
theorem quorum_of_roster (H : Hashes) (C : ClusterCrates) (s : ClusterSetup) (addr : Text)
    (started : ℚ) (calls : ClusterCalls)
    (hcalls : ∀ c ∈ calls, c.1.names_roster s = true) (e : ClusterEngine)
    (he : e = (new s addr started).run H C calls)
    (h : e.has_quorum = true ∨ e.leader.isSome = true) :
    ∃ ids : List Text, ids.Nodup ∧
      (∀ id ∈ ids, (id ∈ s.peers ∨ id = s.node_id) ∧ e.state_of id = some .Alive) ∧
      s.config.expected_cluster_size.toNat / 2 + 1 ≤ ids.length ∧
      ∀ l, e.leader = some l → l ∈ ids := by
  have hquorate : Quorate s e := he ▸ run_quorate (new_quorate s addr started) hcalls
  have hquorum : e.has_quorum = true := by
    rcases h with hquorum | hleader
    · exact hquorum
    · obtain ⟨l, hl⟩ := isSome_iff_exists.mp hleader
      exact (hquorate.elected l hl).1
  -- the majority is that of the members recorded alive
  refine ⟨e.alive, nodup_alive hquorate.sane, ?_, ?_, ?_⟩
  · intro id hid
    obtain ⟨hstate, hR⟩ := mem_alive hquorate.sane hid
    exact ⟨hR, hstate⟩
  · have hle : e.config.quorum ≤ e.alive_count := of_decide_eq_true hquorum
    rw [hquorate.setup] at hle
    rw [length_alive]
    exact hle
  · intro l hl
    obtain ⟨m, hm, hstate⟩ := Option.map_eq_some_iff.mp (hquorate.elected l hl).2
    apply List.mem_map.mpr
    refine ⟨(l, m), List.mem_filter.mpr ⟨Table.mem_entries.mpr hm, decide_eq_true hstate⟩, ?_⟩
    exact hquorate.sane.keyed l m hm

theorem quorum_of_heartbeat :
    let e := (sampleEngine 65).run sampleHashes sampleClusterCrates
      [(.receive_message sampleHeartbeat, ⟨0, wall_0, true⟩)]
    ∃ ids : List Text, ids.Nodup ∧
      (∀ id ∈ ids, (id ∈ (sampleSetup 65).peers ∨ id = [65]) ∧ e.state_of id = some .Alive) ∧
      2 ≤ ids.length ∧ ∀ l, e.leader = some l → l ∈ ids :=
  quorum_of_roster sampleHashes sampleClusterCrates (sampleSetup 65) [] 0
    [(.receive_message sampleHeartbeat, ⟨0, wall_0, true⟩)] (by decide +kernel) _ rfl
    (.inl (by decide +kernel))

def lonely : ClusterSetup :=
  { sampleSetup 65 with peers := [[66]], config := .new (ascii "test-cluster") 5 }

def fabricated : ClusterMessage :=
  { sampleHeartbeat with
    cluster_size := 5
    updates := [⟨[88], [], 1, .Alive⟩, ⟨[89], [], 1, .Alive⟩] }

/-- `A` has a quorum of three and a leader, and two nodes of its roster alive. -/
theorem quorum_of_fabricated :
    let e := (new lonely [] 0).run sampleHashes sampleClusterCrates
      [(.receive_message fabricated, ⟨0, wall_0, true⟩)]
    e.has_quorum = true ∧ e.leader = some [89] ∧ ¬ ∃ ids : List Text, ids.Nodup ∧
        (∀ id ∈ ids, (id ∈ lonely.peers ∨ id = lonely.node_id) ∧ e.state_of id = some .Alive) ∧
        lonely.config.expected_cluster_size.toNat / 2 + 1 ≤ ids.length := by
  refine ⟨by decide +kernel, by decide +kernel, ?_⟩
  rintro ⟨ids, hnodup, hids, hlen⟩
  -- the roster and the node itself are two ids
  have hsub : ids ⊆ [[66], [65]] := by
    intro id hid
    rcases (hids id hid).1 with hpeer | hself
    · exact mem_cons.mpr (.inl (mem_singleton.mp hpeer))
    · exact mem_cons_of_mem _ (mem_singleton.mpr hself)
  have hle : ids.length ≤ 2 := (subperm_of_subset hnodup hsub).length_le
  have hthree : lonely.config.expected_cluster_size.toNat / 2 + 1 = 3 := by decide
  omega

end ClusterEngine

/-! ## No message twice -/

/-- An engine, and the messages it has accepted so far. -/
structure ClusterHistory where
  engine : ClusterEngine
  accepted : List ClusterMessage

namespace ClusterHistory

variable (H C)

def accepts (e : ClusterEngine) (inp : ClusterInput) : ClusterCall → List ClusterMessage
  | .receive_message msg =>
    match (e.receive_message H C msg inp).2 with
    | .ok () => [msg]
    | .error _ => []
  | _ => []

def step (s : ClusterHistory) (c : ClusterCall × ClusterInput) : ClusterHistory :=
  ⟨s.engine.call H C c.2 c.1, s.accepted ++ accepts H C s.engine c.2 c.1⟩

def run (s : ClusterHistory) (calls : ClusterCalls) : ClusterHistory :=
  calls.foldl (step H C) s

/-- A sweep that drops the mark of a sender finds everything accepted from it too old. -/
def spent (s : ClusterHistory) (c : ClusterCall × ClusterInput) : Bool :=
  match c.1 with
  | .sweep_expired => s.accepted.all fun m =>
      m.sender_id ∉ s.engine.doomed c.2.now ∨
        as_secs_f64 s.engine.config.message_max_age < c.2.now - m.sent_at.toRat
  | _ => true

def all_spent (s : ClusterHistory) : ClusterCalls → Bool
  | [] => true
  | c :: calls => s.spent c && (s.step H C c).all_spent calls

end ClusterHistory

namespace ClusterEngine

theorem add_peer_frame (e : ClusterEngine) (node_id addr : Text) (now : ℚ) :
    (e.add_peer node_id addr now).replay_high_water = e.replay_high_water ∧
      (e.add_peer node_id addr now).toClusterSetup = e.toClusterSetup := by
  unfold add_peer
  split
  · exact ⟨rfl, rfl⟩
  · exact ⟨rfl, rfl⟩

theorem call_setup (H : Hashes) (C : ClusterCrates) (e : ClusterEngine) (inp : ClusterInput)
    (c : ClusterCall) : (e.call H C inp c).toClusterSetup = e.toClusterSetup := by
  cases c with
  | add_peer node_id addr => exact (add_peer_frame e node_id addr inp.now).2
  | tick | leave => exact (installed _ _).setup
  | receive_message msg =>
    obtain ⟨r, hr⟩ | ⟨marked, -, hmark, hr⟩ := receive_message_cases H C e msg inp
    · simp only [call, hr]
    · simp only [call, hr]
      obtain ⟨rfl, -⟩ := mark_replay_ok hmark
      exact (installed _ _).setup.trans (apply_and_refute_frame H C _ msg inp).2
  | sweep_expired => rfl

theorem not_newer_of_newer {p mark mark' : UInt64 × UInt64} (h : newer p mark = false)
    (h' : newer mark' mark = true) : newer p mark' = false := by
  unfold newer at *
  simp only [decide_eq_true_eq, decide_eq_false_iff_not, UInt64.lt_iff_toNat_lt,
    ← UInt64.toNat_inj] at *
  omega

theorem not_newer_self (p : UInt64 × UInt64) : newer p p = false := by
  unfold newer
  simp

end ClusterEngine

namespace ClusterHistory

open ClusterEngine

variable {config : ClusterConfig} {t : ℚ} {s : ClusterHistory}

/-- A message is too old from time `t` on, or below the mark of its sender. -/
def Barred (config : ClusterConfig) (t : ℚ) (e : ClusterEngine) (m : ClusterMessage) : Prop :=
  as_secs_f64 config.message_max_age < t - m.sent_at.toRat ∨
    ∃ mark, e.replay_high_water.get m.sender_id = some mark ∧
      newer (m.sender_incarnation, m.sequence) mark = false

/-- **The invariant**: nothing was accepted twice, and nothing accepted can be again. -/
structure Guarded (config : ClusterConfig) (t : ℚ) (s : ClusterHistory) : Prop where
  configured : s.engine.config = config
  nodup : s.accepted.Nodup
  barred : ∀ m ∈ s.accepted, Barred config t s.engine m

theorem Barred.mono {e : ClusterEngine} {m : ClusterMessage} {t' : ℚ}
    (h : Barred config t e m) (hle : t ≤ t') : Barred config t' e m := by
  rcases h with hold | hmark
  · exact .inl (by linarith)
  · exact .inr hmark

variable {inp : ClusterInput}

variable (h : Guarded config t s)
include h

theorem Guarded.of_marks {c : ClusterCall}
    (hle : t ≤ inp.now) (haccepts : accepts H C s.engine inp c = [])
    (hmarks : (s.engine.call H C inp c).replay_high_water = s.engine.replay_high_water) :
    Guarded config inp.now (s.step H C (c, inp)) := by
  unfold step
  rw [haccepts, append_nil]
  have hsetup := call_setup H C s.engine inp c
  refine ⟨(congrArg ClusterSetup.config hsetup).trans h.configured, h.nodup, ?_⟩
  intro m hm
  rcases (h.barred m hm).mono hle with hold | hmark
  · exact .inl hold
  · rw [← hmarks] at hmark
    exact .inr hmark

theorem guarded_receive (msg : ClusterMessage)
    (hle : t ≤ inp.now) : Guarded config inp.now (s.step H C (.receive_message msg, inp)) := by
  obtain ⟨r, hr⟩ | ⟨marked, hchecked, hmark, hr⟩ := receive_message_cases H C s.engine msg inp
  · apply h.of_marks hle
    · simp only [accepts, hr]
    · simp only [call, hr]
  obtain ⟨hmarked, hnew⟩ := mark_replay_ok hmark
  have haccepts : accepts H C s.engine inp (.receive_message msg) = [msg] := by
    simp only [accepts, hr]
  have hmarks : (s.engine.call H C inp (.receive_message msg)).replay_high_water =
      s.engine.replay_high_water.insert msg.sender_id (msg.sender_incarnation, msg.sequence) := by
    simp only [call, hr, hmarked]
    exact (installed _ _).replay_high_water.trans (apply_and_refute_frame H C _ msg inp).1
  have hsetup := call_setup H C s.engine inp (.receive_message msg)
  have hfresh := hchecked.fresh
  rw [h.configured] at hfresh
  unfold step
  rw [haccepts]
  refine ⟨(congrArg ClusterSetup.config hsetup).trans h.configured, ?_, ?_⟩
  · -- had it been accepted before, it would be too old or below the mark
    refine h.nodup.append (nodup_singleton msg) (disjoint_singleton.mpr ?_)
    intro hmem
    rcases (h.barred msg hmem).mono hle with hold | ⟨prev, hprev, hnot⟩
    · exact absurd hfresh (not_le.mpr hold)
    · rw [hnew prev hprev] at hnot
      cases hnot
  · -- the mark of its sender has moved up, the others stand where they stood
    intro m hm
    unfold Barred
    rw [hmarks]
    rcases mem_append.mp hm with hm | hm
    · rcases (h.barred m hm).mono hle with hold | ⟨prev, hprev, hnot⟩
      · exact .inl hold
      · right
        rw [get_insert]
        by_cases hid : m.sender_id = msg.sender_id
        · rw [hid] at hprev
          exact ⟨_, if_pos hid, not_newer_of_newer hnot (hnew prev hprev)⟩
        · exact ⟨prev, (if_neg hid).trans hprev, hnot⟩
    · rw [mem_singleton] at hm
      subst hm
      exact .inr ⟨_, get_insert_self _ _ _, not_newer_self _⟩

theorem guarded_sweep (hle : t ≤ inp.now) (hspent : s.spent (.sweep_expired, inp) = true) :
    Guarded config inp.now (s.step H C (.sweep_expired, inp)) := by
  unfold step
  rw [show accepts H C s.engine inp .sweep_expired = [] from rfl, append_nil]
  refine ⟨h.configured, h.nodup, ?_⟩
  intro m hm
  rcases (h.barred m hm).mono hle with hold | ⟨mark, hmark, hnot⟩
  · exact .inl hold
  have hone := of_decide_eq_true (all_eq_true.mp hspent m hm)
  rw [h.configured] at hone
  -- a mark that is dropped held back messages that are too old by now
  by_cases hdoomed : m.sender_id ∈ s.engine.doomed inp.now
  · exact .inl (hone.resolve_left fun hn => hn hdoomed)
  · right
    refine ⟨mark, ?_, hnot⟩
    show (s.engine.replay_high_water.removeAll (s.engine.doomed inp.now)).get m.sender_id = _
    rw [get_removeAll, if_neg hdoomed, hmark]

theorem step_guarded {c : ClusterCall × ClusterInput} (hle : t ≤ c.2.now)
    (hspent : s.spent c = true) : Guarded config c.2.now (s.step H C c) := by
  obtain ⟨c, inp⟩ := c
  cases c with
  | add_peer node_id addr =>
    exact h.of_marks hle rfl (add_peer_frame s.engine node_id addr inp.now).1
  | tick | leave => exact h.of_marks hle rfl (installed _ _).replay_high_water
  | receive_message msg => exact guarded_receive h msg hle
  | sweep_expired => exact guarded_sweep h hle hspent

theorem run_nodup {calls : ClusterCalls}
    (hclock : (t :: calls.map fun c => c.2.now).Pairwise (· ≤ ·))
    (hspent : s.all_spent H C calls = true) : (s.run H C calls).accepted.Nodup := by
  induction calls generalizing s t with
  | nil => exact h.nodup
  | cons c calls ih =>
    rw [map_cons, pairwise_cons] at hclock
    obtain ⟨hfirst, hrest⟩ := Bool.and_eq_true_iff.mp hspent
    exact ih (step_guarded h (hclock.1 _ mem_cons_self) hfirst) hclock.2 hrest

omit h

/-- **No message is accepted twice**, in every run with a clock that does not go back and whose
sweeps drop the mark of a sender only when everything accepted from it is too old. -/
theorem accepted_once (H : Hashes) (C : ClusterCrates) (setup : ClusterSetup) (addr : Text)
    (started : ℚ) (calls : ClusterCalls)
    (hclock : (calls.map fun c => c.2.now).Pairwise (· ≤ ·))
    (hspent : (ClusterHistory.mk (.new setup addr started) []).all_spent H C calls = true) :
    ((ClusterHistory.mk (.new setup addr started) []).run H C calls).accepted.Nodup := by
  cases calls with
  | nil => exact nodup_nil
  | cons c calls =>
    -- the first reading bounds the others from below
    have hstart : Guarded setup.config c.2.now ⟨.new setup addr started, []⟩ :=
      ⟨rfl, nodup_nil, fun _ => nofun⟩
    refine run_nodup hstart (pairwise_cons.mpr ⟨?_, hclock⟩) hspent
    exact forall_mem_cons.mpr ⟨le_refl _, (pairwise_cons.mp hclock).1⟩

theorem accepted_once_sample :
    ((ClusterHistory.mk (sampleEngine 65) []).run sampleHashes sampleClusterCrates
      [(.receive_message sampleHeartbeat, ⟨0, wall_0, true⟩),
        (.receive_message sampleHeartbeat, ⟨1, wall_0, true⟩),
        (.sweep_expired, ⟨60, wall_0, true⟩)]).accepted.Nodup :=
  accepted_once sampleHashes sampleClusterCrates (sampleSetup 65) [] 0 _ (by decide +kernel)
    (by decide +kernel)

def departing : ClusterOutcome :=
  (sampleEngine 66).leave sampleHashes sampleClusterCrates ⟨0, wall_0, true⟩

def departed : ClusterOutcome :=
  (departing.engine.tick sampleHashes sampleClusterCrates ⟨12, wall_12, true⟩).1

/-- The departure and the last heartbeat of `B` reach `A`. The departure is then old enough for
`A` to forget `B`, the heartbeat is not, and is accepted again. -/
theorem heartbeat_accepted_twice :
    ∃ departure heartbeat, departing.sent = [departure] ∧ departed.sent = [heartbeat] ∧
      ((ClusterHistory.mk (sampleEngine 65) []).run sampleHashes sampleClusterCrates
        [(.receive_message departure, ⟨0, wall_0, true⟩),
          (.receive_message heartbeat, ⟨12, wall_12, true⟩),
          (.sweep_expired, ⟨16, wall_12, true⟩),
          (.receive_message heartbeat, ⟨17, wall_12, true⟩)]).accepted =
        [departure, heartbeat, heartbeat] := by
  refine ⟨_, _, rfl, rfl, ?_⟩
  decide +kernel

end ClusterHistory

end Saacp
