/-
**Counters of the cluster engine**, over every sequence of its calls: the fencing epoch, and the
incarnation by which a node refutes a suspicion; and what keeps two clusters apart.

`fetch_add` wraps where the sum after it panics, and an accepted message can raise the epoch up to
its limit. A refutation is one
above the node's own incarnation, whatever the suspicion says. The name of a cluster is in no
message.
-/
import Saacp.ClusterMerge
import Saacp.ClusterRuns

set_option autoImplicit false

open ByteCodec

namespace Saacp

open Table List

namespace ClusterEngine

variable {H : Hashes} {C : ClusterCrates} {e : ClusterEngine} {msg : ClusterMessage}
  {inp : ClusterInput}

/-! ## The fencing epoch -/

section Epoch

variable (H C)

def changed (e : ClusterEngine) (inp : ClusterInput) : ClusterCall → Option LeadershipChange
  | .tick => (e.tick H C inp).1.change
  | .receive_message msg => (e.receive_message H C msg inp).1.change
  | .leave => (e.leave H C inp).change
  | _ => none

def changes (e : ClusterEngine) : ClusterCalls → List LeadershipChange
  | [] => []
  | c :: calls => (e.changed H C c.2 c.1).toList ++ (e.call H C c.2 c.1).changes calls

/-- The epoch that the election in a call finds; an accepted message has been absorbed. -/
def found_epoch (e : ClusterEngine) (inp : ClusterInput) : ClusterCall → UInt64
  | .receive_message msg =>
    match (e.receive_message H C msg inp).2 with
    | .ok () => max e.leader_epoch msg.leader_epoch
    | .error _ => e.leader_epoch
  | _ => e.leader_epoch

/-- What `leader_epoch()` can read during each call and after it. -/
def epochs (e : ClusterEngine) : ClusterCalls → List UInt64
  | [] => []
  | c :: calls => e.found_epoch H C c.2 c.1 :: (e.call H C c.2 c.1).leader_epoch ::
      (e.call H C c.2 c.1).epochs calls

/-- No call bumps the counter when it is at its maximum. -/
def InRange (e : ClusterEngine) : ClusterCalls → Prop
  | [] => True
  | c :: calls => (e.found_epoch H C c.2 c.1 + 1 = 0 → (e.call H C c.2 c.1).leader = e.leader) ∧
      (e.call H C c.2 c.1).InRange calls

end Epoch

theorem lt_succ_of_ne {x : UInt64} (h : x + 1 ≠ 0) : x < x + 1 := by
  apply UInt64.lt_add_one
  rintro rfl
  exact h rfl

/-- What an election does to the epoch `found`: nothing, or the leader is another one and the epoch
is bumped, with a change if the counter has not wrapped. -/
def Bumps (found : UInt64) (leader : Option Text) (e' : ClusterEngine)
    (change : Option LeadershipChange) : Prop :=
  e'.leader = leader ∧ e'.leader_epoch = found ∧ change = none ∨
    e'.leader ≠ leader ∧ e'.leader_epoch = found + 1 ∧ (found + 1 = 0 → change = none) ∧
      ∀ c, change = some c → c.epoch = found + 1

theorem bumps_install (e : ClusterEngine) (candidate : Option Text) :
    Bumps e.leader_epoch e.leader (e.install candidate).1 (e.install candidate).2 := by
  unfold install swap_leader
  by_cases hsame : e.leader = candidate
  · rw [if_pos hsame]
    exact .inl ⟨rfl, rfl, rfl⟩
  · rw [if_neg hsame]
    refine .inr ⟨fun h => hsame h.symm, rfl, fun hzero => if_pos hzero, fun c hc => ?_⟩
    obtain ⟨-, ⟨⟩⟩ := Option.ite_none_left_eq_some.mp hc
    rfl

theorem receive_message_applied (H : Hashes) (C : ClusterCrates) (e : ClusterEngine)
    (msg : ClusterMessage) (inp : ClusterInput) :
    (∃ r, e.receive_message H C msg inp = (⟨e, [], none⟩, .error r)) ∨
      ∃ marked marks, marked = { e with replay_high_water := marks } ∧
        msg.sender_id ≠ e.node_id ∧
        e.receive_message H C msg inp = (marked.accept_message H C msg inp, .ok ()) := by
  obtain hrefused | ⟨marked, -, hmark, hr⟩ := receive_message_cases H C e msg inp
  · exact .inl hrefused
  refine .inr ⟨marked, _, (mark_replay_ok hmark).1, ?_, hr⟩
  intro hself
  rw [receive_message, check_message, if_pos hself] at hr
  cases congrArg Prod.snd hr

theorem bumps_call (H : Hashes) (C : ClusterCrates) (e : ClusterEngine) (inp : ClusterInput)
    (c : ClusterCall) : e.leader_epoch ≤ e.found_epoch H C inp c ∧
      Bumps (e.found_epoch H C inp c) e.leader (e.call H C inp c) (e.changed H C inp c) := by
  cases c with
  | add_peer node_id addr =>
    refine ⟨UInt64.le_refl _, .inl ?_⟩
    simp only [call, add_peer]
    split <;> exact ⟨rfl, rfl, rfl⟩
  | tick | leave => exact ⟨UInt64.le_refl _, bumps_install _ _⟩
  | receive_message msg =>
    simp only [call, changed, found_epoch]
    obtain ⟨r, hr⟩ | ⟨marked, marks, hmarked, -, hr⟩ := receive_message_applied H C e msg inp
    · rw [hr]
      exact ⟨UInt64.le_refl _, .inl ⟨rfl, rfl, rfl⟩⟩
    · have hsame : (marked.apply_and_refute H C msg inp).1.leader_epoch = e.leader_epoch ∧
          (marked.apply_and_refute H C msg inp).1.leader = e.leader := by
        rw [hmarked, apply_and_refute]
        split <;> exact ⟨rfl, rfl⟩
      rw [hr, ← hsame.1, ← hsame.2]
      exact ⟨le_absorb_epoch _ _, bumps_install _ _⟩
  | sweep_expired => exact ⟨UInt64.le_refl _, .inl ⟨rfl, rfl, rfl⟩⟩

theorem epochs_of_in_range {calls : ClusterCalls}
    (hrange : e.InRange H C calls) : (e.leader_epoch :: e.epochs H C calls).Pairwise (· ≤ ·) ∧
      (∀ change ∈ e.changes H C calls, e.leader_epoch < change.epoch) ∧
      (e.changes H C calls).Pairwise (·.epoch < ·.epoch) := by
  induction calls generalizing e with
  | nil => exact ⟨pairwise_singleton _ _, nofun, .nil⟩
  | cons c calls ih =>
    obtain ⟨hfirst, hrest⟩ := hrange
    obtain ⟨hsorted, hlater, hpairwise⟩ := ih hrest
    obtain ⟨habsorbed, hbumps⟩ := bumps_call H C e c.2 c.1
    -- the counter after the call is not below the one it found
    have hle : e.found_epoch H C c.2 c.1 ≤ (e.call H C c.2 c.1).leader_epoch := by
      obtain ⟨-, hsame, -⟩ | ⟨hother, hbumped, -, -⟩ := hbumps
      · exact UInt64.le_of_eq hsame.symm
      · rw [hbumped]
        exact UInt64.le_of_lt (lt_succ_of_ne fun hzero => hother (hfirst hzero))
    have hall := pairwise_cons.mp hsorted
    have hrun : (e.found_epoch H C c.2 c.1 :: (e.call H C c.2 c.1).leader_epoch ::
        (e.call H C c.2 c.1).epochs H C calls).Pairwise (· ≤ ·) :=
      pairwise_cons.mpr ⟨forall_mem_cons.mpr ⟨hle, fun x hx => UInt64.le_trans hle (hall.1 x hx)⟩,
        hsorted⟩
    refine ⟨pairwise_cons.mpr ⟨forall_mem_cons.mpr ⟨habsorbed, fun x hx =>
      UInt64.le_trans habsorbed ((pairwise_cons.mp hrun).1 x hx)⟩, hrun⟩, ?_⟩
    rw [changes]
    cases hchange : e.changed H C c.2 c.1 with
    | none =>
      have hbefore := UInt64.le_trans habsorbed hle
      exact ⟨fun change h => UInt64.lt_of_le_of_lt hbefore (hlater change h), hpairwise⟩
    | some change =>
      rw [hchange] at hbumps
      obtain ⟨-, -, ⟨⟩⟩ | ⟨hother, hbumped, -, hepoch⟩ := hbumps
      have hlt : e.leader_epoch < change.epoch := by
        rw [hepoch change rfl]
        exact UInt64.lt_of_le_of_lt habsorbed (lt_succ_of_ne fun hzero => hother (hfirst hzero))
      rw [hbumped, ← hepoch change rfl] at hlater
      exact ⟨forall_mem_cons.mpr ⟨hlt, fun later h => UInt64.lt_trans hlt (hlater later h)⟩,
        pairwise_cons.mpr ⟨hlater, hpairwise⟩⟩

theorem in_range_of_epochs {calls : ClusterCalls}
    (hsorted : (e.leader_epoch :: e.epochs H C calls).Pairwise (· ≤ ·)) : e.InRange H C calls := by
  induction calls generalizing e with
  | nil => trivial
  | cons c calls ih =>
    obtain ⟨-, hrun⟩ := pairwise_cons.mp hsorted
    obtain ⟨hle, hrest⟩ := pairwise_cons.mp hrun
    refine ⟨fun hzero => ?_, ih hrest⟩
    obtain ⟨hsame, -⟩ | ⟨-, hbumped, -⟩ := (bumps_call H C e c.2 c.1).2
    · exact hsame
    · -- bumped to zero, from the maximum
      have hdown := hle _ mem_cons_self
      rw [hbumped, hzero] at hdown
      rw [UInt64.le_antisymm hdown (Nat.zero_le _)] at hzero
      cases hzero

/-- **When the fencing epoch never decreases** and each change of leader carries a larger epoch than
all before it: exactly if no call bumps the counter at its maximum. -/
theorem fencing_epoch_increases (H : Hashes) (C : ClusterCrates) (e : ClusterEngine)
    (calls : ClusterCalls) :
    ((e.leader_epoch :: e.epochs H C calls).Pairwise (· ≤ ·) ∧
      (e.changes H C calls).Pairwise (·.epoch < ·.epoch)) ↔ e.InRange H C calls :=
  ⟨fun h => in_range_of_epochs h.1, fun h => (epochs_of_in_range h).imp_right And.right⟩

def sampleFenced (id : UInt8) (leader_epoch : UInt64) : ClusterMessage :=
  { ((sampleEngine id).broadcast sampleHashes sampleClusterCrates .Heartbeat wall_0).2 with
    leader_epoch }

/-- An accepted message moves the counter to its maximum, and the change of leader panics; the next
one starts from zero. -/
theorem fencing_epoch_wraps :
    let calls : ClusterCalls :=
      [(.receive_message (sampleFenced 67 5), ⟨0, wall_0, true⟩),
        (.receive_message (sampleFenced 65 0xffffffffffffffff), ⟨0, wall_0, true⟩),
        (.tick, ⟨100, wall_0, true⟩)]
    let epoch n := ((sampleEngine 66).run sampleHashes sampleClusterCrates
      (calls.take n)).leader_epoch;
    ((sampleEngine 66).changes sampleHashes sampleClusterCrates calls).map (·.epoch) = [6, 1] ∧
      epoch 1 = 6 ∧ epoch 2 = 0 := by
  decide +kernel

/-! ## Refuting a suspicion -/

def Own (own : Text) (members : Members) : Prop :=
  ∃ me, members.get own = some me ∧ me.node_id = own

theorem get_merge_one {members : Members} {u : MemberUpdate} {id : Text} (hne : id ≠ u.node_id)
    (now : ℚ) (authoritative : Bool) :
    (merge_one members u now authoritative).get id = members.get id := by
  unfold merge_one
  split
  · rw [get_modify, if_neg hne]
  · split
    · rfl
    · rw [get_insert, if_neg hne]

theorem get_apply_message (hsender : msg.sender_id ≠ e.node_id) (now : ℚ) :
    (e.apply_message msg now).members.get e.node_id = e.members.get e.node_id := by
  refine foldlRecOn (motive := fun members : Members =>
    members.get e.node_id = e.members.get e.node_id) (e.third_party msg) _
    (get_merge_one (u := sender_update msg) hsender.symm now true) fun members hsame u hu => ?_
  have hid := of_decide_eq_true (mem_filter.mp hu).2
  exact (get_merge_one hid.1.symm now false).trans hsame

theorem len_merge_one {members : Members} (h : members.len ≤ CLUSTER_MAX_MEMBERS)
    (u : MemberUpdate) (now : ℚ) (authoritative : Bool) :
    (merge_one members u now authoritative).len ≤ CLUSTER_MAX_MEMBERS := by
  unfold merge_one
  split
  · rw [len_modify]
    exact h
  · split
    · exact h
    · exact (len_insert_le _ _ _).trans (by omega)

/-- What every call keeps: a record of this node, and the bound. -/
structure Kept (own : Text) (members : Members) : Prop where
  own : Own own members
  len : members.len ≤ CLUSTER_MAX_MEMBERS

theorem Kept.modify {own : Text} {members : Members} (h : Kept own members)
    {f : MemberRecord → MemberRecord} (hid : ∀ m, (f m).node_id = m.node_id) :
    Kept own (members.modify own f) := by
  obtain ⟨⟨me, hme, hown⟩, hlen⟩ := h
  exact ⟨⟨f me, by rw [get_modify_self, hme]; rfl, (hid me).trans hown⟩,
    (len_modify _ _ _).trans_le hlen⟩

theorem kept_accept (h : Kept e.node_id e.members) (hsender : msg.sender_id ≠ e.node_id)
    (H : Hashes) (C : ClusterCrates) (inp : ClusterInput) :
    Kept e.node_id (e.accept_message H C msg inp).engine.members := by
  have hsame : (e.accept_message H C msg inp).engine.members =
      (e.apply_and_refute H C msg inp).1.members := (installed _ _).members
  have happlied : Kept e.node_id (e.apply_message msg inp.now).members := by
    constructor
    · rw [Own, get_apply_message hsender]
      exact h.own
    · exact foldlRecOn (motive := fun members : Members => members.len ≤ CLUSTER_MAX_MEMBERS)
        (e.third_party msg) _ (len_merge_one h.len _ inp.now true)
        fun _ hlen u _ => len_merge_one hlen u inp.now false
  rw [hsame]
  unfold apply_and_refute
  split
  · exact happlied.modify fun me => by split <;> rfl
  · exact happlied

theorem kept_call (h : Kept e.node_id e.members) (H : Hashes) (C : ClusterCrates)
    (inp : ClusterInput) (c : ClusterCall) : Kept e.node_id (e.call H C inp c).members := by
  obtain ⟨me, hme, hown⟩ := h.own
  have hlen := h.len
  cases c with
  | add_peer node_id addr =>
    simp only [call, add_peer]
    split
    · exact h
    · rename_i hnew
      have hroom : ¬ CLUSTER_MAX_MEMBERS ≤ e.members.len := fun hfull => hnew (.inr (.inr hfull))
      refine ⟨⟨me, ?_, hown⟩, (len_insert_le _ _ _).trans (by omega)⟩
      rw [get_insert, if_neg fun heq => hnew (.inl heq.symm), hme]
  | tick =>
    have hsame : (e.call H C inp .tick).members = (e.age_members inp.now).members :=
      (installed _ _).members
    rw [hsame]
    refine ⟨⟨e.age_member inp.now me, ?_, ?_⟩, (length_map ..).trans_le hlen⟩
    · exact (get_mapValues _ _ _).trans (by rw [hme]; rfl)
    · rw [age_member, if_pos hown, hown]
  | receive_message msg =>
    simp only [call]
    obtain ⟨r, hr⟩ | ⟨marked, marks, hmarked, hsender, hr⟩ := receive_message_applied H C e msg inp
    · rw [hr]
      exact h
    · have hid : marked.node_id = e.node_id := by rw [hmarked]
      rw [hr, ← hid]
      rw [← hid] at hsender
      refine kept_accept ?_ hsender H C inp
      rw [hmarked]
      exact h
  | leave =>
    have hsame : (e.call H C inp .leave).members = (e.mark_left inp.now).members :=
      (installed _ _).members
    rw [hsame]
    exact h.modify fun _ => rfl
  | sweep_expired =>
    refine ⟨⟨me, ?_, hown⟩, (len_removeAll_le _ _).trans hlen⟩
    refine (get_removeAll _ _ _).trans ?_
    rw [if_neg, hme]
    intro hmem
    obtain ⟨⟨k, m⟩, hkept, hid⟩ := mem_map.mp hmem
    exact (of_decide_eq_true (mem_filter.mp hkept).2).1 hid

section Run

variable (setup : ClusterSetup) (addr : Text) (now : ℚ) (H : Hashes) (C : ClusterCrates)
  (calls : ClusterCalls)

theorem kept_run : ((new setup addr now).run H C calls).node_id = setup.node_id ∧
    Kept setup.node_id ((new setup addr now).run H C calls).members := by
  induction calls using reverseRecOn with
  | nil => exact ⟨rfl, ⟨_, get_insert_self _ _ _, rfl⟩, (len_insert_le _ _ _).trans (by decide)⟩
  | append_singleton calls c ih =>
    obtain ⟨hid, hkept⟩ := ih
    rw [run, foldl_append]
    refine ⟨(congrArg ClusterSetup.node_id (call_setup H C _ c.2 c.1)).trans hid, ?_⟩
    rw [← hid] at hkept ⊢
    exact kept_call hkept H C c.2 c.1

theorem own_run : ((new setup addr now).run H C calls).node_id = setup.node_id ∧
    Own setup.node_id ((new setup addr now).run H C calls).members :=
  (kept_run setup addr now H C calls).imp_right Kept.own

end Run

theorem install_incarnation (e : ClusterEngine) (candidate : Option Text) :
    (e.install candidate).1.incarnation = e.incarnation := by
  unfold install swap_leader
  by_cases hsame : e.leader = candidate
  · rw [if_pos hsame]
  · rw [if_neg hsame]
    rfl

theorem merge_newer (existing : MemberRecord) (u : MemberUpdate) (now : ℚ) (authoritative : Bool)
    (hnewer : existing.incarnation < u.incarnation) :
    (existing.merge u now authoritative).state = u.state := by
  have hsup : existing.superseded_by u = true := decide_eq_true (.inl hnewer)
  have hleft : ¬ (existing.state = .Left ∧ u.incarnation ≤ existing.incarnation) :=
    fun h => UInt64.not_le.mpr hnewer h.2
  unfold MemberRecord.merge MemberRecord.absorb MemberRecord.refresh
  rw [if_neg hleft, if_pos hsup]
  split
  · dsimp only
    split
    · rename_i h
      exact h.2.symm
    · rfl
  · rfl

theorem refuted_by_accept {me : MemberRecord} (hme : e.members.get e.node_id = some me)
    (hkey : me.node_id = e.node_id) (hstay : me.state ≠ .Left) (hsender : msg.sender_id ≠ e.node_id)
    (hrefutes : e.refutes msg = true) (H : Hashes) (C : ClusterCrates) (inp : ClusterInput) :
    let accepted := e.accept_message H C msg inp
    accepted.engine.incarnation = e.incarnation + 1 ∧
      (∃ me, accepted.engine.members.get e.node_id = some me ∧
        me.incarnation = e.incarnation + 1) ∧
      ∃ sent ∈ accepted.sent, ⟨e.node_id, me.addr, e.incarnation + 1, .Alive⟩ ∈ sent.updates := by
  let applied := e.apply_message msg inp.now
  let me' : MemberRecord :=
    ⟨me.node_id, me.addr, e.incarnation + 1, .Alive, inp.now, inp.now⟩
  have happlied : applied.members.get applied.node_id = some me :=
    (get_apply_message hsender inp.now).trans hme
  have hme' : (applied.refute_suspicion inp.now).members.get e.node_id = some me' := by
    refine (get_modify_self _ _ _).trans ?_
    rw [happlied, Option.map_some, if_neg hstay]
    rfl
  unfold accept_message apply_and_refute
  rw [if_pos hrefutes]
  refine ⟨install_incarnation _ _, ⟨me', ?_, rfl⟩, _, mem_singleton_self _, ?_⟩
  · exact (congrArg (Table.get · _) (installed _ _).members).trans hme'
  · rw [← hkey]
    exact mem_map.mpr ⟨_, mem_entries.mpr hme', rfl⟩

/-- **When a refutation outranks the suspicion**, of a node that has not left: the counter and the
record of the node are beyond it, and a view that holds the suspicion takes the node for alive when
the refutation is merged into it, exactly if the suspicion is of the current incarnation. -/
theorem suspicion_refuted (H : Hashes) (C : ClusterCrates) (setup : ClusterSetup) (addr : Text)
    (start : ℚ) (calls : ClusterCalls) (msg : ClusterMessage)
    (inp : ClusterInput) (u : MemberUpdate) {e : ClusterEngine}
    (he : e = (new setup addr start).run H C calls) (hstay : e.state_of e.node_id ≠ some .Left)
    (hok : (e.receive_message H C msg inp).2 = .ok ()) (hu : u ∈ msg.updates)
    (hid : u.node_id = e.node_id) (hsuspected : u.state ≠ .Alive)
    (hcurrent : e.incarnation ≤ u.incarnation) (hlimit : u.incarnation < 0xffffffffffffffff) :
    let after := (e.receive_message H C msg inp).1
    (u.incarnation < after.engine.incarnation ∧
      (∃ me, after.engine.members.get e.node_id = some me ∧ u.incarnation < me.incarnation) ∧
      ∃ sent ∈ after.sent, ∃ v ∈ sent.updates, v.node_id = e.node_id ∧
        ∀ members existing now authoritative, members.get e.node_id = some existing →
          existing.incarnation = u.incarnation → existing.state = u.state →
          ((merge_one members v now authoritative).get e.node_id).map MemberRecord.state =
            some .Alive) ↔ u.incarnation = e.incarnation := by
  obtain ⟨hnode, hown⟩ := own_run setup addr start H C calls
  rw [← he] at hnode hown
  rw [← hnode] at hown
  obtain ⟨me, hme, hkey⟩ := hown
  have hpresent : me.state ≠ .Left := by
    intro hleft
    rw [state_of, hme, Option.map_some, hleft] at hstay
    exact hstay rfl
  have hrefutes : e.refutes msg = true := any_eq_true.mpr
    ⟨u, hu, decide_eq_true ⟨hid, hsuspected, hcurrent⟩⟩
  -- one refutation reaches one incarnation further
  have hreached : u.incarnation < e.incarnation + 1 ↔ u.incarnation = e.incarnation := by
    have hle : e.incarnation.toNat ≤ u.incarnation.toNat := hcurrent
    have hlt : u.incarnation.toNat < 2 ^ 64 - 1 := hlimit
    rw [UInt64.lt_iff_toNat_lt, UInt64.toNat_add, ← UInt64.toNat_inj,
      show (1 : UInt64).toNat = 1 from rfl]
    omega
  obtain ⟨r, hr⟩ | ⟨marked, marks, hmarked, hsender, hr⟩ := receive_message_applied H C e msg inp
  · rw [hr] at hok
    cases hok
  have haccepted := @refuted_by_accept marked msg me
  rw [hmarked] at haccepted hr
  obtain ⟨hcounter, ⟨me', hme', hrecord⟩, sent, hsent, hv⟩ :=
    haccepted hme hkey hpresent hsender hrefutes H C inp
  rw [hr]
  refine ⟨fun h => hreached.mp (hcounter ▸ h.1), fun hsame => ?_⟩
  have hlt := hreached.mpr hsame
  refine ⟨by rw [hcounter]; exact hlt, ⟨me', hme', by rw [hrecord]; exact hlt⟩, sent, hsent, _, hv,
    rfl, ?_⟩
  intro members existing now authoritative hget hincarnation _
  rw [merge_one_of_some hget, get_modify_self, hget, Option.map_some, Option.map_some]
  exact congrArg some (merge_newer existing _ now authoritative (hincarnation ▸ hlt))

def sampleSuspecting (incarnation : UInt64) : ClusterMessage :=
  { sampleHeartbeat with updates := [⟨[65], [], incarnation, .Suspect⟩] }

/-- A node that has refuted a first suspicion. -/
def sampleRefuted : ClusterEngine :=
  (sampleEngine 65).run sampleHashes sampleClusterCrates
    [(.receive_message (sampleSuspecting 0), ⟨0, wall_0, true⟩)]

theorem suspicion_refuted_sample : 1 < (sampleRefuted.receive_message sampleHashes
    sampleClusterCrates { sampleSuspecting 1 with sequence := 2 }
      ⟨0, wall_0, true⟩).1.engine.incarnation :=
  ((suspicion_refuted (e := sampleRefuted) sampleHashes sampleClusterCrates (sampleSetup 65) [] 0 _
    { sampleSuspecting 1 with sequence := 2 } ⟨0, wall_0, true⟩ ⟨[65], [], 1, .Suspect⟩ rfl
    (by decide +kernel) (by decide +kernel) mem_cons_self (by decide +kernel) nofun
    (by decide +kernel) (by decide +kernel)).mpr (by decide +kernel)).1

/-- A suspicion that is five ahead: the refutation does not reach it, and a view that holds the
suspicion keeps it. -/
theorem suspicion_outranks_refutation :
    let after := (sampleEngine 65).receive_message sampleHashes sampleClusterCrates
      (sampleSuspecting 5) ⟨0, wall_0, true⟩
    after.2 = .ok () ∧ after.1.engine.incarnation = 1 ∧
      (after.1.engine.members.get [65]).map MemberRecord.incarnation = some 1 ∧
      ∀ sent ∈ after.1.sent, ∀ v ∈ sent.updates, v.node_id = [65] →
        ((merge_one (Table.empty.insert [65] ⟨[65], [], 5, .Suspect, 0, 0⟩) v 0 false).get
          [65]).map MemberRecord.state = some .Suspect := by
  decide +kernel

/-! ## Two clusters -/

theorem check_message_of_checked {now : ℚ} (h : Checked C e msg now) :
    e.check_message C msg now = .ok () := by
  obtain ⟨key, hkey, hsig⟩ := h.signed
  simp [check_message, h.other, h.sender, hkey, hsig, h.size, h.fresh, h.not_ahead]

theorem mark_replay_refused (e : ClusterEngine) (msg : ClusterMessage) :
    (∃ r, e.mark_replay msg = .error r) ↔
      (∃ prev, e.replay_high_water.get msg.sender_id = some prev ∧
        newer (msg.sender_incarnation, msg.sequence) prev = false) ∨
      (e.replay_high_water.get msg.sender_id = none ∧
        CLUSTER_MAX_MEMBERS ≤ e.replay_high_water.len) := by
  unfold mark_replay
  cases e.replay_high_water.get msg.sender_id with
  | none => by_cases hfull : CLUSTER_MAX_MEMBERS ≤ e.replay_high_water.len <;> simp [hfull]
  | some prev => cases hnew : newer (msg.sender_incarnation, msg.sequence) prev <;> simp [hnew]

/-- **When a message of another cluster is rejected**, changing nothing: the name of the cluster is
not among the conditions. -/
theorem foreign_message_rejected (H : Hashes) (C : ClusterCrates) (a b : ClusterEngine)
    (kind : ClusterMessageKind) (wall : F64) (inp : ClusterInput) :
    let msg := (a.build_message H C kind wall).2
    (∃ r, b.receive_message H C msg inp = (⟨b, [], none⟩, .error r)) ↔
      a.node_id = b.node_id ∨ a.node_id ∉ b.peers ∨
      (∀ key, b.trust_store.get_key_by_fingerprint
          (pub_key_fingerprint H a.identity.verifying_key) = some key →
        verify_data C key (msg.body_bytes C) msg.signature = false) ∨
      a.config.expected_cluster_size ≠ b.config.expected_cluster_size ∨
      as_secs_f64 b.config.message_max_age < inp.now - wall.toRat ∨
      inp.now - wall.toRat < -CLUSTER_MAX_CLOCK_SKEW ∨
      (∃ prev, b.replay_high_water.get a.node_id = some prev ∧
        newer (a.incarnation, a.sequence + 1) prev = false) ∨
      (b.replay_high_water.get a.node_id = none ∧
        CLUSTER_MAX_MEMBERS ≤ b.replay_high_water.len) := by
  intro msg
  have hreplay : (∃ r, b.mark_replay msg = .error r) ↔
      (∃ prev, b.replay_high_water.get a.node_id = some prev ∧
        newer (a.incarnation, a.sequence + 1) prev = false) ∨
      (b.replay_high_water.get a.node_id = none ∧
        CLUSTER_MAX_MEMBERS ≤ b.replay_high_water.len) := mark_replay_refused b msg
  rw [← hreplay]
  constructor
  · rintro ⟨r, hrejected⟩
    by_contra hno
    simp only [not_or, not_not, not_lt, not_forall, Bool.not_eq_false] at hno
    obtain ⟨hother, hsender, ⟨key, hkey, hsig⟩, hsize, hfresh, hahead, hmark⟩ := hno
    rw [receive_message, check_message_of_checked
      ⟨hother, hsender, ⟨key, hkey, hsig⟩, hsize, hfresh, hahead⟩] at hrejected
    cases hmarked : b.mark_replay msg with
    | error r => exact hmark ⟨r, hmarked⟩
    | ok marked =>
      rw [hmarked] at hrejected
      cases congrArg Prod.snd hrejected
  · intro hrefused
    -- taken, it would have passed the check that refuses it
    rcases b.receive_message_cases H C msg inp with hrejected | ⟨marked, hchecked, hmark, -⟩
    · exact hrejected
    obtain ⟨key, hkey, hsig⟩ := hchecked.signed
    rcases hrefused with hself | hroster | hbad | hsize | hstale | hahead | ⟨r, hr⟩
    · exact absurd hself hchecked.other
    · exact absurd hchecked.sender hroster
    · cases hsig.symm.trans (hbad key hkey)
    · exact absurd hchecked.size hsize
    · exact absurd hstale hchecked.fresh.not_gt
    · exact absurd hahead hchecked.not_ahead.not_gt
    · cases hmark.symm.trans hr

/-- A node of a cluster with another name and the same size takes part in the election. -/
theorem other_cluster_joined :
    let staging : ClusterEngine := .new
      { sampleSetup 65 with config := .new (ascii "staging") 3 } [] 0
    let after := staging.receive_message sampleHashes sampleClusterCrates
      ((sampleEngine 66).build_message sampleHashes sampleClusterCrates .Heartbeat wall_0).2
      ⟨0, wall_0, true⟩
    staging.config.cluster_name ≠ (sampleEngine 66).config.cluster_name ∧ after.2 = .ok () ∧
      staging.alive_count = 1 ∧ after.1.engine.alive_count = 2 ∧
      staging.leader = none ∧ after.1.engine.leader = some [65] ∧
      staging.leader_epoch = 0 ∧ after.1.engine.leader_epoch = 1 := by
  decide +kernel

end ClusterEngine

end Saacp
