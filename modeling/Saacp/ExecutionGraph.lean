/-
The **distributed execution graph** of the execution governance: which requests are running, who has
asked for them, and the checks a new request passes before it is entered.

A request names its parent, so the graph is a set of links upwards, and what a call does to it is
said of the links alone. A request is entered first and asked for a cycle afterwards. `refused`
keeps apart what is decided before the node is entered. The lock is never poisoned, since nothing in
the sections under it panics.
-/
import Saacp.Climb
import Saacp.Credentials
import Mathlib.Data.Finset.Insert

set_option autoImplicit false

open ByteCodec

namespace Saacp

open Table Option List

def RID_ROOT : Text := ascii "00000000000000000000000000000000"

def REPEATED_PATH_THRESHOLD : UInt32 := 2

inductive GovernanceDecision
  | Allow
  | Pause
  | Review
  | Terminate
  deriving DecidableEq

def Double.before (now : ℚ) : Double → Bool
  | .number x => x.toRat < now
  | .infinity negative => negative
  | .nan => false

structure AEGFMetadata where
  cid : Text
  rid : Text
  prid : Text
  sid : Text
  oaid : Text
  hc : UInt16
  ed : UInt16
  ttl : Double

namespace AEGFMetadata

def is_expired (metadata : AEGFMetadata) (now : ℚ) : Bool := metadata.ttl.before now

end AEGFMetadata

structure AEGFPolicy where
  max_hop_count : UInt16 := 16
  max_execution_depth : UInt16 := 8
  esm_gc_age_seconds : Double := .number ⟨0x40bc200000000000, by decide⟩
  max_graph_nodes : UInt32 := 10000

structure DEGNode where
  rid : Text
  prid : Text
  metadata : AEGFMetadata
  children : Finset Text
  rid_eq : rid = metadata.rid
  prid_eq : prid = metadata.prid

namespace DEGNode

def fresh (metadata : AEGFMetadata) : DEGNode :=
  ⟨metadata.rid, metadata.prid, metadata, ∅, rfl, rfl⟩

def children_map (f : Finset Text → Finset Text) (node : DEGNode) : DEGNode :=
  { node with children := f node.children }

end DEGNode

abbrev DegNodes := Table Text DEGNode

namespace DegNodes

variable (nodes : DegNodes)

def request (rid : Text) : Option AEGFMetadata := (Table.get nodes rid).map DEGNode.metadata

def link (rid : Text) : Option Text := (Table.get nodes rid).map DEGNode.prid

/-- The stored parent of a request. The root sentinel is no parent. -/
def parent (prid : Text) : Option AEGFMetadata :=
  if prid ≠ RID_ROOT then request nodes prid else none

def on_parent (prid : Text) (f : Finset Text → Finset Text) : DegNodes :=
  if prid ≠ RID_ROOT then Table.modify nodes prid (DEGNode.children_map f) else nodes

def drop_node (rid : Text) : DegNodes :=
  match Table.get nodes rid with
  | some node => on_parent (Table.remove nodes rid) node.prid (·.erase rid)
  | none => nodes

/-- `has_cycle_inner`. Without an answer the loop would not end (`has_cycle_inner_returns`). -/
def has_cycle_inner (start : Text) : Option Bool :=
  match Table.get nodes start with
  | some node => Climb.climb (link nodes) RID_ROOT start (Table.len nodes + 1) [] node.prid
  | none => some false

end DegNodes

structure DistributedExecutionGraph where
  nodes : DegNodes
  path_counts : Table (Text × Text) UInt32

namespace DistributedExecutionGraph

def new : DistributedExecutionGraph := ⟨.empty, .empty⟩

variable (g : DistributedExecutionGraph)

def detect_cycle (rid : Text) : Option Bool := g.nodes.has_cycle_inner rid

variable (metadata : AEGFMetadata)

def detect_excessive_hops (max_hc : UInt16) : Bool := max_hc < metadata.hc

def detect_excessive_depth (max_ed : UInt16) : Bool :=
  max_ed < metadata.ed

def path_count (parent_oaid child_oaid : Text) : UInt32 :=
  (g.path_counts.get (parent_oaid, child_oaid)).getD 0

/-- `detect_repeated_path`, also as it is inlined in `validate_and_add`. -/
def detect_repeated_path : Bool :=
  match g.nodes.parent metadata.prid with
  | some parent => REPEATED_PATH_THRESHOLD ≤ g.path_count parent.oaid metadata.oaid
  | none => false

/-- What is decided before the node is entered. The first look at the size needs the lock to be
free. -/
def refused (policy : AEGFPolicy) (contended : Bool) (now : ℚ) : Option GovernanceDecision :=
  if !contended ∧ policy.max_graph_nodes.toNat ≤ g.nodes.len then some .Pause
  else if metadata.is_expired now then some .Terminate
  else if detect_excessive_hops metadata policy.max_hop_count then some .Pause
  else if detect_excessive_depth metadata policy.max_execution_depth then some .Pause
  else if policy.max_graph_nodes.toNat ≤ g.nodes.len then some .Pause
  else if g.detect_repeated_path metadata then some .Review
  else none

def entered : DegNodes :=
  DegNodes.on_parent (g.nodes.insert metadata.rid (.fresh metadata)) metadata.prid
    (insert metadata.rid)

/-- The nodes after a request was entered and taken out again; what it overwrote is not put back. -/
def withdrawn : DegNodes :=
  DegNodes.on_parent ((g.entered metadata).remove metadata.rid) metadata.prid
    (·.erase metadata.rid)

def count_path (parent : Option AEGFMetadata) (oaid : Text) : Table (Text × Text) UInt32 :=
  match parent with
  | some p => g.path_counts.insert (p.oaid, oaid) (g.path_count p.oaid oaid + 1)
  | none => g.path_counts

def validate_and_add (policy : AEGFPolicy) (contended : Bool) (now : ℚ) :
    DistributedExecutionGraph × GovernanceDecision :=
  match g.refused metadata policy contended now with
  | some decision => (g, decision)
  | none =>
    let nodes := g.entered metadata
    if nodes.has_cycle_inner metadata.rid = some true then
      ({ g with nodes := g.withdrawn metadata }, .Review)
    else
      ({ nodes, path_counts := g.count_path (nodes.parent metadata.prid) metadata.oaid }, .Allow)

def uncount_path (parent : Option AEGFMetadata) (oaid : Text) : Table (Text × Text) UInt32 :=
  match parent with
  | some p => g.path_counts.modify (p.oaid, oaid) fun count => if count = 0 then 0 else count - 1
  | none => g.path_counts

def remove_request (rid : Text) : DistributedExecutionGraph :=
  match g.nodes.get rid with
  | some node =>
    let nodes := g.nodes.drop_node rid
    { nodes, path_counts := g.uncount_path (nodes.parent node.prid) node.metadata.oaid }
  | none => g

def expired (now : ℚ) : List Text :=
  (g.nodes.entries.filter fun e => e.2.metadata.ttl.before now).map Prod.fst

def evict_expired (now : ℚ) : DistributedExecutionGraph × ℕ :=
  let expired := g.expired now
  ({ nodes := expired.foldl DegNodes.drop_node g.nodes
     path_counts := g.path_counts.retain fun _ count => 0 < count }, expired.length)

end DistributedExecutionGraph

/-! ## What is stored after a change -/

namespace DegNodes

variable (nodes : DegNodes)

theorem link_eq (rid : Text) : nodes.link rid = (nodes.request rid).map AEGFMetadata.prid := by
  rw [link, request, Option.map_map]
  exact congrArg (fun f => Option.map f (Table.get nodes rid)) (funext fun node => node.prid_eq)

@[simp] theorem request_on_parent (prid : Text) (f : Finset Text → Finset Text) (rid : Text) :
    (nodes.on_parent prid f).request rid = nodes.request rid := by
  unfold on_parent
  split_ifs with hroot
  · rw [request, request, get_modify]
    split_ifs with hrid
    · subst hrid
      rw [Option.map_map]
      rfl
    · rfl
  · rfl

@[simp] theorem len_on_parent (prid : Text) (f : Finset Text → Finset Text) :
    (nodes.on_parent prid f).len = nodes.len := by
  unfold on_parent
  split_ifs with hroot
  · exact len_modify nodes prid _
  · rfl

theorem request_remove (rid a : Text) :
    request (remove nodes rid) a = if a = rid then none else nodes.request a := by
  rw [request, get_remove]
  split_ifs with ha
  · rfl
  · rfl

theorem request_drop_node (rid a : Text) :
    (nodes.drop_node rid).request a = if a = rid then none else nodes.request a := by
  unfold drop_node
  cases hget : get nodes rid with
  | some node => rw [request_on_parent, request_remove]
  | none =>
    split_ifs with ha
    · rw [ha, request, hget]
      rfl
    · rfl

theorem len_drop_node_le (rid : Text) : (nodes.drop_node rid).len ≤ nodes.len := by
  unfold drop_node
  cases hget : get nodes rid with
  | some node =>
    rw [len_on_parent]
    exact len_remove_le nodes rid
  | none => exact le_refl _

theorem request_drop_all (rids : List Text) (a : Text) :
    (rids.foldl drop_node nodes).request a = if a ∈ rids then none else nodes.request a := by
  induction rids generalizing nodes with
  | nil => rfl
  | cons rid rids ih =>
    rw [foldl_cons, ih, request_drop_node]
    by_cases ha : a = rid
    · simp [ha]
    · simp [ha]

theorem len_drop_all_le (rids : List Text) : (rids.foldl drop_node nodes).len ≤ nodes.len := by
  induction rids generalizing nodes with
  | nil => exact le_refl _
  | cons rid rids ih => exact (ih (nodes.drop_node rid)).trans (nodes.len_drop_node_le rid)

theorem stored_of_link {a b : Text} (h : nodes.link a = some b) : ∃ node,
    nodes.get a = some node := by
  obtain ⟨node, hnode, -⟩ := map_eq_some_iff.mp h
  exact ⟨node, hnode⟩

/-! ## The cycle check -/

theorem has_cycle_inner_returns (start : Text) : ∃ r, nodes.has_cycle_inner start = some r := by
  unfold has_cycle_inner
  cases hget : get nodes start with
  | none => exact ⟨false, rfl⟩
  | some node =>
    apply Climb.climb_returns _ _ _ _ nodup_nil _ (le_refl _)
    · intro l hnodup hstored
      apply length_le_len hnodup
      intro a ha
      obtain ⟨b, hb⟩ := hstored a ha
      exact nodes.stored_of_link hb
    · intro a ha
      cases ha

theorem cycle_of_has_cycle_inner {start : Text} (h : nodes.has_cycle_inner start = some true) :
    ∃ a, Relation.TransGen (Climb.Link nodes.link) a a := by
  unfold has_cycle_inner at h
  cases hget : get nodes start with
  | none =>
    rw [hget] at h
    cases h
  | some node =>
    rw [hget] at h
    have hfirst : nodes.link start = some node.prid := by rw [link, hget]; rfl
    apply Climb.cycle_of_climb _ _ _ (.single hfirst) _ h
    intro a ha
    cases ha

theorem not_cycle_of_has_cycle_inner {start : Text} (hroot : nodes.link RID_ROOT = none)
    (h : nodes.has_cycle_inner start = some false) :
    ¬ Relation.TransGen (Climb.Link nodes.link) start start := by
  unfold has_cycle_inner at h
  cases hget : get nodes start with
  | none =>
    intro hcycle
    obtain ⟨b, hb, -⟩ := Relation.TransGen.head'_iff.mp hcycle
    obtain ⟨node, hnode⟩ := nodes.stored_of_link hb
    rw [hget] at hnode
    cases hnode
  | some node =>
    rw [hget] at h
    have hfirst : nodes.link start = some node.prid := by rw [link, hget]; rfl
    exact Climb.not_cycle_of_climb hroot hfirst h

end DegNodes

namespace DistributedExecutionGraph

/-! ## What a call does -/

section Calls

variable (g : DistributedExecutionGraph) (metadata : AEGFMetadata) (policy : AEGFPolicy)
  (contended : Bool) (now : ℚ)

open DegNodes

theorem request_entered (a : Text) : (g.entered metadata).request a =
      if a = metadata.rid then some metadata else g.nodes.request a := by
  rw [entered, request_on_parent, request, get_insert]
  split_ifs <;> rfl

theorem link_entered : (g.entered metadata).link =
      Function.update g.nodes.link metadata.rid (some metadata.prid) := by
  funext a
  rw [link_eq, request_entered, Function.update_apply]
  split_ifs with ha
  · rfl
  · rw [link_eq]

theorem len_entered_le : (g.entered metadata).len ≤ g.nodes.len + 1 := by
  rw [entered, len_on_parent]
  exact len_insert_le g.nodes metadata.rid _

theorem request_withdrawn (a : Text) : (g.withdrawn metadata).request a =
      if a = metadata.rid then none else g.nodes.request a := by
  rw [withdrawn, request_on_parent, request_remove]
  split_ifs with ha
  · rfl
  · rw [request_entered, if_neg ha]

theorem len_withdrawn_le : (g.withdrawn metadata).len ≤ (g.entered metadata).len := by
  rw [withdrawn, len_on_parent]
  exact len_remove_le _ _

theorem refused_eq_none_iff : g.refused metadata policy contended now = none ↔
      metadata.is_expired now = false ∧ metadata.hc ≤ policy.max_hop_count ∧
        metadata.ed ≤ policy.max_execution_depth ∧ g.nodes.len < policy.max_graph_nodes.toNat ∧
          g.detect_repeated_path metadata = false := by
  unfold refused detect_excessive_hops detect_excessive_depth
  simp only [decide_eq_true_eq]
  constructor
  · intro h
    split_ifs at h with hprobe hexpired hhops hdepth hcap hpath
    exact ⟨Bool.eq_false_iff.mpr hexpired, UInt16.not_lt.mp hhops, UInt16.not_lt.mp hdepth,
      Nat.lt_of_not_le hcap, Bool.eq_false_iff.mpr hpath⟩
  · rintro ⟨hexpired, hhops, hdepth, hcap, hpath⟩
    rw [if_neg (fun hprobe => Nat.not_le.mpr hcap hprobe.2), if_neg (Bool.eq_false_iff.mp hexpired),
      if_neg (UInt16.not_lt.mpr hhops), if_neg (UInt16.not_lt.mpr hdepth),
      if_neg (Nat.not_le.mpr hcap), if_neg (Bool.eq_false_iff.mp hpath)]

inductive Added : DistributedExecutionGraph × GovernanceDecision → Prop
  | refused (decision : GovernanceDecision)
      (hrefused : g.refused metadata policy contended now = some decision) : Added (g, decision)
  | cycle (hrefused : g.refused metadata policy contended now = none)
      (hcycle : (g.entered metadata).has_cycle_inner metadata.rid = some true) :
      Added ({ g with nodes := g.withdrawn metadata }, .Review)
  | entered (hrefused : g.refused metadata policy contended now = none)
      (hcycle : (g.entered metadata).has_cycle_inner metadata.rid = some false) :
      Added ({ nodes := g.entered metadata
               path_counts :=
                 g.count_path ((g.entered metadata).parent metadata.prid) metadata.oaid }, .Allow)

theorem validate_and_add_added :
    g.Added metadata policy contended now (g.validate_and_add metadata policy contended now) := by
  unfold validate_and_add
  cases hrefused : g.refused metadata policy contended now with
  | some decision => exact .refused decision hrefused
  | none =>
    obtain ⟨answer, hanswer⟩ := (g.entered metadata).has_cycle_inner_returns metadata.rid
    cases answer with
    | true =>
      simp only [hanswer, if_true]
      exact .cycle hrefused hanswer
    | false =>
      simp only [hanswer, some.injEq, Bool.false_eq_true, if_false]
      exact .entered hrefused hanswer

theorem request_remove_request (rid a : Text) : (g.remove_request rid).nodes.request a =
      if a = rid then none else g.nodes.request a := by
  unfold remove_request
  cases hget : g.nodes.get rid with
  | some node => exact g.nodes.request_drop_node rid a
  | none =>
    split_ifs with ha
    · rw [ha, request, hget]
      rfl
    · rfl

theorem len_remove_request_le (rid : Text) : (g.remove_request rid).nodes.len ≤ g.nodes.len := by
  unfold remove_request
  cases hget : g.nodes.get rid with
  | some node => exact g.nodes.len_drop_node_le rid
  | none => exact le_refl _

theorem request_evict_expired (a : Text) : (g.evict_expired now).1.nodes.request a =
      if a ∈ g.expired now then none else g.nodes.request a :=
  g.nodes.request_drop_all (g.expired now) a

end Calls

/-! ## Runs -/

inductive GraphCall
  | validate_and_add (metadata : AEGFMetadata) (contended : Bool) (now : ℚ)
  | remove_request (rid : Text)
  | evict_expired (now : ℚ)

namespace GraphCall

def submits : GraphCall → Option AEGFMetadata
  | validate_and_add metadata _ _ => some metadata
  | _ => none

def apply (policy : AEGFPolicy) (g : DistributedExecutionGraph) :
    GraphCall → DistributedExecutionGraph
  | validate_and_add metadata contended now =>
    (g.validate_and_add metadata policy contended now).1
  | remove_request rid => g.remove_request rid
  | evict_expired now => (g.evict_expired now).1

end GraphCall

def run (policy : AEGFPolicy) (calls : List GraphCall) : DistributedExecutionGraph :=
  calls.foldl (GraphCall.apply policy) new

theorem run_append (policy : AEGFPolicy) (calls : List GraphCall) (call : GraphCall) :
    run policy (calls ++ [call]) = call.apply policy (run policy calls) := by
  rw [run, foldl_append]
  rfl

/-- No request comes back to itself, the root sentinel is none, and there is room. -/
structure Sound (policy : AEGFPolicy) (g : DistributedExecutionGraph) : Prop where
  acyclic : Climb.Acyclic g.nodes.link
  root : g.nodes.request RID_ROOT = none
  bounded : g.nodes.len ≤ policy.max_graph_nodes.toNat

namespace Sound

variable {policy : AEGFPolicy} {g g' : DistributedExecutionGraph} {metadata : AEGFMetadata}

theorem new : Sound policy DistributedExecutionGraph.new where
  acyclic := by
    intro a hcycle
    obtain ⟨b, hb, -⟩ := Relation.TransGen.head'_iff.mp hcycle
    cases hb
  root := rfl
  bounded := Nat.zero_le _

variable (h : Sound policy g)
include h

theorem mono (hrequest : ∀ a m, g'.nodes.request a = some m → g.nodes.request a = some m)
    (hlen : g'.nodes.len ≤ policy.max_graph_nodes.toNat) : Sound policy g' where
  acyclic := h.acyclic.mono fun a b hlink => by
    rw [DegNodes.link_eq] at hlink ⊢
    obtain ⟨m, hm, hb⟩ := map_eq_some_iff.mp hlink
    exact map_eq_some_iff.mpr ⟨m, hrequest a m hm, hb⟩
  root := by
    cases hroot : g'.nodes.request RID_ROOT with
    | none => rfl
    | some m =>
      have := hrequest _ _ hroot
      rw [h.root] at this
      cases this
  bounded := hlen

/-- **The check is exact**: the walk from the new node finds a cycle when its link closes one. -/
theorem has_cycle_inner_iff (hrid : metadata.rid ≠ RID_ROOT) :
    (g.entered metadata).has_cycle_inner metadata.rid = some true ↔
      ¬ Climb.Acyclic (Function.update g.nodes.link metadata.rid (some metadata.prid)) := by
  constructor
  · intro hcycle hacyclic
    obtain ⟨a, ha⟩ := DegNodes.cycle_of_has_cycle_inner _ hcycle
    rw [link_entered] at ha
    exact hacyclic a ha
  · intro hcyclic
    obtain ⟨answer, hanswer⟩ := (g.entered metadata).has_cycle_inner_returns metadata.rid
    cases answer with
    | true => exact hanswer
    | false =>
      refine absurd (fun a ha => ?_) hcyclic
      have hroot : (g.entered metadata).link RID_ROOT = none := by
        rw [DegNodes.link_eq, request_entered, if_neg hrid.symm, h.root]
        rfl
      apply DegNodes.not_cycle_of_has_cycle_inner _ hroot hanswer
      rw [link_entered]
      exact h.acyclic.through ha

theorem detect_cycle (rid : Text) : g.detect_cycle rid = some false := by
  obtain ⟨answer, hanswer⟩ := g.nodes.has_cycle_inner_returns rid
  cases answer with
  | false => exact hanswer
  | true =>
    obtain ⟨a, ha⟩ := DegNodes.cycle_of_has_cycle_inner _ hanswer
    exact absurd ha (h.acyclic a)

theorem validate_and_add (hrid : metadata.rid ≠ RID_ROOT) (contended : Bool)
    (now : ℚ) : Sound policy (g.validate_and_add metadata policy contended now).1 := by
  have hroom : g.refused metadata policy contended now = none →
      (g.entered metadata).len ≤ policy.max_graph_nodes.toNat := by
    intro hrefused
    have hcap := ((refused_eq_none_iff g metadata policy contended now).mp hrefused).2.2.2.1
    exact (len_entered_le g metadata).trans hcap
  have hadded := validate_and_add_added g metadata policy contended now
  generalize g.validate_and_add metadata policy contended now = result at hadded ⊢
  cases hadded with
  | refused decision hrefused => exact h
  | cycle hrefused hcycle =>
    refine h.mono (fun a m ha => ?_) ((g.len_withdrawn_le metadata).trans (hroom hrefused))
    rw [request_withdrawn] at ha
    split_ifs at ha with heq
    exact ha
  | entered hrefused hcycle =>
    refine ⟨?_, ?_, hroom hrefused⟩
    · rw [link_entered]
      by_contra hcyclic
      rw [(h.has_cycle_inner_iff hrid).mpr hcyclic] at hcycle
      cases hcycle
    · rw [request_entered, if_neg hrid.symm]
      exact h.root

theorem apply {call : GraphCall} (hrid : ∀ m, call.submits = some m → m.rid ≠ RID_ROOT) :
    Sound policy (call.apply policy g) := by
  cases call with
  | validate_and_add m contended now => exact h.validate_and_add (hrid m rfl) contended now
  | remove_request rid =>
    refine h.mono (fun a m ha => ?_) ((g.len_remove_request_le rid).trans h.bounded)
    rw [GraphCall.apply, request_remove_request] at ha
    split_ifs at ha with heq
    exact ha
  | evict_expired now =>
    refine h.mono (fun a m ha => ?_) ((g.nodes.len_drop_all_le (g.expired now)).trans h.bounded)
    rw [GraphCall.apply, request_evict_expired] at ha
    split_ifs at ha with hmem
    exact ha

omit h

theorem run {calls : List GraphCall}
    (hrid : ∀ call ∈ calls, ∀ m, call.submits = some m → m.rid ≠ RID_ROOT) :
    Sound policy (run policy calls) := by
  induction calls using reverseRecOn with
  | nil => exact .new
  | append_singleton calls call ih =>
    rw [run_append]
    exact (ih fun c hc => hrid c (mem_append_left _ hc)).apply
      (hrid call (mem_append_right _ (mem_singleton_self call)))

end Sound

/-- **The execution graph stays acyclic and bounded.** After any calls no stored request reaches
itself by the parents they name, the cycle check answers no for every request, and there are no more
requests than the policy allows. A request that is refused earlier leaves the graph as it is; one
that is not is refused if and only if its link would close a cycle. -/
theorem graph_acyclic_bounded (policy : AEGFPolicy) (calls : List GraphCall)
    (hrid : ∀ call ∈ calls, ∀ m, call.submits = some m → m.rid ≠ RID_ROOT) :
    Climb.Acyclic (run policy calls).nodes.link ∧
      (∀ rid, (run policy calls).detect_cycle rid = some false) ∧
      (run policy calls).nodes.len ≤ policy.max_graph_nodes.toNat ∧
      ∀ m contended now, m.rid ≠ RID_ROOT →
        (∀ decision, (run policy calls).refused m policy contended now = some decision →
          (run policy calls).validate_and_add m policy contended now =
            (run policy calls, decision)) ∧
        ((run policy calls).refused m policy contended now = none →
          (((run policy calls).validate_and_add m policy contended now).2 = .Review ↔
              ¬ Climb.Acyclic (Function.update (run policy calls).nodes.link m.rid (some m.prid))) ∧
            (((run policy calls).validate_and_add m policy contended now).2 = .Allow ↔ Climb.Acyclic
                (Function.update (run policy calls).nodes.link m.rid (some m.prid)))) := by
  have hsound : Sound policy (run policy calls) := .run hrid
  refine ⟨hsound.acyclic, hsound.detect_cycle, hsound.bounded, ?_⟩
  intro m contended now hm
  have hiff := hsound.has_cycle_inner_iff hm
  constructor
  · intro decision hdecision
    rw [validate_and_add, hdecision]
  · intro hnone
    rw [validate_and_add, hnone]
    by_cases hcycle : ((run policy calls).entered m).has_cycle_inner m.rid = some true
    · simp only [if_pos hcycle, true_iff, reduceCtorEq, false_iff]
      exact ⟨hiff.mp hcycle, hiff.mp hcycle⟩
    · simp only [if_neg hcycle, true_iff, reduceCtorEq, false_iff, not_not]
      exact ⟨not_not.mp (mt hiff.mpr hcycle), not_not.mp (mt hiff.mpr hcycle)⟩

def sampleRequest (rid prid oaid : Text) : AEGFMetadata :=
  ⟨[], rid, prid, [], oaid, 0, 0, .infinity false⟩

def sampleGraphCalls : List GraphCall :=
  [.validate_and_add (sampleRequest (ascii "r1") RID_ROOT (ascii "planner")) false 0,
    .validate_and_add (sampleRequest (ascii "r2") (ascii "r1") (ascii "worker")) false 0]

theorem graph_acyclic_bounded_sample : (run {} sampleGraphCalls).nodes.len = 2 ∧
      Climb.Acyclic (run {} sampleGraphCalls).nodes.link ∧
      ¬ Climb.Acyclic (Function.update (run {} sampleGraphCalls).nodes.link
        (ascii "r1") (some (ascii "r2"))) := by
  have hrid : ∀ call ∈ sampleGraphCalls, ∀ m, call.submits = some m → m.rid ≠ RID_ROOT := by
    intro call hcall m hm
    simp only [sampleGraphCalls, mem_cons, not_mem_nil, or_false] at hcall
    rcases hcall with rfl | rfl
    · obtain rfl := some.inj hm
      decide
    · obtain rfl := some.inj hm
      decide
  obtain ⟨hacyclic, -, -, hrefuse⟩ := graph_acyclic_bounded {} sampleGraphCalls hrid
  refine ⟨by decide +kernel, hacyclic, ?_⟩
  have hclosing := (hrefuse (sampleRequest (ascii "r1") (ascii "r2") (ascii "planner")) false 0
    (by decide)).2 (by decide +kernel)
  exact hclosing.1.mp (by decide +kernel)

/-! ## Requests that are refused -/

theorem get_withdrawn (g : DistributedExecutionGraph) (metadata : AEGFMetadata) (a : Text) :
    (g.withdrawn metadata).get a =
      if a = metadata.rid then none
      else if metadata.prid ≠ RID_ROOT ∧ a = metadata.prid then
        (g.nodes.get a).map (DEGNode.children_map (·.erase metadata.rid))
      else g.nodes.get a := by
  unfold withdrawn entered DegNodes.on_parent
  by_cases ha : a = metadata.rid
  · grind [get_modify, get_remove]
  split_ifs with hroot hparent hparent
  · cases hget : g.nodes.get a <;>
      simp [get_remove, get_insert, ha, ← hparent.2, hget, DEGNode.children_map]
  · simp [get_modify, get_remove, get_insert, ha, mt (And.intro hroot) hparent]
  · exact absurd hparent.1 hroot
  · simp [get_remove, get_insert, ha]

/-- The rid is not stored, and is no child of the parent that the request names. -/
def Unknown (g : DistributedExecutionGraph) (metadata : AEGFMetadata) : Prop :=
  g.nodes.get metadata.rid = none ∧ (metadata.prid ≠ RID_ROOT →
    ∀ node, g.nodes.get metadata.prid = some node → metadata.rid ∉ node.children)

/-- Nothing is left of a request that was entered and taken out again, exactly if it was unknown. -/
theorem withdrawn_same_iff (g : DistributedExecutionGraph) (metadata : AEGFMetadata) :
    (∀ a, (g.withdrawn metadata).get a = g.nodes.get a) ↔ g.Unknown metadata := by
  simp only [get_withdrawn]
  constructor
  · intro hsame
    have hnew := hsame metadata.rid
    rw [if_pos rfl] at hnew
    refine ⟨hnew.symm, fun hroot node hnode hchild => ?_⟩
    have hparent := hsame metadata.prid
    split_ifs at hparent with hself hprid
    · rw [hnode] at hparent
      cases hparent
    · rw [hnode] at hparent
      rw [← congrArg DEGNode.children (some.inj hparent)] at hchild
      exact Finset.notMem_erase metadata.rid node.children hchild
    · exact hprid ⟨hroot, rfl⟩
  · rintro ⟨hnew, hchild⟩ a
    split_ifs with ha hparent
    · rw [ha, hnew]
    · obtain ⟨hroot, rfl⟩ := hparent
      cases hnode : g.nodes.get metadata.prid with
      | none => rfl
      | some node =>
        simp [DEGNode.children_map, Finset.erase_eq_of_notMem (hchild hroot node hnode)]
    · rfl

/-- **When a refused request leaves the graph as it was**: it is refused before it is entered, or it
is unknown. -/
theorem refused_leaves_graph (g : DistributedExecutionGraph) (metadata : AEGFMetadata)
    (policy : AEGFPolicy) (contended : Bool) (now : ℚ)
    (hrefused : (g.validate_and_add metadata policy contended now).2 ≠ .Allow) :
    ((∀ a, (g.validate_and_add metadata policy contended now).1.nodes.get a = g.nodes.get a) ∧
        (g.validate_and_add metadata policy contended now).1.path_counts = g.path_counts) ↔
      g.refused metadata policy contended now ≠ none ∨ g.Unknown metadata := by
  generalize hadded : g.validate_and_add metadata policy contended now = result at *
  cases hadded ▸ g.validate_and_add_added metadata policy contended now with
  | refused decision hdecision =>
    exact iff_of_true ⟨fun _ => rfl, rfl⟩ (.inl (by simp [hdecision]))
  | cycle hnone =>
    simp only [hnone, ne_eq, not_true_eq_false, false_or, and_true]
    exact g.withdrawn_same_iff metadata
  | entered => exact absurd rfl hrefused

theorem refused_leaves_graph_sample :
    let g := run {} sampleGraphCalls
    let metadata := sampleRequest (ascii "r3") (ascii "r3") (ascii "worker")
    (g.validate_and_add metadata {} false 0).1.path_counts = g.path_counts :=
  ((refused_leaves_graph _ _ _ _ _ (by decide +kernel)).mpr
    (.inr ⟨by decide +kernel, fun _ => by decide +kernel⟩)).2

/-- **A refused request can take a node out.** `r1` is submitted again, below its own child. -/
theorem refused_resubmission_removes :
    let g := run {} sampleGraphCalls
    let result := g.validate_and_add (sampleRequest (ascii "r1") (ascii "r2") (ascii "planner"))
      {} false 0
    result.2 = .Review ∧ (g.nodes.get (ascii "r1")).isSome ∧
      result.1.nodes.get (ascii "r1") = none := by
  decide +kernel

end DistributedExecutionGraph

end Saacp
