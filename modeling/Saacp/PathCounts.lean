/-
The **repeated-path counters** of the execution graph: how often an agent has asked another one
while neither request was over.

What the counters should say is kept beside the graph: `edge` is the pair of agents of a request
that was admitted while its parent was stored, and `live` counts the stored requests with a given
pair. A counter comes down only in `remove_request`, and only if the parent is found there.
-/
import Saacp.ExecutionGraph

set_option autoImplicit false

open ByteCodec

namespace Saacp

open DegNodes List Option Table UInt32 Function

namespace DistributedExecutionGraph

/-- A graph, with the agents of each request that was admitted while its parent was stored. -/
structure GraphHistory where
  graph : DistributedExecutionGraph
  edge : Text → Option (Text × Text)

namespace GraphHistory

def new : GraphHistory := ⟨DistributedExecutionGraph.new, fun _ => none⟩

def pair (h : GraphHistory) (metadata : AEGFMetadata) : Option (Text × Text) :=
  (h.graph.nodes.parent metadata.prid).map fun parent => (parent.oaid, metadata.oaid)

variable (policy : AEGFPolicy)

def apply (h : GraphHistory) (call : GraphCall) : GraphHistory where
  graph := call.apply policy h.graph
  edge :=
    match call with
    | .validate_and_add metadata contended now =>
      if (h.graph.validate_and_add metadata policy contended now).2 = .Allow then
        Function.update h.edge metadata.rid (h.pair metadata)
      else h.edge
    | _ => h.edge

def run (calls : List GraphCall) : GraphHistory :=
  calls.foldl (apply policy) new

theorem run_append (calls : List GraphCall) (call : GraphCall) :
    run policy (calls ++ [call]) = (run policy calls).apply policy call := by
  rw [run, foldl_append]
  rfl

theorem graph_run (calls : List GraphCall) :
    (run policy calls).graph = DistributedExecutionGraph.run policy calls := by
  induction calls using List.reverseRecOn with
  | nil => rfl
  | append_singleton calls call ih =>
    rw [run_append, DistributedExecutionGraph.run_append, ← ih]
    rfl

/-- A request was admitted for agent `c` under a parent of agent `p`. -/
def under (edge : Text → Option (Text × Text)) (p c : Text) (metadata : AEGFMetadata) : Bool :=
  edge metadata.rid = some (p, c)

def live (h : GraphHistory) (p c : Text) : ℕ :=
  h.graph.nodes.count fun node => under h.edge p c node.metadata

/-- A request is removed while its parent is stored just if it was admitted so; none that was
counted is evicted. -/
def orderly (h : GraphHistory) : GraphCall → Bool
  | .validate_and_add _ _ _ => true
  | .remove_request rid => (h.graph.nodes.request rid).all fun m =>
      (h.graph.nodes.parent m.prid).isSome == (h.edge rid).isSome
  | .evict_expired now => (h.graph.expired now).all fun rid => (h.edge rid).isNone

def orderly_run (policy : AEGFPolicy) (h : GraphHistory) : List GraphCall → Bool
  | [] => true
  | call :: calls => h.orderly call && orderly_run policy (h.apply policy call) calls

theorem orderly_run_append (h : GraphHistory) (calls : List GraphCall) (call : GraphCall) :
    h.orderly_run policy (calls ++ [call]) =
      (h.orderly_run policy calls && (calls.foldl (apply policy) h).orderly call) := by
  induction calls generalizing h with
  | nil => simp [orderly_run]
  | cons c calls ih => rw [cons_append, orderly_run, orderly_run, ih, Bool.and_assoc]; rfl

end GraphHistory

/-! ## Counting nodes by their metadata -/

section Count

variable (nodes : DegNodes) {f : AEGFMetadata → Bool}

@[simp] theorem count_on_parent (prid : Text) (g : Finset Text → Finset Text) :
    (nodes.on_parent prid g).count (fun node => f node.metadata) =
      nodes.count fun node => f node.metadata := by
  unfold on_parent
  split_ifs with hroot
  · exact count_modify fun node _ => rfl
  · rfl

theorem count_drop_node {rid : Text} {m : AEGFMetadata} (hm : nodes.request rid = some m) :
    nodes.count (fun node => f node.metadata) =
      (nodes.drop_node rid).count (fun node => f node.metadata) + if f m then 1 else 0 := by
  obtain ⟨node, hnode, rfl⟩ := map_eq_some_iff.mp hm
  rw [drop_node, hnode, count_on_parent]
  exact count_remove_of_some hnode _

theorem count_drop_all {rids : List Text}
    (h : ∀ rid ∈ rids, ∀ m, nodes.request rid = some m → f m = false) :
    (rids.foldl drop_node nodes).count (fun node => f node.metadata) =
      nodes.count fun node => f node.metadata := by
  induction rids generalizing nodes with
  | nil => rfl
  | cons rid rids ih =>
    rw [foldl_cons, ih]
    · cases hm : nodes.request rid with
      | some m =>
        rw [count_drop_node nodes hm, h rid (mem_cons_self ..) m hm]
        rfl
      | none =>
        have hget : nodes.get rid = none := map_eq_none_iff.mp hm
        rw [drop_node, hget]
    · intro rid' hrid' m hm
      rw [request_drop_node] at hm
      split_ifs at hm
      exact h rid' (mem_cons_of_mem _ hrid') m hm

variable (g : DistributedExecutionGraph) {metadata : AEGFMetadata}

theorem count_entered (hfresh : g.nodes.request metadata.rid = none) :
    (g.entered metadata).count (fun node => f node.metadata) =
      g.nodes.count (fun node => f node.metadata) + if f metadata then 1 else 0 := by
  have hget : g.nodes.get metadata.rid = none := Option.map_eq_none_iff.mp hfresh
  rw [entered, count_on_parent, Table.count_insert, Table.count_remove_of_none hget]
  rfl

theorem count_withdrawn (hfresh : g.nodes.request metadata.rid = none) :
    (g.withdrawn metadata).count (fun node => f node.metadata) =
      g.nodes.count fun node => f node.metadata := by
  have hentered := count_entered (f := f) g hfresh
  have hm : (g.entered metadata).request metadata.rid = some metadata := by
    rw [request_entered, if_pos rfl]
  obtain ⟨node, hnode, hmeta⟩ := map_eq_some_iff.mp hm
  have hremove := count_remove_of_some hnode fun node => f node.metadata
  rw [hmeta] at hremove
  rw [withdrawn, count_on_parent]
  omega

end Count

/-! ## Counters -/

theorem path_count_count_path (g : DistributedExecutionGraph) (nodes : DegNodes)
    (parent : Option AEGFMetadata) (oaid p c : Text) :
    ({ nodes, path_counts := g.count_path parent oaid } : DistributedExecutionGraph).path_count p c
      =
      if parent.map (fun q => (q.oaid, oaid)) = some (p, c) then g.path_count p c + 1
      else g.path_count p c := by
  cases parent with
  | none => rfl
  | some q =>
    rw [path_count, count_path, get_insert, map_some]
    by_cases hpair : (q.oaid, oaid) = (p, c)
    · obtain ⟨rfl, rfl⟩ := Prod.mk.inj hpair
      rw [if_pos rfl, if_pos rfl]
      rfl
    · rw [if_neg (Ne.symm hpair), if_neg (fun h => hpair (Option.some.inj h))]
      rfl

theorem path_count_uncount_path (g : DistributedExecutionGraph) (nodes : DegNodes)
    (parent : Option AEGFMetadata) (oaid p c : Text) :
    (({ nodes, path_counts := g.uncount_path parent oaid } : DistributedExecutionGraph).path_count
        p c).toNat =
      if parent.map (fun q => (q.oaid, oaid)) = some (p, c) then (g.path_count p c).toNat - 1
      else (g.path_count p c).toNat := by
  cases parent with
  | none => rfl
  | some q =>
    rw [path_count, uncount_path, get_modify, map_some]
    by_cases hpair : (q.oaid, oaid) = (p, c)
    · obtain ⟨rfl, rfl⟩ := Prod.mk.inj hpair
      rw [if_pos rfl, if_pos rfl, path_count]
      cases g.path_counts.get (q.oaid, oaid) with
      | none => rfl
      | some count =>
        simp only [map_some, getD_some]
        split_ifs with hzero
        · rw [hzero]
          rfl
        · have hpos : 1 ≤ count.toNat := by
            rcases Nat.eq_zero_or_pos count.toNat with h0 | hpos
            · exact absurd (UInt32.toNat_inj.mp h0) hzero
            · exact hpos
          have hle : (1 : UInt32) ≤ count := le_iff_toNat_le.mpr hpos
          rw [UInt32.toNat_sub_of_le _ _ hle]
          rfl
    · rw [if_neg (Ne.symm hpair), if_neg (fun h => hpair (Option.some.inj h))]
      rfl

theorem path_count_evict_expired (g : DistributedExecutionGraph) (now : ℚ) (p c : Text) :
    (g.evict_expired now).1.path_count p c = g.path_count p c := by
  unfold path_count evict_expired
  cases hretain : (g.path_counts.retain fun _ count => 0 < count).get (p, c) with
  | some count => rw [(get_retain.mp hretain).1]
  | none =>
    cases hget : g.path_counts.get (p, c) with
    | none => rfl
    | some count =>
      have hpos : ¬ 0 < count := by
        intro hpos
        rw [get_retain.mpr ⟨hget, decide_eq_true hpos⟩] at hretain
        cases hretain
      rw [UInt32.le_antisymm (UInt32.not_lt.mp hpos) UInt32.zero_le]
      rfl

/-! ## The parent of an admitted request -/

theorem parent_entered {g : DistributedExecutionGraph} {metadata : AEGFMetadata}
    (hcycle : (g.entered metadata).has_cycle_inner metadata.rid = some false) :
    (g.entered metadata).parent metadata.prid = g.nodes.parent metadata.prid ∧
      (metadata.prid = metadata.rid → metadata.rid = RID_ROOT) := by
  by_cases hroot : metadata.prid = RID_ROOT
  · simp only [parent, hroot, ne_eq, not_true_eq_false, if_false, true_and]
    exact Eq.symm
  · have hself : metadata.prid ≠ metadata.rid := by
      intro hself
      have hlink : (g.entered metadata).link metadata.rid = some metadata.prid := by
        rw [link_entered, update_self]
      obtain ⟨node, hnode, hprid⟩ := map_eq_some_iff.mp hlink
      rw [has_cycle_inner, hnode] at hcycle
      simp only [hprid, Climb.climb, if_neg hroot, if_pos hself] at hcycle
      cases hcycle
    refine ⟨?_, fun h => absurd h hself⟩
    simp only [parent, request_entered, if_neg hself]

/-! ## The counters along a run -/

namespace GraphHistory

/-- The counters are those of the stored requests. `used` are the ids submitted so far. -/
structure Counts (used : List Text) (h : GraphHistory) : Prop where
  stored : ∀ a m, h.graph.nodes.request a = some m →
    m.rid = a ∧ a ∈ used ∧ (m.prid = m.rid → m.rid = RID_ROOT)
  agents : ∀ a m p c, h.graph.nodes.request a = some m → h.edge a = some (p, c) →
    m.oaid = c ∧ m.prid ∈ used ∧ ∀ q, h.graph.nodes.request m.prid = some q → q.oaid = p
  counted : ∀ p c, (h.graph.path_count p c).toNat = h.live p c

namespace Counts

variable {used : List Text} {policy : AEGFPolicy} {h : GraphHistory}

theorem new : Counts [] GraphHistory.new where
  stored := by intro a m ha; cases ha
  agents := by intro a m p c ha; cases ha
  counted _ _ := rfl

variable (hc : Counts used h)
include hc

theorem mono {g : DistributedExecutionGraph} {used' : List Text} (hused : used ⊆ used')
    (hrequest : ∀ a m, g.nodes.request a = some m → h.graph.nodes.request a = some m)
    (hcounted : ∀ p c, (g.path_count p c).toNat = (⟨g, h.edge⟩ : GraphHistory).live p c) :
    Counts used' ⟨g, h.edge⟩ where
  stored a m ha := by
    obtain ⟨hrid, hmem, hself⟩ := hc.stored a m (hrequest a m ha)
    exact ⟨hrid, hused hmem, hself⟩
  agents a m p c ha hedge := by
    obtain ⟨hoaid, hmem, hparent⟩ := hc.agents a m p c (hrequest a m ha) hedge
    exact ⟨hoaid, hused hmem, fun q hq => hparent q (hrequest _ q hq)⟩
  counted := hcounted

theorem fresh {rid : Text} (hfresh : rid ∉ used) : h.graph.nodes.request rid = none := by
  cases hm : h.graph.nodes.request rid with
  | none => rfl
  | some m => exact absurd (hc.stored rid m hm).2.1 hfresh

theorem live_entered {m : AEGFMetadata} (hfresh : m.rid ∉ used) (p c : Text) :
    ((h.graph.entered m).count fun node =>
        under (update h.edge m.rid (h.pair m)) p c node.metadata) =
      h.live p c + if h.pair m = some (p, c) then 1 else 0 := by
  have hold : (h.graph.nodes.count fun node =>
      under (update h.edge m.rid (h.pair m)) p c node.metadata) = h.live p c := by
    refine countP_congr fun e he => ?_
    obtain ⟨hrid, hmem, -⟩ := hc.stored e.1 e.2.metadata (by rw [request, get_eq_some.mpr he]; rfl)
    have hne : e.2.metadata.rid ≠ m.rid := by
      rw [hrid]
      exact fun heq => hfresh (heq ▸ hmem)
    simp only [under, update_of_ne hne]
  rw [count_entered h.graph (hc.fresh hfresh), hold]
  simp only [under, update_self, decide_eq_true_eq]

theorem entered {m : AEGFMetadata} (hfresh : m.rid ∉ used)
    (hcycle : (h.graph.entered m).has_cycle_inner m.rid = some false)
    (hpath : h.graph.detect_repeated_path m = false) :
    Counts (m.rid :: used)
      { graph := { nodes := h.graph.entered m
                   path_counts := h.graph.count_path ((h.graph.entered m).parent m.prid) m.oaid }
        edge := update h.edge m.rid (h.pair m) } := by
  obtain ⟨hparent, hself⟩ := parent_entered hcycle
  rw [hparent]
  constructor
  case stored =>
    intro a x ha
    simp only [request_entered] at ha
    split_ifs at ha with heq
    · obtain rfl := Option.some.inj ha
      exact ⟨heq.symm, heq ▸ mem_cons_self .., hself⟩
    · obtain ⟨hrid, hmem, hself'⟩ := hc.stored a x ha
      exact ⟨hrid, mem_cons_of_mem _ hmem, hself'⟩
  case agents =>
    intro a x p c ha hedge
    simp only [request_entered] at ha hedge ⊢
    split_ifs at ha with heq
    · -- the request itself: its parent is the one it was admitted under
      obtain rfl := Option.some.inj ha
      rw [heq, update_self] at hedge
      obtain ⟨q, hq, hpair⟩ := map_eq_some_iff.mp hedge
      obtain ⟨rfl, rfl⟩ := Prod.mk.inj hpair
      unfold parent at hq
      split_ifs at hq with hroot
      refine ⟨rfl, mem_cons_of_mem _ (hc.stored _ q hq).2.1, ?_⟩
      intro q' hq'
      rw [if_neg (fun h => hroot (h.trans (hself h))), hq] at hq'
      rw [Option.some.inj hq']
    · rw [update_of_ne heq] at hedge
      obtain ⟨hoaid, hmem, hparent'⟩ := hc.agents a x p c ha hedge
      have hne : x.prid ≠ m.rid := fun heq => hfresh (heq ▸ hmem)
      refine ⟨hoaid, mem_cons_of_mem _ hmem, fun q hq => ?_⟩
      rw [if_neg hne] at hq
      exact hparent' q hq
  case counted =>
    intro p c
    rw [live, hc.live_entered hfresh, path_count_count_path, ← pair]
    split_ifs with hpair
    · -- below the threshold the counter does not wrap around
      obtain ⟨q, hq, heq⟩ := map_eq_some_iff.mp hpair
      obtain ⟨rfl, rfl⟩ := Prod.mk.inj heq
      rw [detect_repeated_path, hq] at hpath
      have hlt : (h.graph.path_count q.oaid m.oaid).toNat < 2 :=
        UInt32.lt_iff_toNat_lt.mp (UInt32.not_le.mp (of_decide_eq_false hpath))
      rw [← hc.counted, UInt32.toNat_add]
      exact Nat.mod_eq_of_lt (by
        rw [show toNat 1 = 1 from rfl]
        omega)
    · rw [hc.counted]
      rfl

theorem validate_and_add {m : AEGFMetadata} (hfresh : m.rid ∉ used) (contended : Bool) (now : ℚ) :
    Counts (m.rid :: used) (h.apply policy (.validate_and_add m contended now)) := by
  have hadded := validate_and_add_added h.graph m policy contended now
  simp only [apply, GraphCall.apply]
  generalize h.graph.validate_and_add m policy contended now = result at hadded ⊢
  cases hadded with
  | refused decision hrefused =>
    have hne : decision ≠ .Allow := by
      rintro rfl
      unfold DistributedExecutionGraph.refused at hrefused
      split_ifs at hrefused <;> cases hrefused
    rw [if_neg hne]
    exact hc.mono (subset_cons_self _ _) (fun _ _ ha => ha) hc.counted
  | cycle hrefused hcycle =>
    rw [if_neg GovernanceDecision.noConfusion]
    refine hc.mono (subset_cons_self _ _) (fun a x ha => ?_) (fun p c => ?_)
    · rw [request_withdrawn] at ha
      split_ifs at ha
      exact ha
    · rw [live, count_withdrawn h.graph (hc.fresh hfresh)]
      exact hc.counted p c
  | entered hrefused hcycle =>
    rw [if_pos rfl]
    exact hc.entered hfresh hcycle
      ((refused_eq_none_iff h.graph m policy contended now).mp hrefused).2.2.2.2

theorem remove_request {rid : Text} (horderly : h.orderly (.remove_request rid) = true) :
    Counts used (h.apply policy (.remove_request rid)) := by
  refine hc.mono (List.Subset.refl _) (fun a x ha => ?_) (fun p c => ?_)
  · rw [GraphCall.apply, request_remove_request] at ha
    split_ifs at ha
    exact ha
  · rw [GraphCall.apply, DistributedExecutionGraph.remove_request]
    cases hget : h.graph.nodes.get rid with
    | none => exact hc.counted p c
    | some node =>
      have hm : h.graph.nodes.request rid = some node.metadata := by
        rw [request, hget]
        rfl
      obtain ⟨hrid, -, hself⟩ := hc.stored rid _ hm
      have hdrop := count_drop_node h.graph.nodes (f := under h.edge p c) hm
      have hcounted := hc.counted p c
      have hparent : (h.graph.nodes.drop_node rid).parent node.prid =
          h.graph.nodes.parent node.metadata.prid := by
        rw [node.prid_eq, parent, parent, request_drop_node]
        split_ifs with hroot heq
        · exact absurd (heq.trans (hrid ▸ hself (heq.trans hrid.symm))) hroot
        · rfl
        · rfl
      rw [under, hrid] at hdrop
      simp only [live, decide_eq_true_eq] at hdrop hcounted ⊢
      rw [path_count_uncount_path, hparent]
      have hiff : (h.graph.nodes.parent node.metadata.prid).isSome = (h.edge rid).isSome := by
        rw [orderly, hm] at horderly
        exact beq_iff_eq.mp horderly
      cases hedge : h.edge rid with
      | none =>
        rw [hedge] at hiff hdrop
        have hnone : h.graph.nodes.parent node.metadata.prid = none :=
          isNone_iff_eq_none.mp (by rw [← not_isSome, hiff]; rfl)
        rw [hnone]
        simp only [map_none, reduceCtorEq, if_false, Nat.add_zero] at hdrop ⊢
        omega
      | some pair =>
        obtain ⟨p', c'⟩ := pair
        obtain ⟨q, hq⟩ := isSome_iff_exists.mp (hiff.trans (by rw [hedge]; rfl))
        obtain ⟨hoaid, -, hagent⟩ := hc.agents rid _ p' c' hm hedge
        have hq' : h.graph.nodes.request node.metadata.prid = some q := by
          unfold parent at hq
          split_ifs at hq
          exact hq
        rw [hedge] at hdrop
        rw [hq, map_some, hagent q hq', hoaid]
        split_ifs at hdrop ⊢ <;> omega

theorem evict_expired {now : ℚ} (horderly : h.orderly (.evict_expired now) = true) :
    Counts used (h.apply policy (.evict_expired now)) := by
  refine hc.mono (List.Subset.refl _) (fun a x ha => ?_) (fun p c => ?_)
  · rw [GraphCall.apply, request_evict_expired] at ha
    split_ifs at ha
    exact ha
  · rw [GraphCall.apply, path_count_evict_expired, hc.counted, live, live]
    refine (count_drop_all h.graph.nodes ?_).symm
    intro rid hrid m hm
    obtain ⟨e, he, rfl⟩ := mem_map.mp hrid
    obtain ⟨hmem, hexpired⟩ := mem_filter.mp he
    have hget : h.graph.nodes.get e.1 = some e.2 := mem_entries.mp hmem
    rw [request, hget] at hm
    obtain rfl := Option.some.inj hm
    have hrequest : h.graph.nodes.request e.1 = some e.2.metadata := by
      rw [request, hget]
      rfl
    have hnone : h.edge e.1 = none := isNone_iff_eq_none.mp (all_eq_true.mp horderly e.1 hrid)
    rw [under, (hc.stored _ _ hrequest).1, hnone]
    rfl

end Counts

def submitted (calls : List GraphCall) : List Text :=
  (calls.reverse.filterMap GraphCall.submits).map AEGFMetadata.rid

theorem submitted_append (calls : List GraphCall) (call : GraphCall) : submitted (calls ++ [call]) =
      (call.submits.map AEGFMetadata.rid).toList ++ submitted calls := by
  unfold submitted
  rw [reverse_append, reverse_singleton, singleton_append, filterMap_cons]
  cases call.submits <;> rfl

theorem counts_run {policy : AEGFPolicy} {calls : List GraphCall}
    (hdistinct : (submitted calls).Nodup) (horderly : new.orderly_run policy calls = true) :
    Counts (submitted calls) (run policy calls) := by
  induction calls using List.reverseRecOn with
  | nil => exact .new
  | append_singleton calls call ih =>
    rw [submitted_append] at hdistinct ⊢
    rw [orderly_run_append, Bool.and_eq_true] at horderly
    obtain ⟨hbefore, hlast⟩ := horderly
    have hc := ih hdistinct.of_append_right hbefore
    rw [run_append]
    cases call with
    | validate_and_add m contended now =>
      exact hc.validate_and_add (nodup_cons.mp hdistinct).1 contended now
    | remove_request rid => exact hc.remove_request hlast
    | evict_expired now => exact hc.evict_expired hlast

end GraphHistory

/-- **The counters count live edges**, if requests are removed before their parents and what was
counted is not evicted: a counter is the number of stored requests that were admitted under its
pair of agents, and with none of them left a repeated path is not found. -/
theorem path_counts_live (policy : AEGFPolicy) (calls : List GraphCall)
    (hdistinct : (GraphHistory.submitted calls).Nodup)
    (horderly : GraphHistory.new.orderly_run policy calls = true) (p c : Text) :
    ((run policy calls).path_count p c).toNat = (GraphHistory.run policy calls).live p c ∧
      ((GraphHistory.run policy calls).live p c = 0 → ∀ m q,
        (run policy calls).nodes.parent m.prid = some q → q.oaid = p → m.oaid = c →
          (run policy calls).detect_repeated_path m = false) := by
  have hcounts := (GraphHistory.counts_run hdistinct horderly).counted p c
  rw [GraphHistory.graph_run] at hcounts
  refine ⟨hcounts, fun hnone m q hq hp hc => ?_⟩
  subst hp hc
  have hzero : (run policy calls).path_count q.oaid m.oaid = 0 := by
    apply UInt32.toNat_inj.mp
    rw [hcounts, hnone]
    rfl
  rw [detect_repeated_path, hq]
  simp only [hzero]
  decide

def sampleExchange (parent child : String) (order : List String) : List GraphCall :=
  [.validate_and_add (sampleRequest (ascii parent) RID_ROOT (ascii "planner")) false 0,
    .validate_and_add (sampleRequest (ascii child) (ascii parent) (ascii "worker")) false 0] ++
    order.map fun rid => .remove_request (ascii rid)

def sampleOrderly : List GraphCall :=
  sampleExchange "r1" "r2" ["r2", "r1"] ++ sampleExchange "r3" "r4" []

theorem path_counts_live_sample :
    (GraphHistory.run {} sampleOrderly).live (ascii "planner") (ascii "worker") = 1 ∧
      ((run {} sampleOrderly).path_count (ascii "planner") (ascii "worker")).toNat =
        (GraphHistory.run {} sampleOrderly).live (ascii "planner") (ascii "worker") :=
  ⟨by decide +kernel,
    (path_counts_live {} sampleOrderly (by decide +kernel) (by decide +kernel) _ _).1⟩

def samplePlannerFirst : List GraphCall :=
  sampleExchange "r1" "r2" ["r1", "r2"] ++ sampleExchange "r3" "r4" ["r3", "r4"] ++
    [.validate_and_add (sampleRequest (ascii "r5") RID_ROOT (ascii "planner")) false 0]

/-- **Finished paths are still counted** when the parents were removed first: no request of the
worker is stored, the counter is 2, and the next request of the worker is sent to review. -/
theorem finished_paths_still_counted : (GraphHistory.submitted samplePlannerFirst).Nodup ∧
      (GraphHistory.run {} samplePlannerFirst).live (ascii "planner") (ascii "worker") = 0 ∧
      (run {} samplePlannerFirst).path_count (ascii "planner") (ascii "worker") = 2 ∧
      ((run {} samplePlannerFirst).validate_and_add
        (sampleRequest (ascii "r6") (ascii "r5") (ascii "worker")) {} false 0).2 = .Review := by
  decide +kernel

end DistributedExecutionGraph

end Saacp
