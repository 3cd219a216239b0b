/-
The **execution governor**: the execution graph, a state machine with one record for each request,
and the policy that both are checked against.

A submission is checked by the graph first and registered in the state machine afterwards. If the
id is registered already the answer no longer depends on the check. A message shows the first eight
bytes of an id, and making it panics where these do not end between two characters. A call that
panics has no answer here; what it had written before stays.
-/
import Saacp.ExecutionGraph
import Saacp.TokenChains

set_option autoImplicit false

open ByteCodec

namespace Saacp

/-! ## Execution states -/

inductive ExecutionState
  | Created
  | Processing
  | WaitingAgentResponse
  | WaitingExternalResource
  | WaitingHumanReview
  | Paused
  | Completed
  | Failed
  | Terminated
  | Expired
  deriving DecidableEq

namespace ExecutionState

def is_terminal : ExecutionState → Bool
  | Completed | Failed | Terminated | Expired => true
  | _ => false

def allowed_transitions : ExecutionState → List ExecutionState
  | Created =>
    [Processing, WaitingHumanReview, Paused, Completed, Failed, Terminated, Expired]
  | Processing =>
    [WaitingAgentResponse, WaitingExternalResource, WaitingHumanReview, Paused, Completed, Failed,
      Terminated, Expired]
  | WaitingAgentResponse =>
    [Processing, WaitingHumanReview, Paused, Completed, Failed, Terminated, Expired]
  | WaitingExternalResource =>
    [Processing, WaitingHumanReview, Paused, Completed, Failed, Terminated, Expired]
  | WaitingHumanReview => [Processing, Paused, Completed, Failed, Terminated, Expired]
  | Paused => [Processing, WaitingHumanReview, Completed, Failed, Terminated, Expired]
  | Completed | Failed | Terminated | Expired => []

def debug : ExecutionState → String
  | Created => "Created"
  | Processing => "Processing"
  | WaitingAgentResponse => "WaitingAgentResponse"
  | WaitingExternalResource => "WaitingExternalResource"
  | WaitingHumanReview => "WaitingHumanReview"
  | Paused => "Paused"
  | Completed => "Completed"
  | Failed => "Failed"
  | Terminated => "Terminated"
  | Expired => "Expired"

end ExecutionState

structure StateRecord where
  state : ExecutionState
  reason : Text
  updated_at : ℚ
  created_at : ℚ

def ESM_MAX_ENTRIES : ℕ := 100000

structure ExecutionStateMachine where
  states : Table Text StateRecord

namespace ExecutionStateMachine

open DelegationChainValidator (head8)

def new : ExecutionStateMachine := ⟨.empty⟩

/-- `evict_if_needed`: up to 10000 terminal records, then the 1000 oldest of any state. -/
def evict_if_needed (order : MapOrder StateRecord) (states : Table Text StateRecord) :
    Table Text StateRecord :=
  if states.len < ESM_MAX_ENTRIES then states
  else
    let terminal := ((order.walk states.entries).filter fun e => e.2.state.is_terminal).take 10000
    let states := states.removeAll (terminal.map Prod.fst)
    if ESM_MAX_ENTRIES ≤ states.len then
      let entries := (order.walk states.entries).insertionSort fun a b =>
        a.2.updated_at ≤ b.2.updated_at
      states.removeAll ((entries.take 1000).map Prod.fst)
    else states

variable (esm : ExecutionStateMachine)

def create (order : MapOrder StateRecord) (now : ℚ) (rid reason : Text) :
    ExecutionStateMachine × Option (Except String ExecutionState) :=
  if esm.states.contains rid then
    (esm, (head8 rid).map fun id => .error s!"RID {display id}… already registered in ESM.")
  else
    (⟨(evict_if_needed order esm.states).insert rid ⟨.Created, reason, now, now⟩⟩,
      some (.ok .Created))

def transition (now : ℚ) (rid : Text) (new_state : ExecutionState) (reason : Text) :
    ExecutionStateMachine × Option (Result ExecutionState) :=
  match esm.states.get rid with
  | none =>
    (esm, (head8 rid).map fun id => .error ⟨.AegfInvalidTransition,
      s!"RID {display id}… not found in ESM — cannot transition to {new_state.debug}."⟩)
  | some rec =>
    if new_state ∈ rec.state.allowed_transitions then
      (⟨esm.states.insert rid { rec with state := new_state, reason, updated_at := now }⟩,
        some (.ok new_state))
    else
      (esm, (head8 rid).map fun id => .error ⟨.AegfInvalidTransition,
        s!"Illegal ESM transition: {rec.state.debug} → {new_state.debug} for RID {display id}…"⟩)

def get_state (rid : Text) : Option ExecutionState := (esm.states.get rid).map StateRecord.state

def older (now updated_at : ℚ) : Double → Bool
  | .number age => updated_at < now - age.toRat
  | .infinity negative => negative
  | .nan => false

def expire_old (now : ℚ) (max_age_seconds : Double) : ExecutionStateMachine × ℕ :=
  let to_remove := (esm.states.entries.filter fun e =>
    e.2.state.is_terminal && older now e.2.updated_at max_age_seconds).map Prod.fst
  (⟨esm.states.removeAll to_remove⟩, to_remove.length)

theorem create_of_none {esm : ExecutionStateMachine} {rid : Text} (h : esm.get_state rid = none)
    (order : MapOrder StateRecord) (now : ℚ) (reason : Text) :
    ∃ esm', esm.create order now rid reason = (esm', some (.ok .Created)) ∧
      esm'.get_state rid = some .Created := by
  have hget : esm.states.get rid = none := Option.map_eq_none_iff.mp h
  rw [create, Table.contains, hget, if_neg (by decide)]
  refine ⟨_, rfl, ?_⟩
  rw [get_state, Table.get_insert_self]
  rfl

theorem transition_of_allowed {esm : ExecutionStateMachine} {rid : Text}
    {state new_state : ExecutionState} (h : esm.get_state rid = some state)
    (hallowed : new_state ∈ state.allowed_transitions) (now : ℚ) (reason : Text) :
    ∃ esm', esm.transition now rid new_state reason = (esm', some (.ok new_state)) ∧
      esm'.get_state rid = some new_state := by
  obtain ⟨rec, hrec, rfl⟩ := Option.map_eq_some_iff.mp h
  simp only [transition, hrec, if_pos hallowed]
  refine ⟨_, rfl, ?_⟩
  rw [get_state, Table.get_insert_self]
  rfl

end ExecutionStateMachine

/-! ## The governor -/

def GovernanceDecision.recorded : GovernanceDecision → ExecutionState × Text
  | Allow => (.Processing, ascii "governance_allow")
  | Pause => (.Paused, ascii "governance_pause")
  | Review => (.WaitingHumanReview, ascii "governance_review")
  | Terminate => (.Terminated, ascii "governance_terminate")

structure AEGFGovernor where
  policy : AEGFPolicy
  deg : DistributedExecutionGraph
  esm : ExecutionStateMachine

/-- What a submission reads: the clock four times, whether the lock is free, and the order of the
records. -/
structure SubmitReads where
  arrival : ℚ
  checked : ℚ
  created : ℚ
  updated : ℚ
  contended : Bool
  order : MapOrder StateRecord

namespace AEGFGovernor

def new (policy : Option AEGFPolicy) : AEGFGovernor :=
  ⟨policy.getD {}, DistributedExecutionGraph.new, ExecutionStateMachine.new⟩

variable (gov : AEGFGovernor)

def checked (metadata : AEGFMetadata) (reads : SubmitReads) :
    DistributedExecutionGraph × GovernanceDecision :=
  gov.deg.validate_and_add metadata gov.policy reads.contended reads.checked

def submit_request (metadata : AEGFMetadata) (reads : SubmitReads) :
    AEGFGovernor × Option GovernanceDecision :=
  if metadata.is_expired reads.arrival then
    match gov.esm.create reads.order reads.created metadata.rid (ascii "expired_on_arrival") with
    | (esm, none) => ({ gov with esm }, none)
    | (esm, some _) =>
      match esm.transition reads.updated metadata.rid .Expired (ascii "TTL expired") with
      | (esm, none) => ({ gov with esm }, none)
      | (esm, some _) => ({ gov with esm }, some .Terminate)
  else
    let (deg, decision) := gov.checked metadata reads
    match gov.esm.create reads.order reads.created metadata.rid (ascii "submitted") with
    | (esm, none) => ({ gov with deg, esm }, none)
    | (esm, some (.error _)) =>
      -- registered before: the decision of the graph is not looked at
      let terminal := (esm.get_state metadata.rid).any ExecutionState.is_terminal
      ({ gov with deg, esm }, some (if terminal then .Terminate else .Allow))
    | (esm, some (.ok _)) =>
      match esm.transition reads.updated metadata.rid decision.recorded.1 decision.recorded.2 with
      | (esm, none) => ({ gov with deg, esm }, none)
      | (esm, some _) => ({ gov with deg, esm }, some decision)

def complete_request (rid : Text) (outcome : Option ExecutionState) (now : ℚ) : AEGFGovernor :=
  let terminal :=
    match outcome with
    | some s => if s.is_terminal then s else .Completed
    | none => .Completed
  match gov.esm.transition now rid terminal (ascii "completed") with
  | (esm, none) => { gov with esm }
  | (esm, some _) => { gov with esm, deg := gov.deg.remove_request rid }

def pause_request (rid reason : Text) (now : ℚ) : AEGFGovernor :=
  { gov with esm := (gov.esm.transition now rid .Paused reason).1 }

def escalate_to_review (rid reason : Text) (now : ℚ) : AEGFGovernor :=
  { gov with esm := (gov.esm.transition now rid .WaitingHumanReview reason).1 }

def set_policy (policy : AEGFPolicy) : AEGFGovernor := { gov with policy }

/-- `expire_stale_requests`, at a reading for the records and one for the graph. -/
def expire_stale_requests (now now_deg : ℚ) : AEGFGovernor × ℕ :=
  let (esm, esm_evicted) := gov.esm.expire_old now gov.policy.esm_gc_age_seconds
  let (deg, deg_evicted) := gov.deg.evict_expired now_deg
  ({ gov with esm, deg }, esm_evicted + deg_evicted)

/-! ## Runs -/

inductive GovernorCall
  | submit_request (metadata : AEGFMetadata) (reads : SubmitReads)
  | complete_request (rid : Text) (outcome : Option ExecutionState) (now : ℚ)
  | pause_request (rid reason : Text) (now : ℚ)
  | escalate_to_review (rid reason : Text) (now : ℚ)
  | set_policy (policy : AEGFPolicy)
  | expire_stale_requests (now now_deg : ℚ)

def apply (gov : AEGFGovernor) : GovernorCall → AEGFGovernor
  | .submit_request metadata reads => (gov.submit_request metadata reads).1
  | .complete_request rid outcome now => gov.complete_request rid outcome now
  | .pause_request rid reason now => gov.pause_request rid reason now
  | .escalate_to_review rid reason now => gov.escalate_to_review rid reason now
  | .set_policy policy => gov.set_policy policy
  | .expire_stale_requests now now_deg => (gov.expire_stale_requests now now_deg).1

def run (policy : Option AEGFPolicy) (calls : List GovernorCall) : AEGFGovernor :=
  calls.foldl apply (new policy)

/-! ## What a submission answers -/

variable {gov} {metadata : AEGFMetadata} {reads : SubmitReads}

theorem bounds_of_checked (h : (gov.checked metadata reads).2 = .Allow) :
    metadata.is_expired reads.checked = false ∧ metadata.hc ≤ gov.policy.max_hop_count ∧
      metadata.ed ≤ gov.policy.max_execution_depth := by
  have hnone : gov.deg.refused metadata gov.policy reads.contended reads.checked = none := by
    cases hrefused : gov.deg.refused metadata gov.policy reads.contended reads.checked with
    | none => rfl
    | some decision =>
      rw [checked, DistributedExecutionGraph.validate_and_add, hrefused] at h
      obtain rfl : decision = .Allow := h
      unfold DistributedExecutionGraph.refused at hrefused
      split_ifs at hrefused <;> cases hrefused
  obtain ⟨hexpired, hhops, hdepth, -⟩ :=
    (DistributedExecutionGraph.refused_eq_none_iff _ _ _ _ _).mp hnone
  exact ⟨hexpired, hhops, hdepth⟩

theorem submit_request_of_none (hexpired : metadata.is_expired reads.arrival = false)
    (h : gov.esm.get_state metadata.rid = none) :
    (gov.submit_request metadata reads).2 = some (gov.checked metadata reads).2 ∧
      (gov.submit_request metadata reads).1.esm.get_state metadata.rid =
        some (gov.checked metadata reads).2.recorded.1 := by
  obtain ⟨esm, hcreate, hcreated⟩ :=
    ExecutionStateMachine.create_of_none h reads.order reads.created (ascii "submitted")
  have hallowed : (gov.checked metadata reads).2.recorded.1 ∈
      ExecutionState.Created.allowed_transitions := by
    cases (gov.checked metadata reads).2 <;> decide
  obtain ⟨esm', htransition, hstate⟩ := ExecutionStateMachine.transition_of_allowed hcreated
    hallowed reads.updated (gov.checked metadata reads).2.recorded.2
  simp only [submit_request, hexpired, hcreate, htransition]
  exact ⟨rfl, hstate⟩

theorem submit_request_of_some (hexpired : metadata.is_expired reads.arrival = false)
    {state : ExecutionState} (h : gov.esm.get_state metadata.rid = some state)
    (hallow : (gov.submit_request metadata reads).2 = some .Allow) :
    state.is_terminal = false ∧
      (gov.submit_request metadata reads).1.esm.get_state metadata.rid = some state := by
  have hstored : gov.esm.states.contains metadata.rid = true := by
    obtain ⟨rec, hrec, -⟩ := Option.map_eq_some_iff.mp h
    rw [Table.contains, hrec]
    rfl
  cases hhead : DelegationChainValidator.head8 metadata.rid with
  | none =>
    simp only [submit_request, hexpired, ExecutionStateMachine.create, hstored, hhead] at hallow
    cases hallow
  | some id =>
    simp only [submit_request, hexpired, ExecutionStateMachine.create, hstored, if_true, hhead,
      Option.map_some, h, Option.any_some] at hallow ⊢
    cases hterminal : state.is_terminal with
    | true =>
      rw [hterminal] at hallow
      cases hallow
    | false => exact ⟨rfl, h⟩

theorem not_expired_of_allow (hallow : (gov.submit_request metadata reads).2 = some .Allow) :
    metadata.is_expired reads.arrival = false := by
  cases hexpired : metadata.is_expired reads.arrival with
  | false => rfl
  | true =>
    rw [submit_request, if_pos hexpired] at hallow
    split at hallow
    · cases hallow
    · split at hallow <;> cases hallow

/-- **When what is allowed is governed**: exactly if its id is new, or it is registered in a state
in which it was not stopped and the request is itself unexpired and within the policy. -/
theorem allowed_request_governed (policy : Option AEGFPolicy) (calls : List GovernorCall)
    (metadata : AEGFMetadata) (reads : SubmitReads)
    (hallow : ((run policy calls).submit_request metadata reads).2 = some .Allow) :
    let gov := run policy calls
    (metadata.is_expired reads.arrival = false ∧ metadata.is_expired reads.checked = false ∧
      metadata.hc ≤ gov.policy.max_hop_count ∧ metadata.ed ≤ gov.policy.max_execution_depth ∧
      ∃ state, (gov.submit_request metadata reads).1.esm.get_state metadata.rid = some state ∧
        state ≠ .Paused ∧ state ≠ .WaitingHumanReview ∧ state.is_terminal = false) ↔
    ∀ state, gov.esm.get_state metadata.rid = some state →
      state ≠ .Paused ∧ state ≠ .WaitingHumanReview ∧ metadata.is_expired reads.checked = false ∧
        metadata.hc ≤ gov.policy.max_hop_count ∧ metadata.ed ≤ gov.policy.max_execution_depth := by
  intro gov
  have hexpired := not_expired_of_allow hallow
  cases hget : gov.esm.get_state metadata.rid with
  | none =>
    obtain ⟨hanswer, hrecorded⟩ := submit_request_of_none hexpired hget
    have hchecked : (gov.checked metadata reads).2 = .Allow :=
      Option.some.inj (hanswer.symm.trans hallow)
    obtain ⟨hlive, hhops, hdepth⟩ := bounds_of_checked hchecked
    rw [hchecked] at hrecorded
    exact iff_of_true ⟨hexpired, hlive, hhops, hdepth, .Processing, hrecorded, by decide, by decide,
      by decide⟩ fun state hstate => by cases hstate
  | some state =>
    obtain ⟨hterminal, hafter⟩ := submit_request_of_some hexpired hget hallow
    constructor
    · rintro ⟨-, hlive, hhops, hdepth, _, hstate, hpaused, hreview, -⟩ _ ⟨⟩
      obtain rfl := Option.some.inj (hafter.symm.trans hstate)
      exact ⟨hpaused, hreview, hlive, hhops, hdepth⟩
    · intro hstate
      obtain ⟨hpaused, hreview, hlive, hhops, hdepth⟩ := hstate state rfl
      exact ⟨hexpired, hlive, hhops, hdepth, state, hafter, hpaused, hreview, hterminal⟩

open DistributedExecutionGraph (sampleRequest)

def sampleReads : SubmitReads := ⟨0, 0, 0, 0, false, ⟨fun entries => entries, fun _ => .refl _⟩⟩

def sampleFar : AEGFMetadata :=
  { sampleRequest (ascii "r1") RID_ROOT (ascii "planner") with hc := 17 }

theorem allowed_request_governed_sample :
    let request := sampleRequest (ascii "r1") RID_ROOT (ascii "planner")
    let gov := run none [.submit_request request sampleReads]
    (gov.submit_request request sampleReads).2 = some .Allow ∧
      ∃ state, (gov.submit_request request sampleReads).1.esm.get_state (ascii "r1") = some state ∧
        state ≠ .Paused ∧ state ≠ .WaitingHumanReview ∧ state.is_terminal = false := by
  intro request gov
  have hallow : (gov.submit_request request sampleReads).2 = some .Allow := by decide +kernel
  have hregistered : gov.esm.get_state request.rid = some .Processing := by decide +kernel
  refine ⟨hallow, ((allowed_request_governed none _ _ _ hallow).mpr fun state hstate => ?_).2.2.2.2⟩
  obtain rfl := Option.some.inj (hregistered.symm.trans hstate)
  decide +kernel

/-- **A second submission is allowed**: a request with too many hops is paused, and allowed when it
is submitted again, in the state `Paused`. And once an id has been let pass, a request with too many
hops is allowed under it. -/
theorem resubmission_allowed :
    let again := (run none [.submit_request sampleFar sampleReads]).submit_request sampleFar
      sampleReads
    ((run none []).submit_request sampleFar sampleReads).2 = some .Pause ∧
      again.2 = some .Allow ∧ again.1.esm.get_state sampleFar.rid = some .Paused ∧
      ((run none [.submit_request (sampleRequest (ascii "r1") RID_ROOT (ascii "planner"))
        sampleReads]).submit_request sampleFar sampleReads).2 = some .Allow ∧
      (run none []).policy.max_hop_count < sampleFar.hc := by
  decide +kernel

end AEGFGovernor

end Saacp
