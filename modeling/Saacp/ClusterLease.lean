/-
**Leadership in a fleet** of engines that share a lease backend.

The calls of any number of nodes are programs whose sections are the lock scopes and the atomic
operations of an engine and the `get` and `compare_and_swap` of the backend (`run_prog`). Received
messages are arbitrary, which covers every pattern of loss, delay and duplication.

A node reports itself leader from a field. `State.claims` adds the nodes with a call that has won
the lease and has not recorded it yet. As long as every lease still runs when another node tries to
take it (`in_time`), the lease key names each claimant.
-/
import Saacp.Atomic
import Saacp.ClusterRuns
import Saacp.TtlMap
import Mathlib.Data.Fintype.Basic
import Mathlib.Logic.Function.Basic

set_option autoImplicit false

open ByteCodec Atomic

namespace Saacp

open ClusterEngine List Prog Function

namespace Fleet

/-! ## Sections and calls -/

/-- A vacant lease taken, or a change that makes a node leader. -/
inductive Event (ι : Type) where
  | acquired (node : ι)
  | led (node : ι) (epoch : UInt64)
  deriving DecidableEq

inductive Section (ι : Type) : Type → Type
  | alive (i : ι) : Section ι (List Text)
  | lease_get (i : ι) : Section ι (Option Text)
  | lease_cas (i : ι) (expected : Option Text) : Section ι Bool
  | swap_leader (i : ι) (candidate : Option Text) : Section ι (Option (Option Text))
  | bump_epoch (i : ι) (previous candidate : Option Text) : Section ι (Option LeadershipChange)
  | absorb_epoch (i : ι) (seen : UInt64) : Section ι Unit
  | age_members (i : ι) : Section ι Unit
  | broadcast (i : ι) (kind : ClusterMessageKind) : Section ι Unit
  -- the checks read the clock and what never changes, so they go with the scope of the replay map
  | check_and_mark (i : ι) (msg : ClusterMessage) : Section ι (Except ClusterRejection Unit)
  | apply_message (i : ι) (msg : ClusterMessage) : Section ι Bool
  | refute_suspicion (i : ι) : Section ι Unit
  | mark_left (i : ι) : Section ι Unit
  | bump_incarnation (i : ι) : Section ι Unit

/-- The clocks a section reads: the backend's, the node's, and the wall clock. -/
structure Clocks where
  instant : ℕ
  now : ℚ
  wall : F64

variable {ι : Type}

section Programs

variable (H : Hashes) (setup : ι → ClusterSetup)

def acquire_or_renew_lease (i : ι) : Prog (Section ι) Bool :=
  .step (.lease_get i) fun current =>
    match current with
    | none => .step (.lease_cas i none) .ret
    | some holder =>
      -- a lease of another node that has not run out is not contested
      if holder = (setup i).node_id then .step (.lease_cas i (some holder)) .ret else .ret false

def install (i : ι) (candidate : Option Text) : Prog (Section ι) Bool :=
  .step (.swap_leader i candidate) fun swapped =>
    match swapped with
    | none => .ret false
    | some previous => .step (.bump_epoch i previous candidate) fun _ => .ret true

def recompute_leader (i : ι) : Prog (Section ι) Bool :=
  .step (.alive i) fun alive =>
    if ClusterEngine.candidate H (setup i).config alive = some (setup i).node_id then
      (acquire_or_renew_lease setup i).bind fun got =>
        install i (if got then some (setup i).node_id else none)
    else
      -- another node, or none: the backend is not asked
      install i (ClusterEngine.candidate H (setup i).config alive)

def tick (i : ι) : Prog (Section ι) Bool :=
  .step (.age_members i) fun _ => .step (.broadcast i .Heartbeat) fun _ =>
    recompute_leader H setup i

def apply_message (i : ι) (msg : ClusterMessage) : Prog (Section ι) Unit :=
  .step (.apply_message i msg) fun refute =>
    if refute then
      .step (.refute_suspicion i) fun _ => .step (.broadcast i .Sync) fun _ => .ret ()
    else .ret ()

def accept_message (i : ι) (msg : ClusterMessage) : Prog (Section ι) Bool :=
  (apply_message i msg).bind fun _ =>
    .step (.absorb_epoch i msg.leader_epoch) fun _ => recompute_leader H setup i

def receive_message (i : ι) (msg : ClusterMessage) :
    Prog (Section ι) (Except ClusterRejection Unit) :=
  .step (.check_and_mark i msg) fun checked =>
    match checked with
    | .error r => .ret (.error r)
    | .ok () => (accept_message H setup i msg).map fun _ => .ok ()

def leave (i : ι) : Prog (Section ι) Bool :=
  .step (.mark_left i) fun _ => .step (.bump_incarnation i) fun _ =>
    .step (.broadcast i .Sync) fun _ => recompute_leader H setup i

inductive Call (ι : Type) where
  | tick (i : ι)
  | receive_message (i : ι) (msg : ClusterMessage)
  | leave (i : ι)

def Call.prog : Call ι → Prog (Section ι) Unit
  | .tick i => (Fleet.tick H setup i).map fun _ => ()
  | .receive_message i msg => (Fleet.receive_message H setup i msg).map fun _ => ()
  | .leave i => (Fleet.leave H setup i).map fun _ => ()

end Programs

/-! ## What a section does -/

structure State (ι : Type) where
  nodes : ι → ClusterEngine
  store : TtlMap Text Text
  sent : List ClusterMessage
  /-- The calls that have won the lease for a node and not yet recorded its leadership. -/
  pending : List (ℕ × ι)
  expiry : ι → ℕ
  history : List (Event ι)

def lease_key (cluster_name : Text) : Text := LEASE_KEY_PREFIX ++ cluster_name

section Semantics

variable [DecidableEq ι] (H : Hashes) (C : ClusterCrates)

def State.at_node (s : State ι) (i : ι) (e : ClusterEngine) : State ι :=
  { s with nodes := Function.update s.nodes i e }

/-- Node `i` has the lease from `instant` on, by the call `tid`. -/
def State.won (s : State ι) (tid : ℕ) (i : ι) (expected : Option Text) (instant : ℕ) : State ι :=
  { s with
    store := s.store.set instant (lease_key (s.nodes i).config.cluster_name) (s.nodes i).node_id
      (some (s.nodes i).config.lease_ttl)
    pending := (tid, i) :: s.pending
    expiry := Function.update s.expiry i (instant + (s.nodes i).config.lease_ttl)
    history := s.history ++ if expected = none then [.acquired i] else [] }

def State.lease_cas (s : State ι) (tid : ℕ) (i : ι) (expected : Option Text) (instant : ℕ) :
    State ι × Bool :=
  match s.store.compare_and_swap instant (lease_key (s.nodes i).config.cluster_name) expected
      (s.nodes i).node_id (some (s.nodes i).config.lease_ttl) with
  | (store, true) => ({ s.won tid i expected instant with store := store }, true)
  | (_, false) => (s, false)

/-- A change is recorded when it makes the node leader. -/
def State.bump_epoch (s : State ι) (i : ι) (bumped : ClusterEngine × Option LeadershipChange) :
    State ι :=
  { s.at_node i bumped.1 with
    history := s.history ++
      ((bumped.2.filter (·.self_is_leader)).map fun change => .led i change.epoch).toList }

def exec (tid : ℕ) {β : Type} (act : Section ι β) (at_ : Clocks) (s : State ι) : State ι × β :=
  match act with
  | .alive i => (s, (s.nodes i).alive)
  | .lease_get i => (s, s.store.get at_.instant (lease_key (s.nodes i).config.cluster_name))
  | .lease_cas i expected => s.lease_cas tid i expected at_.instant
  | .swap_leader i candidate =>
    ({ s.at_node i ((s.nodes i).swap_leader candidate).1 with
       pending := s.pending.filter fun p => p.1 ≠ tid },
      ((s.nodes i).swap_leader candidate).2)
  | .bump_epoch i previous candidate =>
    (s.bump_epoch i ((s.nodes i).bump_epoch previous candidate),
      ((s.nodes i).bump_epoch previous candidate).2)
  | .absorb_epoch i seen => (s.at_node i ((s.nodes i).absorb_epoch seen), ())
  | .age_members i => (s.at_node i ((s.nodes i).age_members at_.now), ())
  | .broadcast i kind =>
    ({ s.at_node i ((s.nodes i).broadcast H C kind at_.wall).1 with
       sent := s.sent ++ [((s.nodes i).broadcast H C kind at_.wall).2] }, ())
  | .check_and_mark i msg =>
    match (s.nodes i).check_message C msg at_.now with
    | .error r => (s, .error r)
    | .ok () =>
      match (s.nodes i).mark_replay msg with
      | .error r => (s, .error r)
      | .ok marked => (s.at_node i marked, .ok ())
  | .apply_message i msg =>
    (s.at_node i ((s.nodes i).apply_message msg at_.now), (s.nodes i).refutes msg)
  | .refute_suspicion i => (s.at_node i ((s.nodes i).refute_suspicion at_.now), ())
  | .mark_left i => (s.at_node i ((s.nodes i).mark_left at_.now), ())
  | .bump_incarnation i => (s.at_node i (s.nodes i).bump_incarnation, ())

def semantics : Semantics (Section ι) Clocks (State ι) where
  exec := exec H C

def started (setup : ι → ClusterSetup) (addr : ι → Text) (now : ι → ℚ) (store : TtlMap Text Text)
    (jobs : List (Call ι)) : Pool (Section ι) (State ι) Unit where
  threads := jobs.map fun job => job.prog H setup
  state :=
    { nodes := fun i => .new (setup i) (addr i) (now i)
      store := store
      sent := []
      pending := []
      expiry := fun _ => 0
      history := [] }

def no_daemon : Empty → State ι → State ι := fun d _ => nomatch d

end Semantics

/-! ### Three nodes

`A`, `B` and `C`, for runs on fixed inputs. -/

def fleetSetup (i : Fin 3) : ClusterSetup := sampleSetup (.ofNat (65 + i))

def clocks_0 : Clocks := ⟨0, 0, wall_0⟩
def clocks_6 : Clocks := ⟨6000000000, 6, ⟨0x4018000000000000, by decide⟩⟩

def sampleFleet (jobs : List (Call (Fin 3))) : Pool (Section (Fin 3)) (State (Fin 3)) Unit :=
  started sampleHashes fleetSetup (fun _ => []) (fun _ => 0) .empty jobs

def in_turn (clocks : List Clocks) : List (Tick Clocks Empty) :=
  clocks.zipIdx.flatMap fun c => List.replicate 8 (.thread c.2 c.1)

/-- `A` becomes leader, and `C` hears of `B` when the lease has run out. -/
def takeover : Pool (Section (Fin 3)) (State (Fin 3)) Unit :=
  (sampleFleet [.tick 1, .receive_message 0 sampleHeartbeat,
    .receive_message 2 sampleHeartbeat]).run
    (semantics sampleHashes sampleClusterCrates) no_daemon (in_turn [clocks_0, clocks_0, clocks_6])

def sampleFarewell : ClusterMessage :=
  (((((sampleEngine 65).receive_message sampleHashes sampleClusterCrates sampleHeartbeat
    ⟨0, wall_0, true⟩).1.engine.mark_left 0).bump_incarnation).broadcast sampleHashes
      sampleClusterCrates .Sync wall_0).2

/-- The same with an orderly end: `A` leaves, and `C` hears of it before it takes over. -/
def handover_jobs : List (Call (Fin 3)) :=
  [.tick 1, .receive_message 0 sampleHeartbeat, .leave 0, .receive_message 2 sampleFarewell,
    .receive_message 2 sampleHeartbeat]

def handover_clocks : List Clocks := [clocks_0, clocks_0, clocks_0, clocks_6, clocks_6]

def handover : Pool (Section (Fin 3)) (State (Fin 3)) Unit :=
  (sampleFleet handover_jobs).run (semantics sampleHashes sampleClusterCrates) no_daemon
    (in_turn handover_clocks)

/-! ## At most one leader -/

variable {C : ClusterCrates} {setup : ι → ClusterSetup} {H : Hashes} {s s' : State ι}

section Leadership

variable [DecidableEq ι]

def State.claims (s : State ι) (i : ι) : Bool :=
  (s.nodes i).is_leader || s.pending.any fun p => p.2 = i

/-- Whoever else claims the leadership still has time on its lease. -/
def in_time : Condition (Section ι) Clocks (State ι) Empty where
  section_ok _ _ act at_ s :=
    match act with
    | .lease_cas i _ => ∀ j, j ≠ i → s.claims j = true → at_.instant < s.expiry j
    | _ => True
  daemon_ok _ _ := True

instance [Fintype ι] (tid : ℕ) {β : Type} (act : Section ι β) (at_ : Clocks) (s : State ι) :
    Decidable (in_time.section_ok tid act at_ s) :=
  match act with
  | .lease_cas i _ =>
    inferInstanceAs (Decidable (∀ j, j ≠ i → s.claims j = true → at_.instant < s.expiry j))
  | .alive _ | .lease_get _ | .swap_leader _ _ | .bump_epoch _ _ _ | .absorb_epoch _ _
  | .age_members _ | .broadcast _ _ | .check_and_mark _ _ | .apply_message _ _
  | .refute_suspicion _ | .mark_left _ | .bump_incarnation _ => isTrue trivial

instance (d : Empty) (s : State ι) : Decidable (in_time.daemon_ok d s) := nomatch d

/-- **The invariant**: the lease names every claimant, with the time it has. -/
structure Leased (setup : ι → ClusterSetup) (name : Text) (s : State ι) : Prop where
  configured : ∀ i, (s.nodes i).toClusterSetup = setup i
  held : ∀ i, s.claims i = true →
    s.store.entries.get (lease_key name) = some ⟨(setup i).node_id, some (s.expiry i)⟩

/-- A section that has nothing to do with the leadership. -/
structure Quiet (s s' : State ι) : Prop where
  setup : ∀ j, (s'.nodes j).toClusterSetup = (s.nodes j).toClusterSetup
  leader : ∀ j, (s'.nodes j).leader = (s.nodes j).leader
  store : s'.store = s.store
  pending : s'.pending = s.pending
  expiry : s'.expiry = s.expiry

variable {name : Text}

omit [DecidableEq ι] in
theorem Quiet.refl (s : State ι) : Quiet s s := ⟨fun _ => rfl, fun _ => rfl, rfl, rfl, rfl⟩

open State

theorem quiet_at_node {i : ι} {e : ClusterEngine}
    (hsetup : e.toClusterSetup = (s.nodes i).toClusterSetup)
    (hleader : e.leader = (s.nodes i).leader) : Quiet s (s.at_node i e) := by
  refine ⟨fun j => ?_, fun j => ?_, rfl, rfl, rfl⟩
  all_goals
    unfold at_node
    by_cases hj : j = i
    · subst hj
      simp [hsetup, hleader]
    · simp [hj]

theorem Quiet.leased (hq : Quiet s s') (h : Leased setup name s) : Leased setup name s' := by
  refine ⟨fun j => (hq.setup j).trans (h.configured j), ?_⟩
  intro j hj
  rw [hq.store, hq.expiry]
  apply h.held j
  unfold claims is_leader at hj ⊢
  rwa [hq.pending, hq.leader, congrArg ClusterSetup.node_id (hq.setup j)] at hj

def Section.quiet {β : Type} : Section ι β → Bool
  | .lease_cas _ _ => false
  | .swap_leader _ _ => false
  | _ => true

theorem exec_quiet (tid : ℕ) {β : Type} {act : Section ι β} (hact : act.quiet = true)
    (at_ : Clocks) (s : State ι) : Quiet s (exec H C tid act at_ s).1 := by
  cases act with
  | alive | lease_get => exact Quiet.refl s
  | lease_cas | swap_leader => cases hact
  | bump_epoch i previous candidate =>
    have h : Quiet s (s.at_node i ((s.nodes i).bump_epoch previous candidate).1) :=
      quiet_at_node rfl rfl
    exact ⟨h.setup, h.leader, rfl, rfl, rfl⟩
  | absorb_epoch | age_members | apply_message | refute_suspicion | mark_left | bump_incarnation =>
    exact quiet_at_node rfl rfl
  | broadcast i kind =>
    have h : Quiet s (s.at_node i ((s.nodes i).broadcast H C kind at_.wall).1) :=
      quiet_at_node rfl rfl
    exact ⟨h.setup, h.leader, rfl, rfl, rfl⟩
  | check_and_mark i msg =>
    unfold exec
    dsimp only
    split
    · exact Quiet.refl s
    · split
      · exact Quiet.refl s
      · rename_i marked hmark
        obtain ⟨rfl, -⟩ := mark_replay_ok hmark
        exact quiet_at_node rfl rfl

theorem lease_cas_cases (s : State ι) (tid : ℕ) (i : ι) (expected : Option Text) (instant : ℕ) :
    s.store.get instant (lease_key (s.nodes i).config.cluster_name) = expected ∧
        s.lease_cas tid i expected instant = (s.won tid i expected instant, true) ∨
      s.lease_cas tid i expected instant = (s, false) := by
  unfold lease_cas
  obtain ⟨hseen, hswap⟩ | hswap := s.store.compare_and_swap_cases instant
    (lease_key (s.nodes i).config.cluster_name) expected (s.nodes i).node_id
    (some (s.nodes i).config.lease_ttl)
  · rw [hswap]
    exact .inl ⟨hseen, rfl⟩
  · rw [hswap]
    exact .inr rfl

theorem lease_cas_leased (hnames : ∀ i, (setup i).config.cluster_name = name)
    (hids : Function.Injective fun i => (setup i).node_id) (h : Leased setup name s) (tid : ℕ)
    {i : ι} {expected : Option Text} {instant : ℕ}
    (hexpected : ∀ holder ∈ expected, holder = (setup i).node_id)
    (htime : ∀ j, j ≠ i → s.claims j = true → instant < s.expiry j) :
    Leased setup name (s.lease_cas tid i expected instant).1 := by
  obtain ⟨hseen, hswap⟩ | hswap := lease_cas_cases s tid i expected instant
  · rw [hswap]
    rw [h.configured i, hnames i] at hseen
    -- the lease was seen vacant or our own, so nobody else claims it
    have halone : ∀ j, s.claims j = true → j = i := by
      intro j hj
      by_contra hne
      have hget := TtlMap.get_of_live (h.held j hj) (decide_eq_true (htime j hne hj))
      rw [hseen] at hget
      exact hne (hids (hexpected _ hget))
    refine ⟨h.configured, ?_⟩
    intro j hj
    obtain rfl : j = i := by
      unfold claims won at hj
      simp only [Bool.or_eq_true, any_cons, decide_eq_true_eq] at hj
      rcases hj with hlead | rfl | hpend
      · exact halone j (by unfold claims; rw [hlead, Bool.true_or])
      · rfl
      · exact halone j (by unfold claims; rw [hpend, Bool.or_true])
    unfold won TtlMap.set
    rw [h.configured j, hnames j, Table.get_insert_self]
    simp only [update_self, Option.map_some]
  · rw [hswap]
    exact h

theorem swap_leader_leased (h : Leased setup name s) (tid : ℕ) {i : ι} {candidate : Option Text}
    (at_ : Clocks) (hclaimed : candidate = some (setup i).node_id → (tid, i) ∈ s.pending) :
    Leased setup name (exec H C tid (.swap_leader i candidate) at_ s).1 := by
  -- whoever claims the leadership afterwards did so before
  have hframe : ∀ j, ((exec H C tid (.swap_leader i candidate) at_ s).1.nodes j).toClusterSetup =
      (s.nodes j).toClusterSetup := by
    intro j
    unfold exec at_node swap_leader
    by_cases hj : j = i
    · subst hj
      simp only [update_self]
      split <;> rfl
    · simp only [update_of_ne hj]
  have hclaims : ∀ j, (exec H C tid (.swap_leader i candidate) at_ s).1.claims j = true →
      s.claims j = true := by
    intro j hj
    unfold claims at hj ⊢
    rw [Bool.or_eq_true] at hj ⊢
    rcases hj with hlead | hpend
    · by_cases hji : j = i
      · -- the leader just recorded: its call had won the lease
        subst hji
        have hnew : candidate = some (setup j).node_id := by
          have hleader : ((exec H C tid (.swap_leader j candidate) at_ s).1.nodes j).leader =
              candidate := by
            unfold exec at_node swap_leader
            simp only [update_self]
            split
            · assumption
            · rfl
          have hself := of_decide_eq_true hlead
          rw [hleader, congrArg ClusterSetup.node_id (hframe j), h.configured j] at hself
          exact hself
        right
        rw [any_eq_true]
        exact ⟨(tid, j), hclaimed hnew, decide_eq_true rfl⟩
      · left
        unfold exec at_node at hlead
        simpa only [update_of_ne hji] using hlead
    · -- calls are only taken off the list
      right
      rw [any_eq_true] at hpend ⊢
      obtain ⟨p, hp, hpj⟩ := hpend
      exact ⟨p, (mem_filter.mp hp).1, hpj⟩
  exact ⟨fun j => (hframe j).trans (h.configured j), fun j hj => h.held j (hclaims j hj)⟩

/-! ### The calls -/

def leadership (setup : ι → ClusterSetup) (name : Text) : Protocol (State ι) where
  inv := Leased setup name
  rely tid s s' := ∀ i, (tid, i) ∈ s.pending → (tid, i) ∈ s'.pending
  rely_refl _ _ _ h := h
  rely_trans h h' i hi := h' i (h i hi)

variable {tid : ℕ} {α : Type}

/-- The thread keeps the lease with those who claim it, whatever the others do. -/
abbrev Leads (H : Hashes) (C : ClusterCrates) (setup : ι → ClusterSetup) (name : Text) (tid : ℕ)
    (post : α → State ι → Prop) (q : Prog (Section ι) α) (s : State ι) : Prop :=
  q.Safe (semantics H C) in_time (leadership setup name) tid post s

theorem true_stable : (leadership setup name).Stable tid fun _ => True := fun _ _ _ _ => trivial

theorem ret_safe (a : α) (s : State ι) :
    Leads H C setup name tid (fun _ _ => True) (.ret a) s := fun _ _ _ => trivial

theorem map_safe {β : Type} {q : Prog (Section ι) α} {f : α → β} {s : State ι}
    (h : Leads H C setup name tid (fun _ _ => True) q s) :
    Leads H C setup name tid (fun _ _ => True) (q.map f) s :=
  h.bind fun _ s' _ _ => ret_safe _ s'

theorem quiet_safe {β : Type} {act : Section ι β} {k : β → Prog (Section ι) α}
    {post : α → State ι → Prop} (hact : act.quiet = true)
    (hk : ∀ b s, Leads H C setup name tid post (k b) s) (s : State ι) :
    Leads H C setup name tid post (.step act k) s := by
  apply Prog.Safe.step_of_stable true_stable _ (fun b s' _ => hk b s') trivial
  intro s' at_ hinv _
  have hquiet := exec_quiet (H := H) (C := C) tid hact at_ s'
  refine ⟨hquiet.leased hinv, ?_⟩
  intro j i hi
  exact hquiet.pending.symm ▸ hi

theorem install_safe {i : ι} {candidate : Option Text} {s : State ι}
    (hs : candidate = some (setup i).node_id → (tid, i) ∈ s.pending) :
    Leads H C setup name tid (fun _ _ => True) (install i candidate) s := by
  refine Prog.Safe.step_to (K := fun s => candidate = some (setup i).node_id → (tid, i) ∈ s.pending)
    (fun _ _ => True) ?_ ?_ ?_ hs
  · intro s s' hrely h hself
    exact hrely i (h hself)
  · intro s' at_ hinv hclaimed _
    refine ⟨swap_leader_leased hinv tid at_ hclaimed, ?_, trivial⟩
    intro j hj i' hi'
    exact mem_filter.mpr ⟨hi', decide_eq_true hj⟩
  · intro swapped s' _
    cases swapped with
    | none => exact ret_safe _ s'
    | some previous => exact quiet_safe rfl (fun _ => ret_safe _) s'

theorem apply_message_safe (i : ι) (msg : ClusterMessage) (s : State ι) :
    Leads H C setup name tid (fun _ _ => True) (apply_message i msg) s := by
  apply quiet_safe rfl
  intro refute s'
  split
  · exact quiet_safe rfl (fun _ => quiet_safe rfl fun _ => ret_safe _) s'
  · exact ret_safe _ s'

variable (hnames : ∀ i, (setup i).config.cluster_name = name)
  (hids : Function.Injective fun i => (setup i).node_id)
include hnames hids

theorem lease_cas_safe {i : ι} {expected : Option Text}
    (hexpected : ∀ holder ∈ expected, holder = (setup i).node_id) (s : State ι) :
    Leads H C setup name tid (fun got s => got = true → (tid, i) ∈ s.pending)
      (.step (.lease_cas i expected) .ret) s := by
  refine Prog.Safe.step_to (K := fun _ => True) (fun got s => got = true → (tid, i) ∈ s.pending)
    true_stable ?_ ?_ trivial
  · intro s' at_ hinv _ htime
    refine ⟨lease_cas_leased hnames hids hinv tid hexpected htime, ?_, ?_⟩
    all_goals
      simp only [semantics, exec]
      obtain ⟨-, hswap⟩ | hswap := lease_cas_cases s' tid i expected at_.instant
    · intro j _ i' hi'
      rw [hswap]
      exact mem_cons_of_mem _ hi'
    · intro j _ i' hi'
      rwa [hswap]
    · intro _
      rw [hswap]
      exact mem_cons_self
    · intro htrue
      rw [hswap] at htrue
      cases htrue
  · intro got s' hgot s'' hrely _ htrue
    exact hrely i (hgot htrue)

theorem acquire_or_renew_lease_safe (i : ι) (s : State ι) :
    Leads H C setup name tid (fun got s => got = true → (tid, i) ∈ s.pending)
      (acquire_or_renew_lease setup i) s := by
  apply quiet_safe rfl
  intro current s'
  cases current with
  | none => exact lease_cas_safe hnames hids (fun _ h => absurd h (Option.not_mem_none _)) s'
  | some holder =>
    dsimp only
    split
    · rename_i hown
      exact lease_cas_safe hnames hids (fun _ h => Option.some.inj h ▸ hown) s'
    · exact fun _ _ _ => nofun

theorem recompute_leader_safe (i : ι) (s : State ι) :
    Leads H C setup name tid (fun _ _ => True) (recompute_leader H setup i) s := by
  apply quiet_safe rfl
  intro alive s'
  split
  · refine (acquire_or_renew_lease_safe hnames hids i s').bind ?_
    intro got s'' _ hgot
    apply install_safe
    cases got with
    | true => exact fun _ => hgot rfl
    | false => exact fun hself => nomatch hself
  · rename_i hother
    exact install_safe fun hself => absurd hself hother

theorem Call.prog_safe (job : Call ι) (s : State ι) :
    Leads H C setup name tid (fun _ _ => True) (job.prog H setup) s := by
  cases job with
  | tick i =>
    apply map_safe
    exact quiet_safe rfl (fun _ => quiet_safe rfl fun _ =>
      recompute_leader_safe hnames hids i) s
  | leave i =>
    apply map_safe
    exact quiet_safe rfl (fun _ => quiet_safe rfl fun _ => quiet_safe rfl fun _ =>
      recompute_leader_safe hnames hids i) s
  | receive_message i msg =>
    apply map_safe
    apply quiet_safe rfl
    intro checked s'
    cases checked with
    | error r => exact ret_safe _ s'
    | ok _ =>
      apply map_safe
      refine (apply_message_safe i msg s').bind fun _ s'' _ _ => ?_
      exact quiet_safe rfl (fun _ => recompute_leader_safe hnames hids i) s''

omit hnames hids

/-- **At most one leader**: engines of one cluster with distinct ids share a lease backend, and
in any interleaving of their calls nobody tries to take the lease when the lease of another node
that claims the leadership has run out. Then in every state at most one node reports itself
leader. -/
theorem at_most_one_leader (H : Hashes) (C : ClusterCrates) (setup : ι → ClusterSetup) (name : Text)
    (hnames : ∀ i, (setup i).config.cluster_name = name)
    (hids : Function.Injective fun i => (setup i).node_id) (addr : ι → Text) (now : ι → ℚ)
    (store : TtlMap Text Text) (jobs : List (Call ι)) (ticks : List (Tick Clocks Empty))
    (hticks : (started H setup addr now store jobs).Respects (semantics H C) no_daemon in_time
      ticks) (p : Pool (Section ι) (State ι) Unit)
    (hp : p = (started H setup addr now store jobs).run (semantics H C) no_daemon ticks) (i j : ι)
    (hi : (p.state.nodes i).is_leader = true) (hj : (p.state.nodes j).is_leader = true) :
    i = j := by
  have hstart : (started H setup addr now store jobs).Safe (semantics H C) in_time
      (leadership setup name) (fun _ _ _ => True) := by
    refine ⟨⟨fun _ => rfl, ?_⟩, ?_⟩
    · intro i hi
      simp [started, claims, is_leader, new] at hi
    · intro k q hq
      simp only [started, List.getElem?_map] at hq
      obtain ⟨job, -, rfl⟩ := Option.map_eq_some_iff.mp hq
      exact Call.prog_safe hnames hids job _
  have hsafe := hstart.run (fun d => nomatch d) ticks hticks
  rw [← hp] at hsafe
  have hinv : Leased setup name p.state := hsafe.inv
  -- the one lease names both
  have hclaims : ∀ k, (p.state.nodes k).is_leader = true → p.state.claims k = true := by
    intro k hk
    unfold claims
    rw [hk, Bool.true_or]
  have hsame := (hinv.held i (hclaims i hi)).symm.trans (hinv.held j (hclaims j hj))
  exact hids (congrArg Expiring.value (Option.some.inj hsame))

theorem one_leader_after_handover :
    (sampleFleet handover_jobs).Respects (semantics sampleHashes sampleClusterCrates) no_daemon
        in_time (in_turn handover_clocks) ∧
      (handover.state.nodes 2).is_leader = true ∧
      ∀ j, (handover.state.nodes j).is_leader = true → 2 = j := by
  have hrespects : (sampleFleet handover_jobs).Respects (semantics sampleHashes
      sampleClusterCrates) no_daemon in_time (in_turn handover_clocks) := by decide +kernel
  have hleader : (handover.state.nodes 2).is_leader = true := by decide +kernel
  refine ⟨hrespects, hleader, fun j hj => ?_⟩
  exact at_most_one_leader sampleHashes sampleClusterCrates fleetSetup (ascii "test-cluster")
    (fun _ => rfl) (by decide) (fun _ => []) (fun _ => 0) .empty handover_jobs
    (in_turn handover_clocks) hrespects handover rfl 2 j hleader hj

/-- A lease that runs out does not make its holder step down: after `A` was silent for longer than
the lease lasts, `A` and `C` both report themselves leader. -/
theorem two_leaders_after_takeover :
    (∀ i, (fleetSetup i).config.cluster_name = ascii "test-cluster") ∧
      Function.Injective (fun i => (fleetSetup i).node_id) ∧
      takeover.state.sent = [sampleHeartbeat] ∧
      (takeover.state.nodes 0).is_leader = true ∧ (takeover.state.nodes 2).is_leader = true := by
  refine ⟨fun _ => rfl, by decide, by decide +kernel, by decide +kernel, by decide +kernel⟩

end Leadership

/-! ## Fencing epochs -/

section Fencing

variable [DecidableEq ι]

/-- Node `i`, whose counter stands at `seen`, knows of the epoch another node led with. -/
def Event.heard (i : ι) (seen : UInt64) : Event ι → Bool
  | .led j epoch => j = i || epoch ≤ seen
  | .acquired _ => true

/-- A node that takes the vacant lease has heard of every epoch another one led with; no counter
wraps. -/
def informed : Condition (Section ι) Clocks (State ι) Empty where
  section_ok _ _ act at_ s :=
    match act with
    | .lease_cas i none =>
      s.store.get at_.instant (lease_key (s.nodes i).config.cluster_name) = none →
        ∀ event ∈ s.history, event.heard i (s.nodes i).leader_epoch = true
    | .bump_epoch i _ _ => (s.nodes i).leader_epoch.toNat + 1 < 2 ^ 64
    | _ => True
  daemon_ok _ _ := True

instance (tid : ℕ) {β : Type} (act : Section ι β) (at_ : Clocks) (s : State ι) :
    Decidable (informed.section_ok tid act at_ s) :=
  match act with
  | .lease_cas i none =>
    inferInstanceAs (Decidable (s.store.get at_.instant (lease_key (s.nodes i).config.cluster_name)
      = none → ∀ event ∈ s.history, event.heard i (s.nodes i).leader_epoch = true))
  | .bump_epoch i _ _ => inferInstanceAs (Decidable ((s.nodes i).leader_epoch.toNat + 1 < 2 ^ 64))
  | .lease_cas _ (some _) => isTrue trivial
  | .alive _ | .lease_get _ | .swap_leader _ _ | .absorb_epoch _ _ | .age_members _
  | .broadcast _ _ | .check_and_mark _ _ | .apply_message _ _ | .refute_suspicion _
  | .mark_left _ | .bump_incarnation _ => isTrue trivial

instance (d : Empty) (s : State ι) : Decidable (informed.daemon_ok d s) := nomatch d

/-- **The invariant**: who has taken the lease has caught up with those who led before. -/
structure Fenced (s : State ι) : Prop where
  heard : ∀ a b epoch, a ≠ b → [.led a epoch, .acquired b].Sublist s.history →
    epoch ≤ (s.nodes b).leader_epoch
  above : ∀ a b epoch epoch', a ≠ b →
    [.led a epoch, .acquired b, .led b epoch'].Sublist s.history → epoch < epoch'

omit [DecidableEq ι] in
theorem sublist_concat (past : List (Event ι)) {history : List (Event ι)} {last event : Event ι}
    (h : (past ++ [last]).Sublist (history ++ [event])) :
    (past ++ [last]).Sublist history ∨ last = event ∧ past.Sublist history := by
  rw [← reverse_sublist, reverse_concat, reverse_concat] at h
  rcases cons_sublist_cons'.mp h with hold | ⟨hlast, hpast⟩
  · rw [← reverse_concat, reverse_sublist] at hold
    exact .inl hold
  · exact .inr ⟨hlast, reverse_sublist.mp hpast⟩

omit [DecidableEq ι] in
theorem Fenced.of_le (h : Fenced s) (hhistory : s'.history = s.history)
    (hepoch : ∀ j, (s.nodes j).leader_epoch ≤ (s'.nodes j).leader_epoch) : Fenced s' := by
  refine ⟨?_, ?_⟩
  · intro a b epoch hab hsub
    rw [hhistory] at hsub
    exact UInt64.le_trans (h.heard a b epoch hab hsub) (hepoch b)
  · intro a b epoch epoch' hab hsub
    rw [hhistory] at hsub
    exact h.above a b epoch epoch' hab hsub

theorem le_at_node {i : ι} {e : ClusterEngine} (h : (s.nodes i).leader_epoch ≤ e.leader_epoch)
    (j : ι) : (s.nodes j).leader_epoch ≤ ((s.at_node i e).nodes j).leader_epoch := by
  unfold State.at_node
  by_cases hj : j = i
  · subst hj
    simpa only [update_self] using h
  · simp only [update_of_ne hj, UInt64.le_refl]

theorem fenced_won (h : Fenced s) (tid : ℕ) (i : ι) (expected : Option Text) (instant : ℕ)
    (hheard : expected = none → ∀ j epoch, .led j epoch ∈ s.history → j ≠ i →
      epoch ≤ (s.nodes i).leader_epoch) : Fenced (s.won tid i expected instant) := by
  by_cases hnone : expected = none
  · have hhistory : (s.won tid i expected instant).history = s.history ++ [.acquired i] := by
      unfold State.won
      rw [if_pos hnone]
    refine ⟨?_, ?_⟩
    · intro a b epoch hab hsub
      rw [hhistory] at hsub
      -- the lease just taken is the only new event, and its taker has heard of `a`
      rcases sublist_concat [_] hsub with hold | ⟨hlast, hpast⟩
      · exact h.heard a b epoch hab hold
      · cases hlast
        exact hheard hnone a epoch (singleton_sublist.mp hpast) hab
    · intro a b epoch epoch' hab hsub
      rw [hhistory] at hsub
      rcases sublist_concat [_, _] hsub with hold | ⟨hlast, -⟩
      · exact h.above a b epoch epoch' hab hold
      · cases hlast
  · refine h.of_le ?_ fun _ => UInt64.le_refl _
    unfold State.won
    rw [if_neg hnone, append_nil]

theorem fenced_bump_epoch (h : Fenced s) (i : ι) (previous candidate : Option Text)
    (hroom : (s.nodes i).leader_epoch.toNat + 1 < 2 ^ 64) :
    Fenced (s.bump_epoch i ((s.nodes i).bump_epoch previous candidate)) := by
  have hlt : (s.nodes i).leader_epoch < (s.nodes i).leader_epoch + 1 := by
    rw [UInt64.lt_iff_toNat_lt, UInt64.toNat_add]
    have hone : (1 : UInt64).toNat = 1 := rfl
    omega
  have hepoch : ∀ j, (s.nodes j).leader_epoch ≤
      ((s.bump_epoch i ((s.nodes i).bump_epoch previous candidate)).nodes j).leader_epoch :=
    le_at_node (UInt64.le_of_lt hlt)
  have hdelivered : (s.nodes i).leader_epoch + 1 ≠ 0 := fun hzero => by
    rw [hzero] at hlt
    exact UInt64.not_lt_zero hlt
  by_cases hself : candidate = some (s.nodes i).node_id
  · have hhistory : (s.bump_epoch i ((s.nodes i).bump_epoch previous candidate)).history =
        s.history ++ [.led i ((s.nodes i).leader_epoch + 1)] := by
      simp [State.bump_epoch, bump_epoch, hdelivered, hself]
    refine ⟨?_, ?_⟩
    · intro a b epoch hab hsub
      rw [hhistory] at hsub
      rcases sublist_concat [_] hsub with hold | ⟨hlast, -⟩
      · exact UInt64.le_trans (h.heard a b epoch hab hold) (hepoch b)
      · cases hlast
    · intro a b epoch epoch' hab hsub
      rw [hhistory] at hsub
      -- the new leader took the lease before, and leads with one more than it had heard of
      rcases sublist_concat [_, _] hsub with hold | ⟨hlast, hpast⟩
      · exact h.above a b epoch epoch' hab hold
      · cases hlast
        exact UInt64.lt_of_le_of_lt (h.heard a i epoch hab hpast) hlt
  · refine h.of_le ?_ hepoch
    simp [State.bump_epoch, bump_epoch, hdelivered, hself]

theorem exec_fenced (tid : ℕ) (β : Type) (act : Section ι β) (at_ : Clocks) (s : State ι)
    (hok : informed.section_ok tid act at_ s) (h : Fenced s) :
    Fenced (exec H C tid act at_ s).1 := by
  have hkept : ∀ {i : ι} {e : ClusterEngine}, (s.nodes i).leader_epoch ≤ e.leader_epoch →
      Fenced (s.at_node i e) := fun hle => h.of_le rfl (le_at_node hle)
  cases act with
  | alive | lease_get => exact h
  | lease_cas i expected =>
    show Fenced (s.lease_cas tid i expected at_.instant).1
    obtain ⟨hseen, hswap⟩ | hswap := lease_cas_cases s tid i expected at_.instant
    · rw [hswap]
      apply fenced_won h
      rintro rfl j epoch hled hj
      have hheard := hok hseen (.led j epoch) hled
      simpa [Event.heard, hj] using hheard
    · rw [hswap]
      exact h
  | swap_leader i candidate =>
    refine h.of_le rfl (le_at_node ?_)
    unfold swap_leader
    split <;> exact UInt64.le_refl _
  | bump_epoch i previous candidate => exact fenced_bump_epoch h i previous candidate hok
  | absorb_epoch i seen => exact hkept (le_absorb_epoch _ seen)
  | age_members | apply_message | refute_suspicion | mark_left | bump_incarnation =>
    exact hkept (UInt64.le_refl _)
  | broadcast i kind => exact h.of_le rfl (le_at_node (UInt64.le_refl _))
  | check_and_mark i msg =>
    unfold exec
    dsimp only
    split
    · exact h
    · split
      · exact h
      · rename_i marked hmark
        obtain ⟨rfl, -⟩ := mark_replay_ok hmark
        exact hkept (UInt64.le_refl _)

/-- **Epochs order the leaders**: in any interleaving in which a node that takes the vacant lease
has heard of the epochs the others led with, a node that takes the lease after another one led
leads with a higher epoch. -/
theorem epochs_order_leaders (H : Hashes) (C : ClusterCrates) (setup : ι → ClusterSetup)
    (addr : ι → Text) (now : ι → ℚ) (store : TtlMap Text Text) (jobs : List (Call ι))
    (ticks : List (Tick Clocks Empty))
    (hticks : (started H setup addr now store jobs).Respects (semantics H C) no_daemon informed
      ticks) (p : Pool (Section ι) (State ι) Unit)
    (hp : p = (started H setup addr now store jobs).run (semantics H C) no_daemon ticks) (a b : ι)
    (hab : a ≠ b) (epoch_a epoch_b : UInt64)
    (hled : [.led a epoch_a, .acquired b, .led b epoch_b].Sublist p.state.history) :
    epoch_a < epoch_b := by
  have hstart : Fenced (started H setup addr now store jobs).state := by
    refine ⟨?_, ?_⟩
    · intro a b epoch _ hsub
      cases hsub
    · intro a b epoch epoch' _ hsub
      cases hsub
  have hfenced : Fenced p.state := by
    rw [hp]
    refine Pool.run_inv ?_ ?_ hstart ticks hticks
    · intro tid β act at_ s hok hs
      exact exec_fenced tid β act at_ s hok hs
    · intro d
      cases d
  exact hfenced.above a b epoch_a epoch_b hab hled

theorem epochs_ordered_in_handover :
    (sampleFleet handover_jobs).Respects (semantics sampleHashes sampleClusterCrates) no_daemon
        informed (in_turn handover_clocks) ∧
      [.led 0 1, .acquired 2, .led 2 2].Sublist handover.state.history ∧ (1 : UInt64) < 2 := by
  have hrespects : (sampleFleet handover_jobs).Respects (semantics sampleHashes
      sampleClusterCrates) no_daemon informed (in_turn handover_clocks) := by decide +kernel
  have hled : [.led 0 1, .acquired 2, .led 2 2].Sublist handover.state.history := by
    decide +kernel
  exact ⟨hrespects, hled, epochs_order_leaders sampleHashes sampleClusterCrates fleetSetup
    (fun _ => []) (fun _ => 0) .empty handover_jobs (in_turn handover_clocks) hrespects
    handover rfl 0 2 (by decide) 1 2 hled⟩

theorem same_epoch_after_takeover :
    [.led 0 1, .acquired 2, .led 2 1].Sublist takeover.state.history ∧ ¬ (1 : UInt64) < 1 := by
  decide +kernel

end Fencing

/-! ## A call alone -/

section Alone

variable [DecidableEq ι]

def Call.target : Call ι → ι × ClusterCall
  | .tick i => (i, .tick)
  | .receive_message i msg => (i, .receive_message msg)
  | .leave i => (i, .leave)

theorem run_acquire_or_renew_lease (i : ι) (inp : ℕ → Clocks) (s : State ι) :
    ((acquire_or_renew_lease setup i).run (semantics H C) inp s).2.1.nodes = s.nodes := by
  have hcas : ∀ tid expected instant, (s.lease_cas tid i expected instant).1.nodes = s.nodes := by
    intro tid expected instant
    obtain ⟨-, hswap⟩ | hswap := lease_cas_cases s tid i expected instant
    · rw [hswap]
      rfl
    · rw [hswap]
  unfold acquire_or_renew_lease
  rw [run_step]
  split
  · exact hcas _ _ _
  · split
    · exact hcas _ _ _
    · rfl

theorem run_install (i : ι) (candidate : Option Text) (inp : ℕ → Clocks) (s : State ι) :
    ((install i candidate).run (semantics H C) inp s).2.1.nodes =
      Function.update s.nodes i ((s.nodes i).install candidate).1 := by
  unfold install ClusterEngine.install
  rw [run_step]
  simp only [semantics, exec]
  unfold swap_leader
  by_cases hsame : (s.nodes i).leader = candidate
  · simp [hsame, State.at_node]
  · simp [hsame, State.at_node, exec, State.bump_epoch, bump_epoch]

variable (i : ι) (nodes : ι → ClusterEngine) (e : ClusterEngine) (s : State ι)
  (hnodes : s.nodes = Function.update nodes i e)
include hnodes

/-- The program of `recompute_leader` is the engine's, with the answer the lease gave. -/
theorem run_recompute_leader (hsetup : e.toClusterSetup = setup i) (inp : ℕ → Clocks) :
    ∃ lease, ((recompute_leader H setup i).run (semantics H C) inp s).2.1.nodes =
      Function.update nodes i (e.recompute_leader H lease).1 := by
  have hnode : s.nodes i = e := by rw [hnodes, update_self]
  have halive : (semantics H C).exec 0 (.alive i) (inp 0) s = (s, e.alive) := by
    rw [← hnode]
    rfl
  unfold recompute_leader ClusterEngine.recompute_leader ClusterEngine.leased
  rw [Prog.run_step, halive, ← hsetup]
  by_cases hself : candidate H e.config e.alive = some e.node_id
  · rw [if_pos hself, run_bind, run_install, run_acquire_or_renew_lease, hnode, hnodes,
      update_idem]
    cases ((acquire_or_renew_lease setup i).run (semantics H C) (fun n => inp (n + 1)) s).2.2 with
    | true => exact ⟨true, by simp [hself]⟩
    | false => exact ⟨false, by simp [hself]⟩
  · refine ⟨true, ?_⟩
    rw [if_neg hself, run_install, hnode, hnodes, update_idem]
    simp

theorem run_apply_message (msg : ClusterMessage) (at_ : Clocks) (lease : Bool) :
    ((apply_message i msg).run (semantics H C) (fun _ => at_) s).2.1.nodes =
      Function.update nodes i (e.apply_and_refute H C msg ⟨at_.now, at_.wall, lease⟩).1 := by
  have hnode : s.nodes i = e := by rw [hnodes, update_self]
  have hexec : (semantics H C).exec 0 (.apply_message i msg) at_ s =
      (s.at_node i (e.apply_message msg at_.now), e.refutes msg) := by
    rw [← hnode]
    rfl
  unfold apply_message apply_and_refute
  rw [run_step, hexec]
  by_cases hrefutes : e.refutes msg = true
  · rw [if_pos hrefutes, if_pos hrefutes]
    simp [semantics, exec, State.at_node, hnodes]
  · rw [if_neg hrefutes, if_neg hrefutes]
    simp [State.at_node, hnodes]

theorem run_accept_message (msg : ClusterMessage)
    (hsetup : e.toClusterSetup = setup i) (at_ : Clocks) :
    ∃ lease, ((accept_message H setup i msg).run (semantics H C) (fun _ => at_) s).2.1.nodes =
      Function.update nodes i
        (e.accept_message H C msg ⟨at_.now, at_.wall, lease⟩).engine := by
  unfold accept_message
  simp only [run_bind, run_step]
  have happly := run_apply_message (H := H) (C := C) i nodes e s hnodes msg at_ false
  -- what the sections so far have done to the clocks and the rest of the state does not matter
  generalize (apply_message i msg).run (semantics H C) (fun _ => at_) s = applied at happly
  apply run_recompute_leader i nodes
    ((e.apply_and_refute H C msg ⟨at_.now, at_.wall, false⟩).1.absorb_epoch msg.leader_epoch)
  · simp [semantics, exec, State.at_node, happly]
  · exact (apply_and_refute_frame H C e msg _).2.trans hsetup

omit hnodes

/-- **A call that runs alone** is a call of the engine's own method. -/
theorem run_prog (job : Call ι) (at_ : Clocks) (s : State ι)
    (hsetup : ∀ i, (s.nodes i).toClusterSetup = setup i) :
    ∃ lease, ((job.prog H setup).run (semantics H C) (fun _ => at_) s).2.1.nodes =
      Function.update s.nodes job.target.1
        ((s.nodes job.target.1).call H C ⟨at_.now, at_.wall, lease⟩ job.target.2) := by
  cases job with
  | tick i =>
    simp only [Call.prog, Call.target, tick, Prog.run_map, Prog.run_step, ClusterEngine.call,
      ClusterEngine.tick]
    refine run_recompute_leader i s.nodes _ _ ?_ ?_ fun _ => at_
    · simp [semantics, exec, State.at_node]
    · exact hsetup i
  | leave i =>
    simp only [Call.prog, Call.target, leave, Prog.run_map, Prog.run_step, ClusterEngine.call,
      ClusterEngine.leave]
    refine run_recompute_leader i s.nodes _ _ ?_ ?_ fun _ => at_
    · simp [semantics, exec, State.at_node]
    · exact hsetup i
  | receive_message i msg =>
    simp only [Call.prog, Call.target, receive_message, Prog.run_map, Prog.run_step,
      ClusterEngine.call, ClusterEngine.receive_message]
    -- refused by a check, refused by the replay map, or accepted
    rcases hcheck : (s.nodes i).check_message C msg at_.now with r | _
    · have hexec : (semantics H C).exec 0 (.check_and_mark i msg) at_ s = (s, .error r) := by
        simp only [semantics, exec, hcheck]
      rw [hexec]
      simp
    rcases hmark : (s.nodes i).mark_replay msg with r | marked
    · have hexec : (semantics H C).exec 0 (.check_and_mark i msg) at_ s = (s, .error r) := by
        simp only [semantics, exec, hcheck, hmark]
      rw [hexec]
      simp
    have hexec : (semantics H C).exec 0 (.check_and_mark i msg) at_ s =
        (s.at_node i marked, .ok ()) := by
      simp only [semantics, exec, hcheck, hmark]
    rw [hexec]
    have hmarked : marked.toClusterSetup = setup i := by
      obtain ⟨rfl, -⟩ := ClusterEngine.mark_replay_ok hmark
      exact hsetup i
    simpa only [Prog.run_map] using run_accept_message i s.nodes marked (s.at_node i marked) rfl
      msg hmarked at_

end Alone

end Fleet

end Saacp
