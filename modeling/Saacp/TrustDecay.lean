/-
**Behavioural trust**: one score per agent that violations lower, that rewards and the mere passing
of time raise again, and below which an agent is locked out.

The time that has passed is folded into a score when the entry is next touched (`recover_to`). Seven
operations touch entries, some of them those of other agents; `Touch` says once what any of them
does to the entry of one agent. Scores and seconds are rational numbers. That an entry below the
threshold is locked is part of its type.
-/
import Mathlib.Tactic.Linarith
import Mathlib.Tactic.Positivity
import Saacp.Credentials
import Saacp.Gateway

set_option autoImplicit false

open ByteCodec Table

namespace Saacp

def TRUST_SCORE_INITIAL : ℚ := 1
def TRUST_RECOVERY_PER_SECOND : ℚ := 5 / 10000
def TRUST_REPEAT_PENALTY_DECAY : ℚ := 1 / 2
def TRUST_DOWNGRADE_THRESHOLD : ℚ := 1 / 2
def TRUST_REAUTH_THRESHOLD : ℚ := 1 / 4
def TRUST_REAUTH_MIN_COOLDOWN_SECONDS : ℚ := 60
def TRUST_MAX_ENTRIES : ℕ := 10000
def TRUST_ENTRY_STALENESS_SECONDS : ℚ := 86400
def TRUST_REWARD_CLEAN_PASSAGE : ℚ := 1 / 1000
def TRUST_REWARD_VALID_RECEIPT : ℚ := 5 / 1000
def TRUST_REWARD_CEILING : ℚ := 95 / 100
def TRUST_REWARD_FLOOR : ℚ := 30 / 100
def TRUST_MAX_REWARDS_PER_MINUTE : ℕ := 10
def TRUST_REWARD_IRREVERSIBLE_MULTIPLIER : ℚ := 2
abbrev TRUST_SHARDS : ℕ := 16
def TRUST_PER_SHARD_MAX_ENTRIES : ℕ := TRUST_MAX_ENTRIES / TRUST_SHARDS

inductive PenaltyKind
  | ReplaySuspicion
  | IntentDriftCeiling
  | ScopeViolation
  | InjectionAttempt
  | EpistemicOverclaim
  | TargetViolation
  | ReceiptTimeout
  | CollusionSuspected
  | GenericHardDrop
  deriving DecidableEq

inductive RewardKind
  | CleanPassage
  | ValidReceipt
  deriving DecidableEq

def penalty_weight : PenaltyKind → ℚ
  | .ReplaySuspicion => 40 / 100
  | .IntentDriftCeiling => 35 / 100
  | .CollusionSuspected => 35 / 100
  | .InjectionAttempt => 30 / 100
  | .TargetViolation => 30 / 100
  | .ScopeViolation => 25 / 100
  | .EpistemicOverclaim => 20 / 100
  | .ReceiptTimeout => 15 / 100
  | .GenericHardDrop => 5 / 100

def reward_weight : RewardKind → ℚ
  | .CleanPassage => TRUST_REWARD_CLEAN_PASSAGE
  | .ValidReceipt => TRUST_REWARD_VALID_RECEIPT

inductive TrustEvent
  | Penalized (kind : PenaltyKind)
  | Downgraded
  | ReauthRequired
  | Recovered
  | Rewarded (kind : RewardKind)
  deriving DecidableEq

structure TrustSignal where
  agent_id : Text
  score : ℚ
  event : TrustEvent
  deriving DecidableEq

structure AgentTrustSnapshot where
  agent_id : Text
  score : ℚ
  requires_reauth : Bool
  deriving DecidableEq

/-! ## Entries -/

/-- `TrustEntry`. The score lies between 0 and 1, and below the threshold the entry is locked. -/
structure TrustEntry where
  score : ℚ
  last_update : ℚ
  locked_at : Option ℚ
  reward_window_start : Option ℚ
  rewards_in_window : ℕ
  penalty_count : ℕ
  score_nonneg : 0 ≤ score
  score_le : score ≤ TRUST_SCORE_INITIAL
  locked : score < TRUST_REAUTH_THRESHOLD → locked_at.isSome = true
  deriving DecidableEq

namespace TrustEntry

def fresh (now : ℚ) : TrustEntry where
  score := TRUST_SCORE_INITIAL
  last_update := now
  locked_at := none
  reward_window_start := none
  rewards_in_window := 0
  penalty_count := 0
  score_nonneg := by decide +kernel
  score_le := le_refl _
  locked h := absurd h (by decide +kernel)

variable (e : TrustEntry)

/-- The rate of recovery: the more penalties, the slower, down to a tenth. -/
def effective_rate : ℚ :=
  max (TRUST_RECOVERY_PER_SECOND / (1 + e.penalty_count * TRUST_REPEAT_PENALTY_DECAY))
    (TRUST_RECOVERY_PER_SECOND * (10 / 100))

theorem effective_rate_nonneg : 0 ≤ e.effective_rate := le_max_of_le_right (by decide +kernel)

theorem effective_rate_le : e.effective_rate ≤ TRUST_RECOVERY_PER_SECOND := by
  apply max_le
  · apply div_le_self (by decide +kernel)
    have hcount : (0 : ℚ) ≤ e.penalty_count * TRUST_REPEAT_PENALTY_DECAY :=
      mul_nonneg (Nat.cast_nonneg _) (by decide +kernel)
    linarith
  · decide +kernel

def recovered_score (now : ℚ) : ℚ :=
  let elapsed := max (now - e.last_update) 0
  if 0 < elapsed then min (e.score + elapsed * e.effective_rate) 1 else e.score

theorem le_recovered_score (now : ℚ) : e.score ≤ e.recovered_score now := by
  unfold recovered_score
  simp only
  split_ifs with helapsed
  · refine le_min ?_ e.score_le
    have hadded := mul_nonneg helapsed.le e.effective_rate_nonneg
    linarith
  · exact le_refl _

theorem recovered_score_le_one (now : ℚ) : e.recovered_score now ≤ TRUST_SCORE_INITIAL := by
  unfold recovered_score
  simp only
  split_ifs
  · exact min_le_right _ _
  · exact e.score_le

def recover_to (now : ℚ) : TrustEntry where
  score := e.recovered_score now
  last_update := now
  locked_at := e.locked_at
  reward_window_start := e.reward_window_start
  rewards_in_window := e.rewards_in_window
  penalty_count := if TRUST_SCORE_INITIAL ≤ e.recovered_score now then 0 else e.penalty_count
  score_nonneg := e.score_nonneg.trans (e.le_recovered_score now)
  score_le := e.recovered_score_le_one now
  locked h := e.locked ((e.le_recovered_score now).trans_lt h)

def try_consume_reward_slot (now : ℚ) : TrustEntry × Bool :=
  let rolled : TrustEntry × Bool :=
    ({ e with reward_window_start := some now, rewards_in_window := 1 }, true)
  match e.reward_window_start with
  | some start =>
    if now - start < 60 then
      if TRUST_MAX_REWARDS_PER_MINUTE ≤ e.rewards_in_window then (e, false)
      else ({ e with rewards_in_window := e.rewards_in_window + 1 }, true)
    else rolled
  | none => rolled

theorem try_consume_reward_slot_fields (now : ℚ) :
    (e.try_consume_reward_slot now).1.score = e.score ∧
      (e.try_consume_reward_slot now).1.last_update = e.last_update ∧
      (e.try_consume_reward_slot now).1.locked_at = e.locked_at := by
  unfold try_consume_reward_slot
  split
  · split_ifs
    · exact ⟨rfl, rfl, rfl⟩
    · exact ⟨rfl, rfl, rfl⟩
    · exact ⟨rfl, rfl, rfl⟩
  · exact ⟨rfl, rfl, rfl⟩

/-- The part of `penalize` that is about the entry, which has been brought up to `now`. -/
def penalized (kind : PenaltyKind) (now : ℚ) : TrustEntry where
  score := max (e.score - penalty_weight kind) 0
  last_update := e.last_update
  locked_at :=
    if max (e.score - penalty_weight kind) 0 < TRUST_REAUTH_THRESHOLD ∧ e.locked_at = none then
      some now
    else e.locked_at
  reward_window_start := e.reward_window_start
  rewards_in_window := e.rewards_in_window
  penalty_count := min (e.penalty_count + 1) (2 ^ 32 - 1)
  score_nonneg := le_max_right _ _
  score_le := by
    refine max_le (le_trans ?_ e.score_le) (by decide +kernel)
    have hweight : 0 ≤ penalty_weight kind := by cases kind <;> decide +kernel
    linarith
  locked hlow := by
    split_ifs with hlock
    · rfl
    · exact Option.isSome_iff_ne_none.mpr fun hnone => hlock ⟨hlow, hnone⟩

/-- The cap of a reward: from below the floor it leads to the floor at most. -/
def reward_cap (score : ℚ) : ℚ :=
  if score < TRUST_REWARD_FLOOR then TRUST_REWARD_FLOOR else TRUST_REWARD_CEILING

/-- The part of `reward` that is about the entry, which has a slot for it. -/
def rewarded (kind : RewardKind) (is_irreversible_class : Bool) : TrustEntry :=
  let amount :=
    if is_irreversible_class then reward_weight kind * TRUST_REWARD_IRREVERSIBLE_MULTIPLIER
    else reward_weight kind
  { e with
    score := max (min (e.score + amount) (reward_cap e.score)) e.score
    score_nonneg := le_max_of_le_right e.score_nonneg
    score_le := by
      refine max_le ((min_le_right _ _).trans ?_) e.score_le
      unfold reward_cap
      split_ifs
      · decide +kernel
      · decide +kernel
    locked := fun h => e.locked ((le_max_right _ _).trans_lt h) }

def may_unlock (locked_at now : ℚ) : Bool :=
  TRUST_REAUTH_MIN_COOLDOWN_SECONDS ≤ now - locked_at && TRUST_REAUTH_THRESHOLD ≤ e.score

def unlock (h : TRUST_REAUTH_THRESHOLD ≤ e.score) : TrustEntry :=
  { e with
    locked_at := none
    locked := fun hlow => absurd hlow (not_lt.mpr h) }

theorem may_unlock_iff {e : TrustEntry} {locked_at now : ℚ} : e.may_unlock locked_at now = true ↔
      TRUST_REAUTH_MIN_COOLDOWN_SECONDS ≤ now - locked_at ∧ TRUST_REAUTH_THRESHOLD ≤ e.score := by
  rw [may_unlock, Bool.and_eq_true, decide_eq_true_iff, decide_eq_true_iff]

end TrustEntry

/-! ## The engine -/

structure TrustDecayEngine where
  shards : Fin TRUST_SHARDS → Table Text TrustEntry

namespace TrustDecayEngine

def new : TrustDecayEngine := ⟨fun _ => .empty⟩

def trust_shard_index (key : Text) : Fin TRUST_SHARDS := fnv1a_shard key TRUST_SHARDS

variable (t : TrustDecayEngine)

def shard (agent_id : Text) : Table Text TrustEntry :=
  t.shards (trust_shard_index agent_id)

def set_shard (agent_id : Text) (entries : Table Text TrustEntry) : TrustDecayEngine :=
  ⟨Function.update t.shards (trust_shard_index agent_id) entries⟩

def entry (agent_id : Text) : Option TrustEntry :=
  (t.shard agent_id).get agent_id

def full (entries : Table Text TrustEntry) (agent_id : Text) : Bool :=
  TRUST_PER_SHARD_MAX_ENTRIES ≤ entries.len && !entries.contains agent_id

/-- A full shard drops recovered entries, then those not locked, the highest scores first. -/
def make_room (order : MapOrder TrustEntry) (now : ℚ) (entries : Table Text TrustEntry)
    (agent_id : Text) : Table Text TrustEntry :=
  if full entries agent_id then
    let entries := (entries.mapValues (·.recover_to now)).retain fun _ e =>
      e.score < TRUST_SCORE_INITIAL || e.locked_at.isSome
    if TRUST_PER_SHARD_MAX_ENTRIES ≤ entries.len then
      let evict_count := entries.len + 1 - TRUST_PER_SHARD_MAX_ENTRIES
      let candidates := ((order.walk entries.entries).filter fun p => p.2.locked_at.isNone).map
        fun p => (p.1, p.2.score)
      entries.removeAll
        (((candidates.insertionSort fun a b => b.2 ≤ a.2).take evict_count).map Prod.fst)
    else entries
  else entries

def score (now : ℚ) (agent_id : Text) : TrustDecayEngine × ℚ :=
  match t.entry agent_id with
  | some e =>
    (t.set_shard agent_id ((t.shard agent_id).insert agent_id (e.recover_to now)),
      (e.recover_to now).score)
  | none => (t, TRUST_SCORE_INITIAL)

def scope_cap (now : ℚ) (agent_id : Text) : TrustDecayEngine × Option UInt8 :=
  ((t.score now agent_id).1,
    if (t.score now agent_id).2 < TRUST_DOWNGRADE_THRESHOLD then some 0 else none)

def penalize (order : MapOrder TrustEntry) (now : ℚ) (agent_id : Text)
    (kind : PenaltyKind) : TrustDecayEngine × ℚ × List TrustSignal :=
  let entries := make_room order now (t.shard agent_id) agent_id
  let e := ((entries.get agent_id).getD (.fresh now)).recover_to now
  let e' := e.penalized kind now
  let was_downgraded := e.score < TRUST_DOWNGRADE_THRESHOLD
  let now_downgraded := e'.score < TRUST_DOWNGRADE_THRESHOLD
  let just_locked := e'.score < TRUST_REAUTH_THRESHOLD ∧ e.locked_at = none
  (t.set_shard agent_id (entries.insert agent_id e'), e'.score,
    [⟨agent_id, e'.score, .Penalized kind⟩] ++
      (if now_downgraded ∧ ¬ was_downgraded then [⟨agent_id, e'.score, .Downgraded⟩] else []) ++
      (if just_locked then [⟨agent_id, e'.score, .ReauthRequired⟩] else []))

def reward (order : MapOrder TrustEntry) (now : ℚ) (agent_id : Text)
    (kind : RewardKind) (is_irreversible_class : Bool) :
    TrustDecayEngine × ℚ × List TrustSignal :=
  let entries := make_room order now (t.shard agent_id) agent_id
  let e := ((entries.get agent_id).getD (.fresh now)).recover_to now
  match e.try_consume_reward_slot now with
  | (e, false) => (t.set_shard agent_id (entries.insert agent_id e), e.score, [])
  | (e, true) =>
    let e' := e.rewarded kind is_irreversible_class
    (t.set_shard agent_id (entries.insert agent_id e'), e'.score,
      [⟨agent_id, e'.score, .Rewarded kind⟩] ++
        (if e.score < TRUST_DOWNGRADE_THRESHOLD ∧ ¬ e'.score < TRUST_DOWNGRADE_THRESHOLD then
          [⟨agent_id, e'.score, .Recovered⟩]
        else []))

def requires_reauth_at (agent_id : Text) (now : ℚ) : TrustDecayEngine × Bool × List TrustSignal :=
  match t.entry agent_id with
  | none => (t, false, [])
  | some e =>
    let e := e.recover_to now
    let put e' := t.set_shard agent_id ((t.shard agent_id).insert agent_id e')
    match e.locked_at with
    | none => (put e, false, [])
    | some locked_at =>
      if h : e.may_unlock locked_at now = true then
        (put (e.unlock (TrustEntry.may_unlock_iff.mp h).2), false,
          if e.score < TRUST_DOWNGRADE_THRESHOLD then [] else [⟨agent_id, e.score, .Recovered⟩])
      else (put e, true, [])

def requires_reauth (now : ℚ) (agent_id : Text) : TrustDecayEngine × Bool × List TrustSignal :=
  t.requires_reauth_at agent_id now

def kept (now : ℚ) (e : TrustEntry) : Bool :=
  e.locked_at.isSome || now - e.last_update < TRUST_ENTRY_STALENESS_SECONDS

def sweep_stale (now : ℚ) : TrustDecayEngine × ℕ :=
  (⟨fun i => (t.shards i).retain fun _ => kept now⟩, ((List.finRange TRUST_SHARDS).map fun i =>
      (t.shards i).len - ((t.shards i).retain fun _ => kept now).len).sum)

def snapshot (order : MapOrder TrustEntry) (now : ℚ) (limit : ℕ) :
    TrustDecayEngine × List AgentTrustSnapshot :=
  let shards := fun i => (t.shards i).mapValues (·.recover_to now)
  let out := (List.finRange TRUST_SHARDS).flatMap fun i =>
    (order.walk (shards i).entries).map fun p =>
      { agent_id := p.1
        score := p.2.score
        requires_reauth :=
          match p.2.locked_at with
          | some locked_at => !p.2.may_unlock locked_at now
          | none => false : AgentTrustSnapshot }
  (⟨shards⟩, (out.insertionSort fun a b => a.score ≤ b.score).take limit)

end TrustDecayEngine

/-! ## Runs -/

/-- The calls. A packet thread hands `requires_reauth_at` a reading that it has taken before. -/
inductive TrustCall
  | score (agent_id : Text)
  | scope_cap (agent_id : Text)
  | penalize (agent_id : Text) (kind : PenaltyKind)
  | reward (agent_id : Text) (kind : RewardKind) (is_irreversible_class : Bool)
  | requires_reauth (agent_id : Text)
  | requires_reauth_at (agent_id : Text) (now : ℚ)
  | snapshot (limit : ℕ)
  | sweep_stale

/-- A call, what the clock shows while it holds the lock, and the order of the map. -/
structure TrustStep where
  clock : ℚ
  order : MapOrder TrustEntry
  call : TrustCall

namespace TrustStep

def reading (s : TrustStep) : ℚ :=
  match s.call with
  | .requires_reauth_at _ now => now
  | _ => s.clock

end TrustStep

namespace TrustDecayEngine

variable (t : TrustDecayEngine)

def step (s : TrustStep) : TrustDecayEngine :=
  match s.call with
  | .score agent_id => (t.score s.clock agent_id).1
  | .scope_cap agent_id => (t.scope_cap s.clock agent_id).1
  | .penalize agent_id kind => (t.penalize s.order s.clock agent_id kind).1
  | .reward agent_id kind is_irreversible_class =>
    (t.reward s.order s.clock agent_id kind is_irreversible_class).1
  | .requires_reauth agent_id => (t.requires_reauth s.clock agent_id).1
  | .requires_reauth_at agent_id now => (t.requires_reauth_at agent_id now).1
  | .snapshot limit => (t.snapshot s.order s.clock limit).1
  | .sweep_stale => (t.sweep_stale s.clock).1

def run (steps : List TrustStep) : TrustDecayEngine := steps.foldl step t

/-! ## What a call does to the entry of an agent -/

/-- What a call with the reading `now` does to an entry, and whether it brings it up to `now`. -/
inductive Touch (now : ℚ) : Bool → Option TrustEntry → Option TrustEntry → Prop
  | same (entry : Option TrustEntry) : Touch now false entry entry
  | swept (e : TrustEntry) (hfree : e.locked_at = none) : Touch now false (some e) none
  | absent : Touch now true none none
  | recovered (e : TrustEntry) : Touch now true (some e) (some (e.recover_to now))
  | evicted (e : TrustEntry) (hfree : e.locked_at = none) : Touch now true (some e) none
  | penalized (entry : Option TrustEntry) (kind : PenaltyKind) :
      Touch now true entry (some (((entry.getD (.fresh now)).recover_to now).penalized kind now))
  | limited (entry : Option TrustEntry) :
      Touch now true entry
        (some (((entry.getD (.fresh now)).recover_to now).try_consume_reward_slot now).1)
  | rewarded (entry : Option TrustEntry) (kind : RewardKind) (is_irreversible_class : Bool) :
      Touch now true entry (some ((((entry.getD (.fresh now)).recover_to
        now).try_consume_reward_slot now).1.rewarded kind is_irreversible_class))
  | unlocked (e : TrustEntry) (locked_at : ℚ) (hat : e.locked_at = some locked_at)
      (hcooldown : TRUST_REAUTH_MIN_COOLDOWN_SECONDS ≤ now - locked_at)
      (hscore : TRUST_REAUTH_THRESHOLD ≤ (e.recover_to now).score) :
      Touch now true (some e) (some ((e.recover_to now).unlock hscore))

theorem entry_set_shard (agent_id : Text) (entries : Table Text TrustEntry) (a : Text) :
    (t.set_shard agent_id entries).entry a =
      if trust_shard_index a = trust_shard_index agent_id then entries.get a else t.entry a := by
  unfold set_shard entry shard
  simp only [Function.update_apply]
  split_ifs
  · rfl
  · rfl

theorem entry_set_insert (agent_id : Text) (e : TrustEntry) (a : Text) :
    (t.set_shard agent_id ((t.shard agent_id).insert agent_id e)).entry a =
      if a = agent_id then some e else t.entry a := by
  rw [entry_set_shard, get_insert]
  by_cases ha : a = agent_id
  · rw [ha, if_pos rfl, if_pos rfl, if_pos rfl]
  · rw [if_neg ha, if_neg ha]
    split_ifs with hshard
    · rw [entry, shard, shard, hshard]
    · rfl

theorem full_of_contains {entries : Table Text TrustEntry} {agent_id : Text}
    (h : full entries agent_id = true) : entries.get agent_id = none := by
  have hcontains := (Bool.and_eq_true_iff.mp h).2
  rw [contains, Bool.not_eq_true', Option.isSome_eq_false_iff, Option.isNone_iff_eq_none]
    at hcontains
  exact hcontains

theorem get_make_room (order : MapOrder TrustEntry) (now : ℚ) {entries : Table Text TrustEntry}
    {agent_id : Text} (hfull : full entries agent_id = true) (a : Text) :
    (make_room order now entries agent_id).get a = (entries.get a).map (·.recover_to now) ∨
      (make_room order now entries agent_id).get a = none ∧
        ∀ e, entries.get a = some e → e.locked_at = none := by
  unfold make_room
  rw [if_pos hfull]
  simp only
  generalize hkept : (entries.mapValues (·.recover_to now)).retain (fun _ e =>
    decide (e.score < TRUST_SCORE_INITIAL) || e.locked_at.isSome) = retained
  have hretained : retained.get a = (entries.get a).map (·.recover_to now) ∨
      retained.get a = none ∧ ∀ e, entries.get a = some e → e.locked_at = none := by
    cases hget : retained.get a with
    | some e =>
      rw [← hkept] at hget
      have hmap := (get_retain.mp hget).1
      rw [get_mapValues] at hmap
      exact .inl hmap.symm
    | none =>
      refine .inr ⟨rfl, fun e he => ?_⟩
      by_contra hlocked
      have hkeep : retained.get a = some (e.recover_to now) := by
        rw [← hkept]
        refine get_retain.mpr ⟨?_, ?_⟩
        · rw [get_mapValues, he]
          rfl
        · exact Bool.or_eq_true_iff.mpr (.inr (Option.isSome_iff_ne_none.mpr hlocked))
      rw [hkeep] at hget
      cases hget
  split_ifs with hstill
  · rw [get_removeAll]
    split_ifs with hevicted
    · refine .inr ⟨rfl, fun e he => ?_⟩
      -- whoever is evicted stands among the entries that are not locked
      obtain ⟨p, hp, rfl⟩ := List.mem_map.mp hevicted
      obtain ⟨q, hq, rfl⟩ := List.mem_map.mp ((List.perm_insertionSort _ _).subset
        (List.mem_of_mem_take hp))
      obtain ⟨hwalk, hfree⟩ := List.mem_filter.mp hq
      have hentry := mem_entries.mp ((order.perm _).subset hwalk)
      rcases hretained with hmap | ⟨hnone, -⟩
      · rw [hmap, he] at hentry
        rw [← Option.some.inj hentry] at hfree
        exact Option.isNone_iff_eq_none.mp hfree
      · rw [hnone] at hentry
        cases hentry
    · exact hretained
  · exact hretained

theorem get_make_room_self (order : MapOrder TrustEntry) (now : ℚ)
    (entries : Table Text TrustEntry) (agent_id : Text) :
    (make_room order now entries agent_id).get agent_id = entries.get agent_id := by
  by_cases hfull : full entries agent_id = true
  · have habsent := full_of_contains hfull
    rcases get_make_room order now hfull agent_id with hmap | ⟨hnone, -⟩
    · rw [hmap, habsent]
      rfl
    · rw [hnone, habsent]
  · rw [make_room, if_neg hfull]

section Touches

variable (t : TrustDecayEngine) (order : MapOrder TrustEntry) (now : ℚ) (agent_id a : Text)

theorem touch_insert {e e' : TrustEntry} (hentry : t.entry agent_id = some e)
    (h : Touch now true (some e) (some e')) :
    Touch now (decide (agent_id = a)) (t.entry a)
      ((t.set_shard agent_id ((t.shard agent_id).insert agent_id e')).entry a) := by
  rw [entry_set_insert]
  by_cases ha : a = agent_id
  · rw [ha, if_pos rfl, decide_eq_true rfl, hentry]
    exact h
  · rw [if_neg ha, decide_eq_false (Ne.symm ha)]
    exact .same _

theorem touch_none (hentry : t.entry agent_id = none) :
    Touch now (decide (agent_id = a)) (t.entry a) (t.entry a) := by
  by_cases ha : agent_id = a
  · rw [decide_eq_true ha, ← ha, hentry]
    exact .absent
  · rw [decide_eq_false ha]
    exact .same _

theorem touch_score :
    Touch now (decide (agent_id = a)) (t.entry a) ((t.score now agent_id).1.entry a) := by
  unfold score
  split
  case h_1 e hentry => exact touch_insert t now agent_id a hentry (.recovered e)
  case h_2 hentry => exact touch_none t now agent_id a hentry

theorem touch_requires_reauth_at : Touch now (decide (agent_id = a)) (t.entry a)
      ((t.requires_reauth_at agent_id now).1.entry a) := by
  unfold requires_reauth_at
  split
  case h_1 hentry => exact touch_none t now agent_id a hentry
  case h_2 e hentry =>
    simp only
    split
    case h_1 hfree => exact touch_insert t now agent_id a hentry (.recovered e)
    case h_2 locked_at hat =>
      by_cases hunlock : (e.recover_to now).may_unlock locked_at now = true
      · rw [dif_pos hunlock]
        obtain ⟨hcooldown, hscore⟩ := TrustEntry.may_unlock_iff.mp hunlock
        exact touch_insert t now agent_id a hentry (.unlocked e locked_at hat hcooldown hscore)
      · rw [dif_neg hunlock]
        exact touch_insert t now agent_id a hentry (.recovered e)

/-- Whether making room for an agent brings the entry of another up to date. -/
def makes_room : Bool :=
  trust_shard_index agent_id = trust_shard_index a && full (t.shard agent_id) agent_id

theorem touch_make_room {e : TrustEntry} (h : Touch now true (t.entry agent_id) (some e)) :
    Touch now (agent_id = a || t.makes_room agent_id a) (t.entry a) ((t.set_shard agent_id
        ((make_room order now (t.shard agent_id) agent_id).insert agent_id e)).entry a) := by
  by_cases ha : a = agent_id
  · rw [ha, decide_eq_true rfl, Bool.true_or, entry_set_shard, if_pos rfl, get_insert_self]
    exact h
  rw [entry_set_shard, get_insert, if_neg ha, decide_eq_false (Ne.symm ha), Bool.false_or,
    makes_room]
  by_cases hshard : trust_shard_index a = trust_shard_index agent_id
  · have hentry : t.entry a = (t.shard agent_id).get a := by
      rw [entry, shard, shard, hshard]
    rw [if_pos hshard, hentry, decide_eq_true hshard.symm, Bool.true_and]
    by_cases hfull : full (t.shard agent_id) agent_id = true
    · rw [hfull]
      rcases get_make_room order now hfull a with hmap | ⟨hnone, hfree⟩
      · rw [hmap]
        cases (t.shard agent_id).get a with
        | some e => exact .recovered e
        | none => exact .absent
      · rw [hnone]
        cases hget : (t.shard agent_id).get a with
        | some e => exact .evicted e (hfree e hget)
        | none => exact .absent
    · rw [make_room, if_neg hfull, Bool.eq_false_iff.mpr hfull]
      exact .same _
  · rw [if_neg hshard, decide_eq_false (Ne.symm hshard), Bool.false_and]
    exact .same _

theorem touch_reward (kind : RewardKind) (is_irreversible_class : Bool) :
    Touch now (agent_id = a || t.makes_room agent_id a) (t.entry a)
      ((t.reward order now agent_id kind is_irreversible_class).1.entry a) := by
  unfold reward
  simp only [get_make_room_self]
  split
  case h_1 e hslot =>
    apply touch_make_room
    rw [show e = _ from (congrArg Prod.fst hslot).symm]
    exact .limited _
  case h_2 e hslot =>
    apply touch_make_room
    rw [show e = _ from (congrArg Prod.fst hslot).symm]
    exact .rewarded _ kind is_irreversible_class

theorem touch_snapshot (limit : ℕ) :
    Touch now true (t.entry a) ((t.snapshot order now limit).1.entry a) := by
  have hentry : (t.snapshot order now limit).1.entry a = (t.entry a).map (·.recover_to now) :=
    get_mapValues _ _ _
  rw [hentry]
  cases t.entry a with
  | some e => exact .recovered e
  | none => exact .absent

theorem touch_sweep_stale : Touch now false (t.entry a) ((t.sweep_stale now).1.entry a) := by
  have hretain : ∀ e, (t.sweep_stale now).1.entry a = some e ↔
      t.entry a = some e ∧ kept now e = true := fun e => get_retain
  cases hafter : (t.sweep_stale now).1.entry a with
  | some e =>
    rw [((hretain e).mp hafter).1]
    exact .same _
  | none =>
    cases hbefore : t.entry a with
    | none => exact .same none
    | some e =>
      refine .swept e (by_contra fun hlocked => ?_)
      have hkept : kept now e = true :=
        Bool.or_eq_true_iff.mpr (.inl (Option.isSome_iff_ne_none.mpr hlocked))
      rw [(hretain e).mpr ⟨hbefore, hkept⟩] at hafter
      cases hafter

end Touches

/-- Whether a call brings the entry of an agent up to its reading. -/
def recovers (t : TrustDecayEngine) (s : TrustStep) (a : Text) : Bool :=
  match s.call with
  | .score agent_id => agent_id = a
  | .scope_cap agent_id => agent_id = a
  | .penalize agent_id _ => agent_id = a || t.makes_room agent_id a
  | .reward agent_id _ _ => agent_id = a || t.makes_room agent_id a
  | .requires_reauth agent_id => agent_id = a
  | .requires_reauth_at agent_id _ => agent_id = a
  | .snapshot _ => true
  | .sweep_stale => false

/-- **What a call does to the entry of an agent**, be it about that agent or not. -/
theorem step_touch (t : TrustDecayEngine) (s : TrustStep) (a : Text) :
    Touch s.reading (t.recovers s a) (t.entry a) ((t.step s).entry a) := by
  obtain ⟨clock, order, call⟩ := s
  cases call with
  | score agent_id | scope_cap agent_id => exact touch_score t clock agent_id a
  | penalize agent_id kind =>
    apply touch_make_room
    rw [get_make_room_self]
    exact .penalized _ kind
  | reward agent_id kind is_irreversible_class =>
    exact touch_reward t order clock agent_id a kind is_irreversible_class
  | requires_reauth agent_id => exact touch_requires_reauth_at t clock agent_id a
  | requires_reauth_at agent_id now => exact touch_requires_reauth_at t now agent_id a
  | snapshot limit => exact touch_snapshot t order clock a limit
  | sweep_stale => exact touch_sweep_stale t clock a

/-! ## Lockouts -/

theorem Touch.locked {now locked_at : ℚ} {recovers : Bool} {e : TrustEntry}
    {after : Option TrustEntry} (h : Touch now recovers (some e) after)
    (hat : e.locked_at = some locked_at) :
    ∃ e', after = some e' ∧
      (e'.locked_at = some locked_at ∨ TRUST_REAUTH_MIN_COOLDOWN_SECONDS ≤ now - locked_at) := by
  have hslot := (((some e).getD (.fresh now)).recover_to now).try_consume_reward_slot_fields now
  cases h with
  | same => exact ⟨e, rfl, .inl hat⟩
  | recovered => exact ⟨_, rfl, .inl hat⟩
  | penalized _ kind =>
    refine ⟨_, rfl, .inl ?_⟩
    refine (if_neg fun hnone => ?_).trans hat
    rw [show e.locked_at = none from hnone.2] at hat
    cases hat
  | limited => exact ⟨_, rfl, .inl (hslot.2.2.trans hat)⟩
  | rewarded _ kind is_irreversible_class => exact ⟨_, rfl, .inl (hslot.2.2.trans hat)⟩
  | unlocked _ at_ hat' hcooldown hscore =>
    rw [hat] at hat'
    rw [← Option.some.inj hat'] at hcooldown
    exact ⟨_, rfl, .inr hcooldown⟩
  | swept _ hfree | evicted _ hfree =>
    rw [hfree] at hat
    cases hat

theorem run_locked {t : TrustDecayEngine} {steps : List TrustStep} {a : Text} {e : TrustEntry}
    {locked_at : ℚ} (hentry : t.entry a = some e) (hat : e.locked_at = some locked_at)
    (hearly : ∀ s ∈ steps, s.reading - locked_at < TRUST_REAUTH_MIN_COOLDOWN_SECONDS) :
    ∃ e', (t.run steps).entry a = some e' ∧ e'.locked_at = some locked_at := by
  induction steps generalizing t e with
  | nil => exact ⟨e, hentry, hat⟩
  | cons s steps ih =>
    have htouch := t.step_touch s a
    rw [hentry] at htouch
    obtain ⟨e', hentry', hat' | hlate⟩ := htouch.locked hat
    · exact ih hentry' hat' fun s' hs' => hearly s' (List.mem_cons_of_mem _ hs')
    · exact absurd hlate (not_le.mpr (hearly s List.mem_cons_self))

theorem penalize_locks {t : TrustDecayEngine} {order : MapOrder TrustEntry} {now : ℚ} {a : Text}
    {kind : PenaltyKind} (hfree : ∀ e, t.entry a = some e → e.locked_at = none)
    (hlow : (t.penalize order now a kind).2.1 < TRUST_REAUTH_THRESHOLD) :
    ∃ e, (t.penalize order now a kind).1.entry a = some e ∧ e.locked_at = some now := by
  have hentry : (t.penalize order now a kind).1.entry a =
      some ((((t.entry a).getD (.fresh now)).recover_to now).penalized kind now) := by
    unfold penalize
    simp only [get_make_room_self]
    rw [entry_set_shard, if_pos rfl, get_insert_self]
    rfl
  refine ⟨_, hentry, if_pos ⟨?_, ?_⟩⟩
  · simp only [penalize, get_make_room_self] at hlow
    exact hlow
  · show ((t.entry a).getD (.fresh now)).locked_at = none
    cases hold : t.entry a with
    | none => rfl
    | some e => exact hfree e hold

theorem requires_reauth_of_locked {t : TrustDecayEngine} {a : Text} {e : TrustEntry}
    {locked_at now : ℚ} (hentry : t.entry a = some e) (hat : e.locked_at = some locked_at)
    (hnot : now - locked_at < TRUST_REAUTH_MIN_COOLDOWN_SECONDS ∨
      e.recovered_score now < TRUST_REAUTH_THRESHOLD) : (t.requires_reauth now a).2.1 = true := by
  have hstays : ¬ (e.recover_to now).may_unlock locked_at now = true := by
    intro hunlock
    obtain ⟨hcooldown, hscore⟩ := TrustEntry.may_unlock_iff.mp hunlock
    rcases hnot with hearly | hlow
    · exact absurd hcooldown (not_le.mpr hearly)
    · exact absurd hscore (not_le.mpr hlow)
  unfold requires_reauth requires_reauth_at
  rw [hentry]
  simp only
  rw [show (e.recover_to now).locked_at = some locked_at from hat]
  simp only
  rw [dif_neg hstays]

/-- **A lockout holds.** When a penalty at `t0` leaves an agent that is not locked below the
threshold, then after any calls about any agents, `requires_reauth` answers that the agent is locked
out while the cooldown is not over, and whenever the score is still below the threshold. No call
removes the entry while it is locked. -/
theorem lockout_holds (before after : List TrustStep) (order : MapOrder TrustEntry)
    (agent_id : Text) (kind : PenaltyKind) (t0 t : ℚ)
    (hfree : ∀ e, (new.run before).entry agent_id = some e → e.locked_at = none)
    (hlow : ((new.run before).penalize order t0 agent_id kind).2.1 < TRUST_REAUTH_THRESHOLD)
    (hclock : ∀ s ∈ after, s.reading ≤ t) :
    (t - t0 < TRUST_REAUTH_MIN_COOLDOWN_SECONDS ∨
        ((((new.run before).penalize order t0 agent_id kind).1.run after).score t agent_id).2 <
          TRUST_REAUTH_THRESHOLD →
      ((((new.run before).penalize order t0 agent_id kind).1.run after).requires_reauth t
        agent_id).2.1 = true) ∧
      ∀ done s rest, after = done ++ s :: rest →
        ∀ e, (((new.run before).penalize order t0 agent_id kind).1.run done).entry agent_id =
            some e → e.locked_at ≠ none →
          ((((new.run before).penalize order t0 agent_id kind).1.run done).step s).entry
            agent_id ≠ none := by
  obtain ⟨e0, hentry0, hat0⟩ := penalize_locks hfree hlow
  generalize ((new.run before).penalize order t0 agent_id kind).1 = locked at hentry0 ⊢
  constructor
  · rintro (hearly | hscore)
    · obtain ⟨e, hentry, hat⟩ := run_locked hentry0 hat0 fun s hs => by
        have hle := hclock s hs
        linarith
      exact requires_reauth_of_locked hentry hat (.inl hearly)
    · unfold score at hscore
      split at hscore
      case h_1 e hentry =>
        -- an entry with such a score is locked, whoever has locked it and when
        obtain ⟨locked_at, hat⟩ := Option.isSome_iff_exists.mp ((e.recover_to t).locked hscore)
        exact requires_reauth_of_locked hentry hat (.inr hscore)
      case h_2 hentry =>
        exact absurd hscore (show ¬ TRUST_SCORE_INITIAL < TRUST_REAUTH_THRESHOLD by decide +kernel)
  · intro done s rest _ e hentry hlocked
    obtain ⟨locked_at, hat⟩ := Option.ne_none_iff_exists'.mp hlocked
    have htouch := (locked.run done).step_touch s agent_id
    rw [hentry] at htouch
    obtain ⟨e', hentry', -⟩ := htouch.locked hat
    rw [hentry']
    exact Option.some_ne_none e'

def sampleTrustStep (clock : ℚ) (call : TrustCall) : TrustStep :=
  ⟨clock, ⟨id, fun _ => .refl _⟩, call⟩

theorem lockout_holds_sample :
    (((((new.run [sampleTrustStep 0 (.penalize [65] .ReplaySuspicion)]).penalize
        ⟨id, fun _ => .refl _⟩ 0 [65] .ReplaySuspicion).1.run
      [sampleTrustStep 1 (.reward [65] .ValidReceipt true),
        sampleTrustStep 2 (.penalize [66] .GenericHardDrop),
        sampleTrustStep 30 .sweep_stale]).requires_reauth 59 [65]).2.1 = true) := by
  refine (lockout_holds [sampleTrustStep 0 (.penalize [65] .ReplaySuspicion)] _
    ⟨id, fun _ => .refl _⟩ [65] .ReplaySuspicion 0 59 ?_ (by decide +kernel) (by decide +kernel)).1
    (.inl (by decide +kernel))
  have hfree : ((new.run [sampleTrustStep 0 (.penalize [65] .ReplaySuspicion)]).entry
      [65]).all (·.locked_at = none) = true := by
    decide +kernel
  exact fun e hentry => of_decide_eq_true (Option.all_eq_true _ _ |>.mp hfree e hentry)

end TrustDecayEngine

end Saacp
