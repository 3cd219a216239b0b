/-
**Proofs of identity**: `IdentityProver` and the challenges it remembers.

A proof is fresh while the clock is within `IDENTITY_PROOF_TTL` and the clock skew of its timestamp,
on either side. Its challenge is remembered for `IDENTITY_PROOF_TTL` from the reading of the clock
at its first use. `verify_proof` reads the clock twice, once for the freshness and once for the
eviction. A timestamp and a skew may be any double.
-/
import Saacp.Delegation
import Mathlib.Algebra.Order.Field.Rat
import Mathlib.Algebra.Order.Group.Abs
import Mathlib.Data.List.Dedup
import Mathlib.Tactic.Linarith

set_option autoImplicit false

open ByteCodec

namespace Saacp

open List Table

def IDENTITY_PROOF_TTL : ℚ := 30
def IDENTITY_PROVER_MAX_CHALLENGES : ℕ := 10000

structure ProverCrates extends FaitfCrates where
  fixed_6 : Double → Text

structure IdentityProver where
  used_challenges : Table (List UInt8) ℚ

namespace IdentityProver

def new : IdentityProver := ⟨.empty⟩

def proof_stale (now : ℚ) : Double → Double → Bool
  -- a comparison with NaN is false
  | .nan, _ => false
  | _, .nan => false
  | _, .infinity negative => negative
  | .infinity _, .number _ => true
  | .number timestamp, .number max_clock_skew =>
    IDENTITY_PROOF_TTL + max_clock_skew.toRat < |now - timestamp.toRat|

def evict_expired_challenges (now : ℚ) (challenges : Table (List UInt8) ℚ) : Table (List UInt8) ℚ :=
  challenges.retain fun _ exp => now ≤ exp

/-- The eviction of what expires first when there are too many challenges. -/
def make_room (order : MapOrder ℚ) (challenges : Table (List UInt8) ℚ) : Table (List UInt8) ℚ :=
  if IDENTITY_PROVER_MAX_CHALLENGES ≤ challenges.len then
    let evict_count := challenges.len + 1 - IDENTITY_PROVER_MAX_CHALLENGES
    let by_expiry := (order.walk challenges.entries).insertionSort fun a b => a.2 ≤ b.2
    challenges.removeAll ((by_expiry.take evict_count).map Prod.fst)
  else challenges

def proof_message (H : Hashes) (C : ProverCrates) (challenge : List UInt8) (agent_id : Text)
    (timestamp : Double) : List UInt8 :=
  H.sha256 (challenge ++ agent_id ++ C.fixed_6 timestamp)

end IdentityProver

/-- A call of `verify_proof`, with the order of the hash map and its two readings of the clock. -/
structure ProofCall where
  proof : List UInt8
  credential : AgentCredential
  challenge : List UInt8
  timestamp : Double
  max_clock_skew : Double
  order : MapOrder ℚ
  now : ℚ
  evict_now : ℚ
  now_le : now ≤ evict_now

variable {prover : IdentityProver}

namespace IdentityProver

def verify_signature (H : Hashes) (C : ProverCrates) (c : ProofCall) : Bool × String :=
  let message := proof_message H C c.challenge c.credential.agent_id c.timestamp
  match c.credential.agent_public_key C.toFaitfCrates with
  | .error _ => (false, "malformed_credential_public_key")
  | .ok pub_key =>
    if verify_data C.toClusterCrates pub_key message c.proof then (true, "")
    else (false, "invalid_proof_signature")

def verify_proof (H : Hashes) (C : ProverCrates) (prover : IdentityProver) (c : ProofCall) :
    IdentityProver × Bool × String :=
  if proof_stale c.now c.timestamp c.max_clock_skew then (prover, false, "proof_timestamp_expired")
  else
    let challenges := evict_expired_challenges c.evict_now prover.used_challenges
    if challenges.contains c.challenge then (⟨challenges⟩, false, "challenge_already_used")
    else
      (⟨(make_room c.order challenges).insert c.challenge (c.now + IDENTITY_PROOF_TTL)⟩,
        verify_signature H C c)

def sweep_expired_challenges (now : ℚ) (prover : IdentityProver) : IdentityProver × ℕ :=
  let challenges := evict_expired_challenges now prover.used_challenges
  (⟨challenges⟩, prover.used_challenges.len - challenges.len)

variable {H : Hashes} {C : ProverCrates} {c : ProofCall}

theorem get_evict_expired {now exp : ℚ} {challenges : Table (List UInt8) ℚ} {k : List UInt8} :
    (evict_expired_challenges now challenges).get k = some exp ↔
      challenges.get k = some exp ∧ now ≤ exp := by
  rw [evict_expired_challenges, get_retain, decide_eq_true_eq]

theorem verify_cases (H : Hashes) (C : ProverCrates) (prover : IdentityProver) (c : ProofCall) :
    let used := evict_expired_challenges c.evict_now prover.used_challenges
    let answer := verify_proof H C prover c
    proof_stale c.now c.timestamp c.max_clock_skew = true ∧
        answer = (prover, false, "proof_timestamp_expired") ∨
      proof_stale c.now c.timestamp c.max_clock_skew = false ∧
        ((∃ exp, used.get c.challenge = some exp ∧
            answer = (⟨used⟩, false, "challenge_already_used")) ∨
          used.get c.challenge = none ∧
            answer = (⟨(make_room c.order used).insert c.challenge (c.now + IDENTITY_PROOF_TTL)⟩,
              verify_signature H C c)) := by
  dsimp only
  rw [verify_proof]
  by_cases hstale : proof_stale c.now c.timestamp c.max_clock_skew = true
  · exact .inl ⟨hstale, if_pos hstale⟩
  · refine .inr ⟨eq_false_of_ne_true hstale, ?_⟩
    rw [if_neg hstale]
    cases hget : (evict_expired_challenges c.evict_now prover.used_challenges).get c.challenge with
    | none =>
      refine .inr ⟨rfl, if_neg ?_⟩
      rw [Table.contains, hget]
      decide
    | some exp =>
      refine .inl ⟨exp, rfl, if_pos ?_⟩
      rw [Table.contains, hget]
      rfl

theorem accepted_state (h : (verify_proof H C prover c).2.1 = true) :
    (verify_proof H C prover c).1.used_challenges.get c.challenge =
      some (c.now + IDENTITY_PROOF_TTL) := by
  rcases verify_cases H C prover c with ⟨-, heq⟩ | ⟨-, ⟨exp, -, heq⟩ | ⟨-, heq⟩⟩
  · rw [heq] at h
    cases h
  · rw [heq] at h
    cases h
  · rw [heq]
    exact get_insert_self _ _ _

theorem get_verify_proof {k : List UInt8} {exp : ℚ} (hget : prover.used_challenges.get k = some exp)
    (hexp : c.evict_now ≤ exp)
    (hroom : (evict_expired_challenges c.evict_now prover.used_challenges).len <
      IDENTITY_PROVER_MAX_CHALLENGES) :
    (verify_proof H C prover c).1.used_challenges.get k = some exp := by
  have hkept := get_evict_expired.mpr ⟨hget, hexp⟩
  rcases verify_cases H C prover c with ⟨-, heq⟩ | ⟨-, ⟨_, -, heq⟩ | ⟨hnone, heq⟩⟩
  · rw [heq]
    exact hget
  · rw [heq]
    exact hkept
  · have hne : k ≠ c.challenge := by
      rintro rfl
      rw [hkept] at hnone
      cases hnone
    rw [heq, get_insert, if_neg hne, make_room, if_neg (not_le.mpr hroom)]
    exact hkept

end IdentityProver

/-! ## Runs -/

inductive ProverCall
  | verify (c : ProofCall)
  | sweep (now : ℚ)

namespace ProverCall

open IdentityProver

def start : ProverCall → ℚ
  | verify c => c.now
  | sweep now => now

def finish : ProverCall → ℚ
  | verify c => c.evict_now
  | sweep now => now

def run (H : Hashes) (C : ProverCrates) (prover : IdentityProver) : ProverCall → IdentityProver
  | verify c => (verify_proof H C prover c).1
  | sweep now => (sweep_expired_challenges now prover).1

def run_all (H : Hashes) (C : ProverCrates) (prover : IdentityProver) (calls : List ProverCall) :
    IdentityProver :=
  calls.foldl (run H C) prover

def InOrder (calls : List ProverCall) : Prop := calls.Pairwise fun a b => a.finish ≤ b.start

/-- The challenges that are presented at a reading of the clock between two. -/
def presented (calls : List ProverCall) (t t' : ℚ) : List (List UInt8) :=
  calls.filterMap fun
    | verify c => if t ≤ c.now ∧ c.now ≤ t' then some c.challenge else none
    | sweep _ => none

/-- Fewer than `IDENTITY_PROVER_MAX_CHALLENGES` different challenges in any expiry period. -/
def FewChallenges (calls : List ProverCall) : Prop :=
  ∀ t, (presented calls t (t + IDENTITY_PROOF_TTL)).dedup.length < IDENTITY_PROVER_MAX_CHALLENGES

/-- What is remembered was presented, and is remembered from then on. -/
def Remembers (calls : List ProverCall) (prover : IdentityProver) : Prop :=
  ∀ k exp, prover.used_challenges.get k = some exp →
    ∃ c, verify c ∈ calls ∧ c.challenge = k ∧ exp = c.now + IDENTITY_PROOF_TTL

variable {H : Hashes} {C : ProverCrates} {calls past : List ProverCall}

theorem start_le_finish (call : ProverCall) : call.start ≤ call.finish := by
  cases call with
  | verify c => exact c.now_le
  | sweep now => exact le_refl now

theorem Remembers.of_le {prover' : IdentityProver} (h : Remembers calls prover)
    (hle : prover'.used_challenges ≤ prover.used_challenges) : Remembers calls prover' :=
  fun k exp hk => h k exp (hle k exp hk)

theorem evict_le (now : ℚ) (challenges : Table (List UInt8) ℚ) :
    evict_expired_challenges now challenges ≤ challenges :=
  retain_le _ _

theorem make_room_le (order : MapOrder ℚ) (challenges : Table (List UInt8) ℚ) :
    make_room order challenges ≤ challenges := by
  rw [make_room]
  split
  · exact removeAll_le _ _
  · exact le_refl _

theorem Remembers.run (h : Remembers past prover) (call : ProverCall) :
    Remembers (past ++ [call]) (run H C prover call) := by
  have hpast : Remembers (past ++ [call]) prover := by
    intro k exp hk
    obtain ⟨c, hc, hkey, hexp⟩ := h k exp hk
    exact ⟨c, mem_append_left _ hc, hkey, hexp⟩
  cases call with
  | sweep now => exact hpast.of_le (evict_le now _)
  | verify c =>
    rw [ProverCall.run]
    rcases verify_cases H C prover c with ⟨-, heq⟩ | ⟨-, ⟨_, -, heq⟩ | ⟨-, heq⟩⟩
    · rw [heq]
      exact hpast
    · rw [heq]
      exact hpast.of_le (evict_le _ _)
    · rw [heq]
      refine forall_insert (fun k exp hk => ?_) ⟨c, mem_append_right _ mem_cons_self, rfl, rfl⟩
      exact hpast k exp (evict_le _ _ k exp (make_room_le _ _ k exp hk))

theorem Remembers.run_all (h : Remembers past prover) (calls : List ProverCall) :
    Remembers (past ++ calls) (run_all H C prover calls) := by
  induction calls generalizing past prover with
  | nil =>
    rw [append_nil]
    exact h
  | cons call calls ih =>
    have hnext := ih (h.run (H := H) (C := C) call)
    rw [append_assoc] at hnext
    exact hnext

theorem remembers_new : Remembers [] .new := by
  intro k exp hk
  rw [IdentityProver.new, get_empty] at hk
  cases hk

theorem Remembers.room (h : Remembers past prover) (hfew : FewChallenges calls)
    (hsub : ∀ call ∈ past, call ∈ calls) {now : ℚ} (hnow : ∀ call ∈ past, call.start ≤ now) :
    (evict_expired_challenges now prover.used_challenges).len < IDENTITY_PROVER_MAX_CHALLENGES := by
  -- what is left was presented within the last period
  refine lt_of_le_of_lt (len_le_length ?_) (hfew (now - IDENTITY_PROOF_TTL))
  intro k exp hk
  obtain ⟨hget, hexp⟩ := get_evict_expired.mp hk
  obtain ⟨c, hc, rfl, rfl⟩ := h k exp hget
  have hlast : c.now ≤ now := hnow _ hc
  refine mem_dedup.mpr (mem_filterMap.mpr ⟨_, hsub _ hc, if_pos ⟨?_, ?_⟩⟩)
  all_goals linarith

theorem get_run_all {k : List UInt8} {exp : ℚ} (middle : List ProverCall)
    (h : Remembers past prover) (hfew : FewChallenges calls)
    (hsub : ∀ call ∈ past ++ middle, call ∈ calls) (horder : InOrder (past ++ middle))
    (hget : prover.used_challenges.get k = some exp) (hexp : ∀ call ∈ middle, call.finish ≤ exp) :
    (run_all H C prover middle).used_challenges.get k = some exp := by
  induction middle generalizing past prover with
  | nil => exact hget
  | cons call middle ih =>
    have hassoc : past ++ call :: middle = (past ++ [call]) ++ middle := by
      rw [append_assoc]
      rfl
    have hcall : call.finish ≤ exp := hexp call mem_cons_self
    have hstep : (run H C prover call).used_challenges.get k = some exp := by
      cases call with
      | sweep now => exact get_evict_expired.mpr ⟨hget, hcall⟩
      | verify c =>
        refine get_verify_proof hget hcall (h.room hfew ?_ ?_)
        · intro call hmem
          exact hsub call (mem_append_left _ hmem)
        · intro call hmem
          have hbefore := (pairwise_append.mp horder).2.2 call hmem (verify c)
            mem_cons_self
          exact call.start_le_finish.trans (hbefore.trans c.now_le)
    refine ih (h.run call) ?_ ?_ hstep ?_
    · rw [← hassoc]
      exact hsub
    · rw [← hassoc]
      exact horder
    · intro call' hmem
      exact hexp call' (mem_cons_of_mem call hmem)

/-- **A proof from the past is accepted at most once.** `δ` bounds the time between the two readings
of the clock in the second call; the proof is from the past if its timestamp and the skew lie that
much before its acceptance. -/
theorem past_proof_accepted_once (H : Hashes) (C : ProverCrates) (before middle : List ProverCall)
    (first second : ProofCall) (δ : ℚ)
    (horder : InOrder ((before ++ verify first :: middle) ++ [verify second]))
    (hfew : FewChallenges ((before ++ verify first :: middle) ++ [verify second]))
    (hchallenge : second.challenge = first.challenge)
    (haccepted : (verify_proof H C (run_all H C .new before) first).2.1 = true)
    (hquick : second.evict_now ≤ second.now + δ)
    (hpast : ∃ timestamp max_clock_skew, second.timestamp = .number timestamp ∧
      second.max_clock_skew = .number max_clock_skew ∧
      timestamp.toRat + max_clock_skew.toRat + δ ≤ first.now) :
    (verify_proof H C (run_all H C .new (before ++ verify first :: middle)) second).2.1 =
      false := by
  obtain ⟨timestamp, max_clock_skew, htimestamp, hskew, hpast⟩ := hpast
  by_cases hstale : proof_stale second.now second.timestamp second.max_clock_skew = true
  · rw [verify_proof, if_pos hstale]
  -- as long as the proof is fresh, the challenge is remembered
  have hnow : second.now ≤ timestamp.toRat + max_clock_skew.toRat + IDENTITY_PROOF_TTL := by
    rw [htimestamp, hskew, proof_stale, decide_eq_true_eq, not_lt] at hstale
    have hbound := (abs_le.mp hstale).2
    linarith
  have hexp : second.evict_now ≤ first.now + IDENTITY_PROOF_TTL := by linarith
  have hsplit : before ++ verify first :: middle = (before ++ [verify first]) ++ middle := by
    rw [append_assoc]
    rfl
  have hstate : run_all H C .new (before ++ verify first :: middle) =
      run_all H C (verify_proof H C (run_all H C .new before) first).1 middle := by
    rw [run_all, foldl_append]
    rfl
  have hremembers : Remembers (before ++ [verify first])
      (verify_proof H C (run_all H C .new before) first).1 := by
    have hbefore := (remembers_new.run_all (H := H) (C := C) before)
    rw [nil_append] at hbefore
    exact hbefore.run (verify first)
  rw [hstate]
  rw [hsplit] at horder hfew
  obtain ⟨horder', -, hlast⟩ := pairwise_append.mp horder
  have hget := get_run_all (H := H) (C := C) middle hremembers hfew
    (fun call hmem => mem_append_left _ hmem) horder' (accepted_state haccepted) fun call hmem =>
      ((hlast call (mem_append_right _ hmem) (verify second) mem_cons_self).trans
        second.now_le).trans hexp
  rw [← hchallenge] at hget
  rcases verify_cases H C _ second with ⟨-, heq⟩ | ⟨-, ⟨_, -, heq⟩ | ⟨hnone, -⟩⟩
  · rw [heq]
  · rw [heq]
  · cases hnone.symm.trans (get_evict_expired.mpr ⟨hget, hexp⟩)

section Samples

seal F64.toRat

def sampleProver : ProverCrates := { DelegationChain.sampleFaitf with fixed_6 := fun _ => [] }

def sampleProof (timestamp : F64) (reading : ℚ) : ProofCall where
  proof := sampleKey 65 ++ sampleKey 65
  credential := DelegationChain.sampleRoot 1 []
  challenge := [1, 2, 3]
  timestamp := .number timestamp
  max_clock_skew := .number wall_0
  order := ⟨id, fun _ => .refl _⟩
  now := reading
  evict_now := reading
  now_le := le_refl reading

theorem past_proof_accepted_once_sample :
    (verify_proof sampleIdeal sampleProver .new
        (sampleProof wall_0 12)).2.1 = true ∧
      (verify_proof sampleIdeal sampleProver
        (run_all sampleIdeal sampleProver .new
          ([] ++ verify (sampleProof wall_0 12) :: [])) (sampleProof wall_0 24)).2.1 = false := by
  have haccepted : (verify_proof sampleIdeal sampleProver .new
      (sampleProof wall_0 12)).2.1 = true := by decide +kernel
  refine ⟨haccepted, past_proof_accepted_once _ _ [] [] (sampleProof wall_0 12)
    (sampleProof wall_0 24) 0 ?_ ?_ rfl haccepted ?_ ?_⟩
  · rw [InOrder]
    decide +kernel
  · intro t
    refine lt_of_le_of_lt (dedup_sublist _).length_le ?_
    exact lt_of_le_of_lt (length_filterMap_le _ _) (by decide)
  · rw [add_zero]
    rfl
  · exact ⟨wall_0, wall_0, rfl, rfl, by decide +kernel⟩

/-- **A proof is accepted twice.** Its timestamp is 12 seconds ahead of its first use at second 0.
At second 31 the challenge is forgotten, and the proof is fresh until second 42. -/
theorem future_proof_accepted_twice : let first := sampleProof wall_12 0
    let second := sampleProof wall_12 31
    InOrder [verify first, verify second] ∧ FewChallenges [verify first, verify second] ∧
      first.proof = second.proof ∧ first.credential = second.credential ∧
      first.challenge = second.challenge ∧ first.timestamp = second.timestamp ∧
      (verify_proof sampleIdeal sampleProver .new first).2.1 = true ∧
      (verify_proof sampleIdeal sampleProver
        (run_all sampleIdeal sampleProver .new [verify first]) second).2.1 =
          true := by
  intro first second
  refine ⟨?_, ?_, rfl, rfl, rfl, rfl, by decide +kernel, by decide +kernel⟩
  · rw [InOrder]
    decide +kernel
  · intro t
    refine lt_of_le_of_lt (dedup_sublist _).length_le ?_
    exact lt_of_le_of_lt (length_filterMap_le _ _) (by decide)

end Samples

end ProverCall

end Saacp
