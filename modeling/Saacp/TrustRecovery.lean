/-
**What passive recovery credits**, for readings of the clock that arrive in any order.

An entry remembers up to which second time has been folded into its score, and that is the reading
of the last call, whatever it is. A packet thread reads the clock before it waits for the lock. The
induction carries the second `mark` up to which everything has been paid for; the credits telescope.
-/
import Saacp.TrustDecay

set_option autoImplicit false

namespace Saacp

open List

namespace TrustEntry

theorem recovered_score_sub_le (e : TrustEntry) {now : ℚ} (h : e.last_update ≤ now) :
    e.recovered_score now - e.score ≤ TRUST_RECOVERY_PER_SECOND * (now - e.last_update) := by
  have hnonneg : 0 ≤ now - e.last_update := sub_nonneg.mpr h
  have hrate := mul_le_mul_of_nonneg_left e.effective_rate_le hnonneg
  unfold recovered_score
  simp only [max_eq_left hnonneg]
  split_ifs with helapsed
  · have hmin := min_le_left (e.score + (now - e.last_update) * e.effective_rate) 1
    linarith
  · have hzero : now - e.last_update = 0 := le_antisymm (not_lt.mp helapsed) hnonneg
    rw [hzero, mul_zero, sub_self]

end TrustEntry

namespace TrustDecayEngine

/-! ## Credits -/

/-- What passive recovery adds to the score of an agent during a call. -/
def credit (t : TrustDecayEngine) (agent_id : Text) (s : TrustStep) : ℚ :=
  match t.entry agent_id with
  | some e => if t.recovers s agent_id then e.recovered_score s.reading - e.score else 0
  | none => 0

def credited (t : TrustDecayEngine) (agent_id : Text) : List TrustStep → ℚ
  | [] => 0
  | s :: steps => t.credit agent_id s + credited (t.step s) agent_id steps

/-- A reading that was taken before is not older than the entry that it meets. -/
def timely (t : TrustDecayEngine) (agent_id : Text) (s : TrustStep) : Bool :=
  match s.call, t.entry agent_id with
  | .requires_reauth_at a now, some e => a ≠ agent_id || e.last_update ≤ now
  | _, _ => true

def all_timely (t : TrustDecayEngine) (agent_id : Text) : List TrustStep → Bool
  | [] => true
  | s :: steps => t.timely agent_id s && all_timely (t.step s) agent_id steps

/-! ## One call -/

variable {e : TrustEntry} {t : TrustDecayEngine} {s : TrustStep} {a : Text}

theorem Touch.eq_of_not_recovers {now : ℚ} {before after : Option TrustEntry}
    (h : Touch now false before after) (he : after = some e) : before = some e := by
  cases h with
  | same => exact he
  | swept => cases he

theorem Touch.last_update_eq {now : ℚ} {before after : Option TrustEntry}
    (h : Touch now true before after) (he : after = some e) : e.last_update = now := by
  have hslot :=
    (TrustEntry.recover_to (before.getD (.fresh now)) now).try_consume_reward_slot_fields now
  cases h with
  | absent | evicted => cases he
  | recovered | penalized | unlocked =>
    rw [← Option.some.inj he]
    rfl
  | limited | rewarded =>
    rw [← Option.some.inj he]
    exact hslot.2.1

theorem reading_of_created
    (hbefore : t.entry a = none) (hafter : (t.step s).entry a = some e) : s.reading = s.clock := by
  obtain ⟨clock, order, call⟩ := s
  cases call with
  | requires_reauth_at agent_id now =>
    exfalso
    by_cases ha : agent_id = a
    · have hsame : (t.requires_reauth_at agent_id now).1 = t := by
        rw [requires_reauth_at, ha, hbefore]
      simp only [step, hsame, hbefore, reduceCtorEq] at hafter
    · have htouch := touch_requires_reauth_at t now agent_id a
      rw [decide_eq_false ha] at htouch
      rw [htouch.eq_of_not_recovers hafter] at hbefore
      cases hbefore
  | _ => rfl

theorem last_update_le_reading (hentry : t.entry a = some e) (hclock : e.last_update ≤ s.clock)
    (htimely : t.timely a s = true) (hrecovers : t.recovers s a = true) :
    e.last_update ≤ s.reading := by
  obtain ⟨clock, order, call⟩ := s
  cases call with
  | requires_reauth_at agent_id now =>
    have hagent : agent_id = a := of_decide_eq_true hrecovers
    simp only [timely, hentry, hagent, ne_eq, not_true_eq_false, decide_false, Bool.false_or,
      decide_eq_true_eq] at htimely
    exact htimely
  | _ => exact hclock

theorem credit_of_not_recovers (hrecovers : t.recovers s a = false) : t.credit a s = 0 := by
  unfold credit
  split
  · rw [hrecovers, if_neg Bool.false_ne_true]
  · rfl

/-! ## Runs -/

theorem last_update_le_of_run {steps : List TrustStep} {c : ℚ}
    (hstart : ∀ e, t.entry a = some e → e.last_update ≤ c) (hread : ∀ s ∈ steps, s.reading ≤ c)
    (he : (t.run steps).entry a = some e) : e.last_update ≤ c := by
  induction steps generalizing t with
  | nil => exact hstart e he
  | cons s steps ih =>
    refine ih (fun e he => ?_) (fun s' hs' => hread s' (mem_cons_of_mem _ hs')) he
    have htouch := t.step_touch s a
    cases hrecovers : t.recovers s a with
    | false =>
      rw [hrecovers] at htouch
      exact hstart e (htouch.eq_of_not_recovers he)
    | true =>
      rw [hrecovers] at htouch
      rw [htouch.last_update_eq he]
      exact hread s mem_cons_self

/-- **Telescoping**: if everything up to `mark` is paid for, a run adds at most the rate for the
rest. -/
theorem credited_le {steps : List TrustStep} {mark t2 : ℚ}
    (hle : mark ≤ t2) (hmark : ∀ e, t.entry a = some e → mark ≤ e.last_update)
    (hpast : ∀ e, t.entry a = some e → ∀ s ∈ steps, e.last_update ≤ s.clock)
    (hwindow : ∀ s ∈ steps, mark ≤ s.clock ∧ s.clock ≤ t2)
    (hclock : (steps.map TrustStep.clock).Pairwise (· ≤ ·))
    (hread : ∀ s ∈ steps, s.reading ≤ s.clock) (htimely : t.all_timely a steps = true) :
    t.credited a steps ≤ TRUST_RECOVERY_PER_SECOND * (t2 - mark) := by
  induction steps generalizing t mark with
  | nil => exact mul_nonneg (by decide +kernel) (sub_nonneg.mpr hle)
  | cons s steps ih =>
    obtain ⟨htimely_s, htimely⟩ := Bool.and_eq_true_iff.mp htimely
    rw [map_cons, pairwise_cons] at hclock
    obtain ⟨hread_s, hread⟩ := forall_mem_cons.mp hread
    obtain ⟨hwindow_s, hwindow⟩ := forall_mem_cons.mp hwindow
    have hafter : ∀ s' ∈ steps, s.clock ≤ s'.clock :=
      fun s' hs' => hclock.1 _ (mem_map_of_mem hs')
    have htouch := t.step_touch s a
    unfold credited
    cases hrecovers : t.recovers s a with
    | false =>
      rw [hrecovers] at htouch
      rw [credit_of_not_recovers hrecovers, zero_add]
      exact ih hle (fun e he => hmark e (htouch.eq_of_not_recovers he))
        (fun e he s' hs' => hpast e (htouch.eq_of_not_recovers he) s' (mem_cons_of_mem _ hs'))
        hwindow hclock.2 hread htimely
    | true =>
      rw [hrecovers] at htouch
      have hpast' : ∀ e, (t.step s).entry a = some e → ∀ s' ∈ steps, e.last_update ≤ s'.clock := by
        intro e he s' hs'
        rw [htouch.last_update_eq he]
        exact hread_s.trans (hafter s' hs')
      cases hbefore : t.entry a with
      | none =>
        -- an entry that is made now starts with the clock, which is not before the mark
        have hzero : t.credit a s = 0 := by rw [credit, hbefore]
        rw [hzero, zero_add]
        refine ih hle (fun e he => ?_) hpast' hwindow hclock.2 hread htimely
        rw [htouch.last_update_eq he, reading_of_created hbefore he]
        exact hwindow_s.1
      | some e =>
        -- the seconds up to the reading are paid for, and the mark moves there
        have hpaid := e.recovered_score_sub_le (last_update_le_reading hbefore
          (hpast e hbefore s mem_cons_self) htimely_s hrecovers)
        rw [credit, hbefore]
        simp only [hrecovers, if_true]
        have hrest := ih (hread_s.trans hwindow_s.2) (fun e' he' => (htouch.last_update_eq he').ge)
          hpast' (fun s' hs' => ⟨hread_s.trans (hafter s' hs'), (hwindow s' hs').2⟩) hclock.2 hread
          htimely
        have hgap : 0 ≤ TRUST_RECOVERY_PER_SECOND * (e.last_update - mark) :=
          mul_nonneg (by decide +kernel) (sub_nonneg.mpr (hmark e hbefore))
        linarith

/-- **Recovery time is credited once** while no reading is older than the entry it meets. Between
an instant `t1` up to which the entry has been brought, or at which there is none, and an instant
`t2`, calls about this and any other agents add at most the rate for the seconds between. -/
theorem recovery_credited_once (before during : List TrustStep) (agent_id : Text) (t1 t2 : ℚ)
    (hle : t1 ≤ t2) (hclock : ((before ++ during).map TrustStep.clock).Pairwise (· ≤ ·))
    (hread : ∀ s ∈ before ++ during, s.reading ≤ s.clock)
    (hwindow : ∀ s ∈ during, t1 ≤ s.clock ∧ s.clock ≤ t2)
    (hstart : ∀ e, (new.run before).entry agent_id = some e → t1 ≤ e.last_update)
    (htimely : (new.run before).all_timely agent_id during = true) :
    (new.run before).credited agent_id during ≤ TRUST_RECOVERY_PER_SECOND * (t2 - t1) := by
  rw [map_append, pairwise_append] at hclock
  refine credited_le hle hstart (fun e he s hs => ?_) hwindow hclock.2.1
    (fun s hs => hread s (mem_append_right _ hs)) htimely
  have hnone : ∀ e, new.entry agent_id = some e → e.last_update ≤ s.clock := fun e he => by cases he
  refine last_update_le_of_run hnone (fun s' hs' => ?_) he
  exact (hread s' (mem_append_left _ hs')).trans
    (hclock.2.2 _ (mem_map_of_mem hs') _ (mem_map_of_mem hs))

theorem recovery_credited_once_sample :
    (new.run [sampleTrustStep 0 (.penalize [65] .ReplaySuspicion)]).credited [65]
      [sampleTrustStep 50 (.score [65]), sampleTrustStep 90 (.requires_reauth_at [65] 60),
        sampleTrustStep 100 (.score [65])] ≤ TRUST_RECOVERY_PER_SECOND * (100 - 0) := by
  refine recovery_credited_once [sampleTrustStep 0 (.penalize [65] .ReplaySuspicion)]
    [sampleTrustStep 50 (.score [65]), sampleTrustStep 90 (.requires_reauth_at [65] 60),
      sampleTrustStep 100 (.score [65])] [65] 0 100 (by decide +kernel) (by decide +kernel)
    (by decide +kernel) (by decide +kernel) ?_ (by decide +kernel)
  have hupdate : ((new.run [sampleTrustStep 0 (.penalize [65] .ReplaySuspicion)]).entry
      [65]).all (fun e => 0 ≤ e.last_update) = true := by
    decide +kernel
  exact fun e hentry => of_decide_eq_true (Option.all_eq_true _ _ |>.mp hupdate e hentry)

/-- **Recovery time is credited twice.** A packet thread reads the clock at 0 and gets the lock at
100, when the hundred seconds have been credited. It sets the entry back, and the next call credits
them again. -/
theorem recovery_credited_twice :
    ((new.run [sampleTrustStep 0 (.penalize [65] .ReplaySuspicion)]).entry [65]).map
        TrustEntry.last_update = some 0 ∧
      TRUST_RECOVERY_PER_SECOND * (100 - 0) <
        (new.run [sampleTrustStep 0 (.penalize [65] .ReplaySuspicion)]).credited [65]
          [sampleTrustStep 100 (.score [65]), sampleTrustStep 100 (.requires_reauth_at [65] 0),
            sampleTrustStep 100 (.score [65])] := by
  decide +kernel

end TrustDecayEngine

end Saacp
