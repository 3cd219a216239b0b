/-
**The circuit breaker of an address**: `CircuitBreakerEntry`, its errors and its lockouts.

An entry without an error for the recovery period forgets how often it was locked out. The period is
counted from the last error, so that a lockout is part of it. Durations are exact rationals, and a
call of `record_error` reads the clock once.
-/
import Mathlib.Tactic.Linarith
import Mathlib.Tactic.NormNum

set_option autoImplicit false

namespace Saacp

def CIRCUIT_BREAKER_ERROR_THRESHOLD : ℕ := 5
def CIRCUIT_BREAKER_LOCKOUT_SECS : ℚ := 30
def CIRCUIT_BREAKER_MAX_LOCKOUT_SECS : ℚ := 14400
def CIRCUIT_BREAKER_RECOVERY_PERIOD_SECS : ℚ := 300

structure CircuitBreakerEntry where
  error_count : ℕ
  lockout_until : Option ℚ
  last_activity : ℚ
  consecutive_lockouts : ℕ
  deriving DecidableEq

namespace CircuitBreakerEntry

def new (now : ℚ) : CircuitBreakerEntry := ⟨0, none, now, 0⟩

variable (e : CircuitBreakerEntry)

def is_locked (now : ℚ) : Bool := e.lockout_until.any (now < ·)

def lockout_secs (consecutive_lockouts : ℕ) : ℚ :=
  min (CIRCUIT_BREAKER_LOCKOUT_SECS * 2 ^ min consecutive_lockouts 20)
    CIRCUIT_BREAKER_MAX_LOCKOUT_SECS

/-- How many lockouts still count at the next error. -/
def streak (now : ℚ) : ℕ :=
  if CIRCUIT_BREAKER_RECOVERY_PERIOD_SECS ≤ now - e.last_activity then 0
  else e.consecutive_lockouts

/-- A lockout that is over is forgotten, together with the errors before it. -/
def cleared (now : ℚ) : CircuitBreakerEntry :=
  if e.lockout_until.any (· ≤ now) then { e with error_count := 0, lockout_until := none } else e

def counted (now : ℚ) : CircuitBreakerEntry :=
  -- the panic of the checked addition, after `2 ^ 32` errors on one entry, is left out
  let e := { e with error_count := e.error_count + 1 }
  if CIRCUIT_BREAKER_ERROR_THRESHOLD ≤ e.error_count then
    { e with lockout_until := some (now + lockout_secs e.consecutive_lockouts) }
  else e

def record_error (now : ℚ) : CircuitBreakerEntry :=
  let was_locked := e.is_locked now
  let e := { e with consecutive_lockouts := e.streak now, last_activity := now }
  let e := (e.cleared now).counted now
  if !was_locked && e.is_locked now then
    { e with consecutive_lockouts := min (e.consecutive_lockouts + 1) (2 ^ 32 - 1) }
  else e

/-- The entry after the first errors of a sequence, which come at the times `t`. -/
def after (start : ℚ) (t : ℕ → ℚ) : ℕ → CircuitBreakerEntry
  | 0 => new start
  | n + 1 => (after start t n).record_error (t n)

/-! ## Durations -/

theorem lockout_secs_succ (c : ℕ) : lockout_secs c ≤ lockout_secs (min (c + 1) (2 ^ 32 - 1)) := by
  refine min_le_min_right _ (mul_le_mul_of_nonneg_left ?_ ?_)
  · exact pow_le_pow_right₀ (by norm_num) (by omega)
  · norm_num [CIRCUIT_BREAKER_LOCKOUT_SECS]

theorem lockout_secs_pos (c : ℕ) : 0 < lockout_secs c := by
  refine lt_min (mul_pos ?_ (pow_pos (by norm_num) _)) ?_
  · norm_num [CIRCUIT_BREAKER_LOCKOUT_SECS]
  · norm_num [CIRCUIT_BREAKER_MAX_LOCKOUT_SECS]

/-- Neither the bound on the exponent nor that of the counter matters below the ceiling. -/
theorem lockout_secs_min (k : ℕ) : lockout_secs (min k (2 ^ 32 - 1)) =
      min (CIRCUIT_BREAKER_LOCKOUT_SECS * 2 ^ k) CIRCUIT_BREAKER_MAX_LOCKOUT_SECS := by
  have hmin : min (min k (2 ^ 32 - 1)) 20 = min k 20 := by omega
  rw [lockout_secs, hmin]
  by_cases hk : k ≤ 20
  · rw [min_eq_left hk]
  · have hpow : (2 : ℚ) ^ 20 ≤ 2 ^ k := pow_le_pow_right₀ (by norm_num) (by omega)
    rw [min_eq_right (by omega : 20 ≤ k)]
    simp only [CIRCUIT_BREAKER_LOCKOUT_SECS, CIRCUIT_BREAKER_MAX_LOCKOUT_SECS]
    rw [min_eq_right (by norm_num), min_eq_right (by linarith)]

/-! ## One error -/

variable {e : CircuitBreakerEntry} {now until_ : ℚ} {n c : ℕ}

theorem streak_eq (h : now - e.last_activity < CIRCUIT_BREAKER_RECOVERY_PERIOD_SECS ∨
    e.consecutive_lockouts = 0) : e.streak now = e.consecutive_lockouts := by
  unfold streak
  split_ifs with hquiet
  · rcases h with hlt | hzero
    · exact absurd hquiet (not_le.mpr hlt)
    · exact hzero.symm
  · rfl

theorem record_error_locked (huntil : e.lockout_until = some until_) (hlt : now < until_) :
    e.record_error now =
      counted { e with consecutive_lockouts := e.streak now, last_activity := now } now := by
  have hlocked : e.is_locked now = true := by simp [is_locked, huntil, hlt]
  have hkept : (e.lockout_until.any (· ≤ now)) = false := by simp [huntil, hlt]
  simp [record_error, cleared, hlocked, hkept]

theorem record_error_unlocked (hn : e.lockout_until = none ∧ e.error_count = n ∨
      (∃ until_ ≤ now, e.lockout_until = some until_) ∧ n = 0) (hc : e.streak now = c) :
    e.record_error now = if CIRCUIT_BREAKER_ERROR_THRESHOLD ≤ n + 1 then
        ⟨n + 1, some (now + lockout_secs c), now, min (c + 1) (2 ^ 32 - 1)⟩
      else ⟨n + 1, none, now, c⟩ := by
  have hlocked : e.is_locked now = false := by
    rcases hn with ⟨hnone, -⟩ | ⟨⟨until_, hle, huntil⟩, -⟩
    · simp [is_locked, hnone]
    · simp [is_locked, huntil, hle]
  have hcleared : cleared { e with consecutive_lockouts := e.streak now, last_activity := now } now
      = ⟨n, none, now, c⟩ := by
    rcases hn with ⟨hnone, hcount⟩ | ⟨⟨until_, hle, huntil⟩, hzero⟩
    · simp [cleared, hnone, hcount, hc]
    · simp [cleared, huntil, hle, hzero, hc]
  have hpos := lockout_secs_pos c
  simp only [record_error, hlocked, hcleared, counted]
  split_ifs with hmany hnow hnow
  · rfl
  · simp [is_locked, hpos] at hnow
  · simp [is_locked] at hnow
  · rfl

/-! ## Errors during a lockout -/

/-- A lockout ends no later than one that would begin with the last error. -/
def Within (e : CircuitBreakerEntry) : Prop :=
  ∀ until_, e.lockout_until = some until_ →
    until_ ≤ e.last_activity + lockout_secs e.consecutive_lockouts

theorem within_record_error (h : e.Within) (hle : e.last_activity ≤ now)
    (hprompt : e.is_locked now = true →
      now - e.last_activity < CIRCUIT_BREAKER_RECOVERY_PERIOD_SECS) :
    (e.record_error now).Within ∧ ∀ until_, e.lockout_until = some until_ → now < until_ →
      ∃ until', (e.record_error now).lockout_until = some until' ∧ until_ ≤ until' := by
  by_cases hlocked : ∃ until_, e.lockout_until = some until_ ∧ now < until_
  · obtain ⟨until_, huntil, hlt⟩ := hlocked
    have hstreak := streak_eq (.inl (hprompt (by simp [is_locked, huntil, hlt])))
    have hbound : until_ ≤ now + lockout_secs e.consecutive_lockouts :=
      (h until_ huntil).trans (add_le_add_left hle _)
    rw [record_error_locked huntil hlt, hstreak, counted]
    split_ifs with hmany
    · refine ⟨fun _ hnew => (Option.some.inj hnew).ge, fun u hu _ => ⟨_, rfl, ?_⟩⟩
      rwa [← Option.some.inj (huntil.symm.trans hu)]
    · refine ⟨fun u hu => ?_, fun u hu _ => ⟨u, hu, le_rfl⟩⟩
      rwa [← Option.some.inj (huntil.symm.trans hu)]
  · have hfree : ∃ n, e.lockout_until = none ∧ e.error_count = n ∨
        (∃ until_ ≤ now, e.lockout_until = some until_) ∧ n = 0 := by
      cases huntil : e.lockout_until with
      | none => exact ⟨_, .inl ⟨rfl, rfl⟩⟩
      | some u =>
        exact ⟨0, .inr ⟨⟨u, not_lt.mp fun hlt => hlocked ⟨u, huntil, hlt⟩, rfl⟩, rfl⟩⟩
    obtain ⟨n, hn⟩ := hfree
    refine ⟨?_, fun u hu hlt => absurd ⟨u, hu, hlt⟩ hlocked⟩
    rw [record_error_unlocked hn rfl]
    split_ifs with hmany
    · intro u hu
      rw [← Option.some.inj hu]
      exact add_le_add_right (lockout_secs_succ _) _
    · exact fun u hu => nomatch hu

variable {start : ℚ} {t : ℕ → ℚ}

theorem last_activity_after (hstart : start ≤ t 0) (hmono : Monotone t) (n : ℕ) :
    (after start t n).last_activity ≤ t n := by
  cases n with
  | zero => exact hstart
  | succ n =>
    have hlast : ∀ e : CircuitBreakerEntry, (e.record_error (t n)).last_activity = t n := by
      intro e
      simp only [record_error, counted, cleared]
      split_ifs <;> rfl
    rw [after, hlast]
    exact hmono n.le_succ

theorem within_after (hstart : start ≤ t 0) (hmono : Monotone t)
    (hprompt : ∀ m < n, (after start t m).is_locked (t m) = true →
      t m - (after start t m).last_activity < CIRCUIT_BREAKER_RECOVERY_PERIOD_SECS) :
    (after start t n).Within := by
  induction n with
  | zero => exact fun u hu => nomatch hu
  | succ n ih =>
    have hn := ih fun m hm => hprompt m (hm.trans n.lt_succ_self)
    exact (within_record_error hn (last_activity_after hstart hmono n) (hprompt n n.lt_succ_self)).1

/-! ## Bursts -/

theorem after_five {b : ℕ} (hn : (after start t b).lockout_until = none ∧
      (after start t b).error_count = 0 ∨
        ∃ until_ ≤ t b, (after start t b).lockout_until = some until_)
    (hc : (after start t b).streak (t b) = c)
    (hgap : ∀ i < 4, t (b + i + 1) - t (b + i) < CIRCUIT_BREAKER_RECOVERY_PERIOD_SECS ∨ c = 0) :
    after start t (b + 5) =
      ⟨5, some (t (b + 4) + lockout_secs c), t (b + 4), min (c + 1) (2 ^ 32 - 1)⟩ := by
  have hnext : ∀ i < 4, ∀ n, after start t (b + i + 1) = ⟨n, none, t (b + i), c⟩ →
      after start t (b + i + 2) = if CIRCUIT_BREAKER_ERROR_THRESHOLD ≤ n + 1 then
        ⟨n + 1, some (t (b + i + 1) + lockout_secs c), t (b + i + 1), min (c + 1) (2 ^ 32 - 1)⟩
      else ⟨n + 1, none, t (b + i + 1), c⟩ := by
    intro i hi n hentry
    rw [after, hentry]
    exact record_error_unlocked (.inl ⟨rfl, rfl⟩) (streak_eq (hgap i hi))
  have h₁ : after start t (b + 1) = ⟨1, none, t b, c⟩ :=
    record_error_unlocked (n := 0) (hn.imp_right fun h => ⟨h, rfl⟩) hc
  have h₂ : after start t (b + 2) = ⟨2, none, t (b + 1), c⟩ := hnext 0 (by decide) 1 h₁
  have h₃ : after start t (b + 3) = ⟨3, none, t (b + 2), c⟩ := hnext 1 (by decide) 2 h₂
  have h₄ : after start t (b + 4) = ⟨4, none, t (b + 3), c⟩ := hnext 2 (by decide) 3 h₃
  exact hnext 3 (by decide) 4 h₄

/-- Every lockout before the `k`-th is followed, less than the recovery period after its end, by a
burst of as many errors as the threshold. -/
def Followed (start : ℚ) (t : ℕ → ℚ) (k : ℕ) : Prop :=
  ∀ j < k, ∀ until_, (after start t (5 * j + 5)).lockout_until = some until_ →
    ∀ i < CIRCUIT_BREAKER_ERROR_THRESHOLD, until_ ≤ t (5 * j + 5 + i) ∧
      t (5 * j + 5 + i) < until_ + CIRCUIT_BREAKER_RECOVERY_PERIOD_SECS

/-- The first error after a lockout comes less than the recovery period after the last before it. -/
def Prompt (t : ℕ → ℚ) (k : ℕ) : Prop :=
  ∀ j < k, t (5 * j + 5) - t (5 * j + 4) < CIRCUIT_BREAKER_RECOVERY_PERIOD_SECS

theorem after_burst {k : ℕ} (h : Followed start t k) (hprompt : Prompt t k) :
    after start t (5 * k + 5) =
      ⟨5, some (t (5 * k + 4) + lockout_secs (min k (2 ^ 32 - 1))), t (5 * k + 4),
        min (k + 1) (2 ^ 32 - 1)⟩ := by
  induction k with
  | zero => exact after_five (b := 0) (.inl ⟨rfl, rfl⟩) (streak_eq (.inr rfl)) fun _ _ => .inr rfl
  | succ k ih =>
    have hlocked := ih (fun j hj => h j (hj.trans k.lt_succ_self))
      fun j hj => hprompt j (hj.trans k.lt_succ_self)
    have hburst := h k k.lt_succ_self _ (by rw [hlocked])
    have hfive : after start t (5 * k + 5 + 5) = _ := after_five
      (.inr ⟨_, (hburst 0 (by decide)).1, by rw [hlocked]⟩)
      (streak_eq (.inl (by rw [hlocked]; exact hprompt k k.lt_succ_self))) fun i hi => .inl (by
        have hbefore := (hburst i (hi.trans (by decide))).1
        have hafter := (hburst (i + 1) (Nat.succ_lt_succ hi)).2
        rw [← Nat.add_assoc] at hafter
        linarith)
    rw [hlocked] at hfive
    rw [show min (k + 1 + 1) (2 ^ 32 - 1) = min (min (k + 1) (2 ^ 32 - 1) + 1) (2 ^ 32 - 1) by
      omega]
    exact hfive

end CircuitBreakerEntry

open CircuitBreakerEntry

/-- **Lockouts.** An error during a lockout does not end it earlier, and the `k`-th lockout lasts
`30 * 2 ^ k` seconds up to the ceiling; both as long as no error on an entry that was locked out
comes a recovery period or more after the error before it. -/
theorem lockouts_escalate (start : ℚ) (t : ℕ → ℚ) (hstart : start ≤ t 0) (hmono : Monotone t) :
    (∀ n, (∀ m ≤ n, (after start t m).is_locked (t m) = true →
        t m - (after start t m).last_activity < CIRCUIT_BREAKER_RECOVERY_PERIOD_SECS) →
      ∀ until_, (after start t n).lockout_until = some until_ → t n < until_ →
        ∃ until', (after start t (n + 1)).lockout_until = some until' ∧ until_ ≤ until') ∧
    ∀ k, Followed start t k → Prompt t k →
      (after start t (5 * k + 5)).lockout_until = some (t (5 * k + 4) +
        min (CIRCUIT_BREAKER_LOCKOUT_SECS * 2 ^ k) CIRCUIT_BREAKER_MAX_LOCKOUT_SECS) := by
  constructor
  · intro n hprompt
    have hwithin := within_after hstart hmono fun m (hm : m < n) => hprompt m hm.le
    exact (within_record_error hwithin (last_activity_after hstart hmono n) (hprompt n le_rfl)).2
  · intro k hfollowed hprompt
    rw [after_burst hfollowed hprompt, lockout_secs_min]

def sampleBursts (n : ℕ) : ℚ := if n < 5 then 0 else 40

theorem lockouts_escalate_sample : (after 0 sampleBursts 10).lockout_until = some 100 := by
  have hmono : Monotone sampleBursts := by
    intro m n hmn
    unfold sampleBursts
    split_ifs <;> first | omega | norm_num
  refine ((lockouts_escalate 0 sampleBursts le_rfl hmono).2 1 ?_ ?_).trans ?_
  · intro j hj until_ huntil i hi
    obtain rfl : j = 0 := by omega
    rw [show (after 0 sampleBursts (5 * 0 + 5)).lockout_until = some 30 by decide +kernel] at huntil
    obtain rfl := Option.some.inj huntil
    have hlate : ¬ 5 * 0 + 5 + i < 5 := by omega
    norm_num [sampleBursts, hlate, CIRCUIT_BREAKER_RECOVERY_PERIOD_SECS]
  · intro j hj
    obtain rfl : j = 0 := by omega
    decide +kernel
  · decide +kernel

def sampleLong (n : ℕ) : ℚ := [0, 30, 90, 210, 450].getD (n / 5) 760

def sampleQuiet (n : ℕ) : ℚ := if n < 5 then 0 else 305

/-- The error at `760` comes during a lockout up to `930`, and ends it at `790`. And a second
lockout lasts no longer than the first if it and the quiet time together are long enough. -/
theorem lockout_shortened : (after 0 sampleLong 25).lockout_until = some 930 ∧ sampleLong 25 = 760 ∧
      (after 0 sampleLong 26).lockout_until = some 790 ∧
      (after 0 sampleQuiet 5).lockout_until = some 30 ∧
      (∀ i < 5, 30 ≤ sampleQuiet (5 + i) ∧
        sampleQuiet (5 + i) < 30 + CIRCUIT_BREAKER_RECOVERY_PERIOD_SECS) ∧
      (after 0 sampleQuiet 10).lockout_until = some (sampleQuiet 9 + 30) := by
  decide +kernel

end Saacp
