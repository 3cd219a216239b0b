/-
**The error-rate limiter**: `AgentRateLimiter` without a backend, and when it locks an agent out.

A window is closed by the first error that comes more than ten seconds after it was opened, and the
count starts again with that error. Neither the other agents nor the sweep of a full shard make a
difference to an agent: the sweep only drops records that stand for nothing any more
(`step_record`).
-/
import Mathlib.Tactic.Linarith
import Saacp.Gateway

set_option autoImplicit false

open ByteCodec

namespace Saacp

def RATE_LIMITER_THRESHOLD : ℕ := 5
def RATE_LIMITER_WINDOW_SECONDS : ℚ := 10
def RATE_LIMITER_LOCKOUT_SECONDS : ℚ := 30
def COVER_TRAFFIC_THRESHOLD : ℕ := 50
def COVER_TRAFFIC_WINDOW_SECONDS : ℚ := 1
def RATE_LIMITER_MAX_ENTRIES : ℕ := 10000
abbrev RATE_LIMITER_SHARDS : ℕ := 16
def RATE_LIMITER_PER_SHARD_MAX_ENTRIES : ℕ := RATE_LIMITER_MAX_ENTRIES / RATE_LIMITER_SHARDS

/-! ## Records -/

structure RateRecord where
  errors : ℕ
  window_start : ℚ
  locked_until : ℚ
  deriving DecidableEq

structure CoverRecord where
  count : ℕ
  window_start : ℚ

namespace RateRecord

def fresh (now : ℚ) : RateRecord := ⟨0, now, 0⟩

def windowed (r : RateRecord) (now : ℚ) : RateRecord :=
  if RATE_LIMITER_WINDOW_SECONDS < now - r.window_start then
    { r with errors := 0, window_start := now }
  else r

def record_error (r : RateRecord) (agent_id : Text) (now : ℚ) :
    RateRecord × Result Unit :=
  if now < r.locked_until then
    (r, .error ⟨.CircuitBreakerOpen,
      "Agent '" ++ display agent_id ++ "' is locked out for malformed packet flooding."⟩)
  else
    let r := { r.windowed now with errors := (r.windowed now).errors + 1 }
    if RATE_LIMITER_THRESHOLD ≤ r.errors then
      ({ r with locked_until := now + RATE_LIMITER_LOCKOUT_SECONDS },
        .error ⟨.CircuitBreakerOpen, "Circuit breaker OPEN for '" ++ display agent_id ++ "': " ++
          toString r.errors ++ " errors in 10s."⟩)
    else (r, .ok ())

/-- What a sweep keeps: the agent is locked out, or its window is open. -/
def live (r : RateRecord) (now : ℚ) : Bool :=
  now < r.locked_until || now - r.window_start ≤ RATE_LIMITER_WINDOW_SECONDS

end RateRecord

structure AgentRateLimiter where
  records : Fin RATE_LIMITER_SHARDS → Table Text RateRecord
  cover_records : Fin RATE_LIMITER_SHARDS → Table Text CoverRecord

namespace AgentRateLimiter

def new : AgentRateLimiter := ⟨fun _ => .empty, fun _ => .empty⟩

def ratelimit_shard_index (key : Text) : Fin RATE_LIMITER_SHARDS :=
  fnv1a_shard key RATE_LIMITER_SHARDS

def swept {V : Type} (records : Table Text V) (keep : V → Bool) : Table Text V :=
  if RATE_LIMITER_PER_SHARD_MAX_ENTRIES ≤ records.len then records.retain fun _ => keep
  else records

def record_error (l : AgentRateLimiter) (agent_id : Text) (now : ℚ) :
    AgentRateLimiter × Result Unit :=
  let shard := ratelimit_shard_index agent_id
  let records := swept (l.records shard) (·.live now)
  let (r, answer) := ((records.get agent_id).getD (.fresh now)).record_error agent_id now
  ({ l with records := Function.update l.records shard (records.insert agent_id r) }, answer)

variable (l : AgentRateLimiter)

def record_cover_traffic (agent_id : Text) (now : ℚ) :
    AgentRateLimiter × Result Unit :=
  let shard := ratelimit_shard_index agent_id
  let records := swept (l.cover_records shard) fun r =>
    now - r.window_start ≤ COVER_TRAFFIC_WINDOW_SECONDS
  let r := (records.get agent_id).getD ⟨0, now⟩
  let r := if COVER_TRAFFIC_WINDOW_SECONDS < now - r.window_start then ⟨0, now⟩ else r
  let r : CoverRecord := { r with count := r.count + 1 }
  ({ l with cover_records := Function.update l.cover_records shard (records.insert agent_id r) },
    if COVER_TRAFFIC_THRESHOLD < r.count then
      .error ⟨.CircuitBreakerOpen, "Cover traffic rate limit exceeded for '" ++
        display agent_id ++ "': " ++ toString r.count ++ " cover packets in 1s (limit: " ++
        toString COVER_TRAFFIC_THRESHOLD ++ ")."⟩
    else .ok ())

def record (agent_id : Text) : Option RateRecord :=
  (l.records (ratelimit_shard_index agent_id)).get agent_id

def is_locked_at (agent_id : Text) (now : ℚ) : Bool :=
  match l.record agent_id with
  | some r => now < r.locked_until
  | none => false

end AgentRateLimiter

/-! ## Sequences of calls -/

inductive LimiterCall
  | record_error (agent_id : Text)
  | record_cover_traffic (agent_id : Text)
  deriving DecidableEq

structure TimedCall where
  now : ℚ
  call : LimiterCall

namespace AgentRateLimiter

def step (l : AgentRateLimiter) (c : TimedCall) : AgentRateLimiter :=
  match c.call with
  | .record_error agent_id => (l.record_error agent_id c.now).1
  | .record_cover_traffic agent_id => (l.record_cover_traffic agent_id c.now).1

def run (l : AgentRateLimiter) (cs : List TimedCall) : AgentRateLimiter := cs.foldl step l

end AgentRateLimiter

def Ordered (t : ℚ) : List TimedCall → ℚ → Prop
  | [], t' => t ≤ t'
  | c :: cs, t' => t ≤ c.now ∧ Ordered c.now cs t'

def errors_of (agent_id : Text) (cs : List TimedCall) : ℕ :=
  cs.countP fun c => c.call = .record_error agent_id

/-! ## One record -/

variable {agent_id : Text} {r : RateRecord}

namespace RateRecord

variable {now now' : ℚ}

/-- A window was opened by then; its record is below the threshold, or locked for the whole
duration. -/
structure Sound (r : RateRecord) (now : ℚ) : Prop where
  opened : r.window_start ≤ now
  counts : (r.errors < RATE_LIMITER_THRESHOLD ∧ r.locked_until ≤ r.window_start) ∨
    r.window_start + RATE_LIMITER_LOCKOUT_SECONDS ≤ r.locked_until

theorem Sound.mono (h : r.Sound now) (hle : now ≤ now') : r.Sound now' :=
  ⟨h.opened.trans hle, h.counts⟩

theorem sound_fresh (h : 0 ≤ now) : (fresh now).Sound now :=
  ⟨le_refl _, .inl ⟨show 0 < 5 by decide, h⟩⟩

theorem window_lt_lockout : RATE_LIMITER_WINDOW_SECONDS < RATE_LIMITER_LOCKOUT_SECONDS := by
  decide +kernel

theorem Sound.of_locked (h : r.Sound now) (hlocked : now < r.locked_until) :
    r.window_start + RATE_LIMITER_LOCKOUT_SECONDS ≤ r.locked_until := by
  rcases h.counts with ⟨-, hidle⟩ | hlock
  · have hopened := h.opened
    linarith
  · exact hlock

theorem record_error_cases (h : r.Sound now) (agent_id : Text) :
    let answer := r.record_error agent_id now
    (now < r.locked_until ∧ answer.1 = r ∧ answer.2.isOk = false) ∨
      r.locked_until ≤ now ∧ ((RATE_LIMITER_WINDOW_SECONDS < now - r.window_start ∧
            answer = (⟨1, now, r.locked_until⟩, .ok ())) ∨
          now - r.window_start ≤ RATE_LIMITER_WINDOW_SECONDS ∧
            r.errors < RATE_LIMITER_THRESHOLD ∧ r.locked_until ≤ r.window_start ∧
            ((r.errors + 1 < RATE_LIMITER_THRESHOLD ∧
                answer = ({ r with errors := r.errors + 1 }, .ok ())) ∨
              answer.1 = ⟨r.errors + 1, r.window_start, now + RATE_LIMITER_LOCKOUT_SECONDS⟩ ∧
                answer.2.isOk = false)) := by
  unfold record_error
  dsimp only
  by_cases hlocked : now < r.locked_until
  · rw [if_pos hlocked]
    exact .inl ⟨hlocked, rfl, rfl⟩
  rw [if_neg hlocked]
  refine .inr ⟨not_lt.mp hlocked, ?_⟩
  by_cases hover : RATE_LIMITER_WINDOW_SECONDS < now - r.window_start
  · refine .inl ⟨hover, ?_⟩
    rw [windowed, if_pos hover]
    exact if_neg (show ¬ 5 ≤ 0 + 1 by decide)
  · refine .inr ⟨not_lt.mp hover, ?_⟩
    rw [windowed, if_neg hover]
    have hidle : r.errors < RATE_LIMITER_THRESHOLD ∧ r.locked_until ≤ r.window_start := by
      refine h.counts.resolve_right fun hlock => ?_
      -- a lockout outlasts the window
      linarith [window_lt_lockout]
    refine ⟨hidle.1, hidle.2, ?_⟩
    by_cases hcount : RATE_LIMITER_THRESHOLD ≤ r.errors + 1
    · rw [if_pos hcount]
      exact .inr ⟨rfl, rfl⟩
    · rw [if_neg hcount]
      exact .inl ⟨not_le.mp hcount, rfl⟩

theorem Sound.record_error (h : r.Sound now) (agent_id : Text) :
    (r.record_error agent_id now).1.Sound now := by
  obtain ⟨-, hsame, -⟩ | ⟨hfree, ⟨-, hnew⟩ | ⟨-, -, hidle, ⟨hcount, hnew⟩ | ⟨hnew, -⟩⟩⟩ :=
    record_error_cases h agent_id
  · rw [hsame]
    exact h
  · rw [hnew]
    exact ⟨le_refl _, .inl ⟨show 1 < 5 by decide, hfree⟩⟩
  · rw [hnew]
    exact ⟨h.opened, .inl ⟨hcount, hidle⟩⟩
  · rw [hnew]
    exact ⟨h.opened, .inr (by have hopened := h.opened; linarith)⟩

end RateRecord

/-! ## What a call does to the record of an agent -/

namespace AgentRateLimiter

variable {l : AgentRateLimiter} {c : TimedCall}

theorem get_swept {V : Type} {records : Table Text V} {keep : V → Bool} {v : V}
    (h : (swept records keep).get agent_id = some v) : records.get agent_id = some v := by
  unfold swept at h
  split at h
  · exact Table.retain_le _ _ _ _ h
  · exact h

theorem get_swept_of_keep {V : Type} {records : Table Text V} {keep : V → Bool} {v : V}
    (h : records.get agent_id = some v) (hkeep : keep v = true) :
    (swept records keep).get agent_id = some v := by
  unfold swept
  split
  · exact Table.get_retain.mpr ⟨h, hkeep⟩
  · exact h

def found (l : AgentRateLimiter) (agent_id : Text) (now : ℚ) : RateRecord :=
  ((swept (l.records (ratelimit_shard_index agent_id)) (·.live now)).get agent_id).getD
    (.fresh now)

theorem found_cases (l : AgentRateLimiter) (agent_id : Text) (now : ℚ) :
    (l.found agent_id now = .fresh now ∧ ∀ r, l.record agent_id = some r → r.live now = false) ∨
      l.record agent_id = some (l.found agent_id now) := by
  unfold found
  cases hget : (swept (l.records (ratelimit_shard_index agent_id)) (·.live now)).get agent_id with
  | none =>
    refine .inl ⟨rfl, fun r hr => ?_⟩
    rw [← Bool.not_eq_true]
    exact fun hlive => nomatch hget.symm.trans (get_swept_of_keep hr hlive)
  | some r => exact .inr (get_swept hget)

theorem record_error_answer (l : AgentRateLimiter) (agent_id : Text) (now : ℚ) :
    (l.record_error agent_id now).2 = ((l.found agent_id now).record_error agent_id now).2 := rfl

theorem record_error_record (l : AgentRateLimiter) (agent_id : Text) (now : ℚ) :
    (l.record_error agent_id now).1.record agent_id =
      some ((l.found agent_id now).record_error agent_id now).1 := by
  show Table.get (Function.update l.records _ _ _) _ = _
  rw [Function.update_self, Table.get_insert_self]
  rfl

theorem record_error_record_of_ne {agent_id' : Text} (hne : agent_id ≠ agent_id') (now : ℚ) :
    (l.record_error agent_id' now).1.record agent_id =
      if ratelimit_shard_index agent_id = ratelimit_shard_index agent_id' then
        (swept (l.records (ratelimit_shard_index agent_id)) (·.live now)).get agent_id
      else l.record agent_id := by
  show Table.get (Function.update l.records _ _ _) _ = _
  rw [Function.update_apply]
  split_ifs with hshard
  · rw [Table.get_insert, if_neg hne, hshard]
  · rfl

theorem found_of_live {now : ℚ} (h : l.record agent_id = some r) (hlive : r.live now = true) :
    l.found agent_id now = r := by
  rw [found, get_swept_of_keep h hlive]
  rfl

/-- **A live record** is only changed by errors of its agent. -/
theorem step_record (h : l.record agent_id = some r) (hlive : r.live c.now = true) :
    (l.step c).record agent_id =
      some (if c.call = .record_error agent_id then (r.record_error agent_id c.now).1 else r) := by
  obtain ⟨now, call⟩ := c
  cases call with
  | record_cover_traffic agent_id' => exact h
  | record_error agent_id' =>
    by_cases hown : agent_id' = agent_id
    · subst hown
      rw [if_pos rfl]
      show (l.record_error agent_id' now).1.record agent_id' = _
      rw [record_error_record, found_of_live h hlive]
    · rw [if_neg (by simpa using hown)]
      show (l.record_error agent_id' now).1.record agent_id = _
      rw [record_error_record_of_ne (Ne.symm hown)]
      split_ifs
      · exact get_swept_of_keep h hlive
      · exact h

def Sound (l : AgentRateLimiter) (now : ℚ) : Prop :=
  ∀ agent_id r, l.record agent_id = some r → r.Sound now

theorem sound_new (now : ℚ) : new.Sound now := by
  intro agent_id r h
  cases (Table.get_empty agent_id).symm.trans h

theorem Sound.found {now : ℚ} (h : l.Sound now) (hnow : 0 ≤ now) (agent_id : Text) :
    (l.found agent_id now).Sound now := by
  rcases found_cases l agent_id now with ⟨hfresh, -⟩ | hrecord
  · rw [hfresh]
    exact RateRecord.sound_fresh hnow
  · exact h agent_id _ hrecord

theorem Sound.mono {now now' : ℚ} (h : l.Sound now) (hle : now ≤ now') : l.Sound now' :=
  fun agent_id r hr => (h agent_id r hr).mono hle

theorem Sound.step (h : l.Sound c.now) (hnow : 0 ≤ c.now) : (l.step c).Sound c.now := by
  intro agent_id r hr
  obtain ⟨now, call⟩ := c
  cases call with
  | record_cover_traffic agent_id' => exact h agent_id r hr
  | record_error agent_id' =>
    have hr' : (l.record_error agent_id' now).1.record agent_id = some r := hr
    by_cases hown : agent_id = agent_id'
    · subst hown
      rw [record_error_record] at hr'
      cases hr'
      exact (h.found hnow agent_id).record_error agent_id
    · rw [record_error_record_of_ne hown] at hr'
      split_ifs at hr'
      · exact h agent_id r (get_swept hr')
      · exact h agent_id r hr'

/-! ## Runs -/

theorem run_append (l : AgentRateLimiter) (cs cs' : List TimedCall) :
    l.run (cs ++ cs') = (l.run cs).run cs' := List.foldl_append

end AgentRateLimiter

variable {cs : List TimedCall}

theorem Ordered.le {t t' : ℚ} (h : Ordered t cs t') : t ≤ t' := by
  induction cs generalizing t with
  | nil => exact h
  | cons c cs ih => exact h.1.trans (ih h.2)

theorem Ordered.of_append {t t' : ℚ} {cs cs' : List TimedCall} (h : Ordered t (cs ++ cs') t') :
    ∃ m, Ordered t cs m ∧ Ordered m cs' t' := by
  induction cs generalizing t with
  | nil => exact ⟨t, le_refl t, h⟩
  | cons c cs ih =>
    obtain ⟨m, hcs, hcs'⟩ := ih h.2
    exact ⟨m, ⟨h.1, hcs⟩, hcs'⟩

namespace AgentRateLimiter

variable {l : AgentRateLimiter} {c : TimedCall} {t last ws : ℚ} {n : ℕ}

theorem Sound.run (h : l.Sound t) (ht : 0 ≤ t) (hcs : Ordered t cs last) :
    (l.run cs).Sound last := by
  induction cs generalizing l t with
  | nil => exact h.mono hcs
  | cons c cs ih =>
    have hstep := (h.mono hcs.1).step (ht.trans hcs.1)
    exact ih hstep (ht.trans hcs.1) hcs.2

theorem is_locked_at_of_record {now : ℚ} (h : l.record agent_id = some r) :
    l.is_locked_at agent_id now = decide (now < r.locked_until) := by
  rw [is_locked_at, h]

/-! ## One window -/

/-- The agent is locked out beyond a second, or has `n` errors in the window opened at `ws`. -/
def Counted (l : AgentRateLimiter) (agent_id : Text) (last ws : ℚ) (n : ℕ) : Prop :=
  ∃ r, l.record agent_id = some r ∧ (last < r.locked_until ∨ (r.window_start = ws ∧ n ≤ r.errors))

variable (hopen : last - ws ≤ RATE_LIMITER_WINDOW_SECONDS)
include hopen

theorem live_of_counted {now : ℚ} (hnow : now ≤ last)
    (h : last < r.locked_until ∨ (r.window_start = ws ∧ n ≤ r.errors)) : r.live now = true := by
  rw [RateRecord.live, Bool.or_eq_true, decide_eq_true_eq, decide_eq_true_eq]
  rcases h with hlocked | ⟨rfl, -⟩
  · exact .inl (hnow.trans_lt hlocked)
  · exact .inr (by linarith)

theorem Counted.step (hsound : l.Sound c.now) (hnow : c.now ≤ last)
    (h : l.Counted agent_id last ws n) :
    (l.step c).Counted agent_id last ws
      (n + if c.call = .record_error agent_id then 1 else 0) := by
  obtain ⟨r, hr, hcase⟩ := h
  have hrecord := step_record hr (live_of_counted hopen hnow hcase)
  have hr_sound := hsound agent_id r hr
  by_cases hown : c.call = .record_error agent_id
  swap
  · rw [if_neg hown] at hrecord ⊢
    exact ⟨r, hrecord, hcase⟩
  rw [if_pos hown] at hrecord ⊢
  refine ⟨_, hrecord, ?_⟩
  obtain ⟨hlocked, hsame, -⟩ | ⟨hfree, ⟨hover, -⟩ | ⟨-, -, -, ⟨-, hnew⟩ | ⟨hnew, -⟩⟩⟩ :=
    RateRecord.record_error_cases hr_sound agent_id
  · -- locked already, and then for longer than the window is open
    rw [hsame]
    refine .inl ?_
    rcases hcase with hbeyond | ⟨rfl, -⟩
    · exact hbeyond
    · have hlock := hr_sound.of_locked hlocked
      linarith [RateRecord.window_lt_lockout]
  · -- the window is not over yet
    rcases hcase with hbeyond | ⟨rfl, -⟩ <;> linarith
  · rw [hnew]
    rcases hcase with hbeyond | ⟨hws, hcount⟩
    · linarith
    · exact .inr ⟨hws, Nat.succ_le_succ hcount⟩
  · rw [hnew]
    refine .inl ?_
    rcases hcase with hbeyond | ⟨rfl, -⟩
    · linarith
    · have hopened := hr_sound.opened
      linarith [RateRecord.window_lt_lockout]

theorem Counted.run (hsound : l.Sound t) (ht : 0 ≤ t)
    (hcs : Ordered t cs last) (h : l.Counted agent_id last ws n) :
    (l.run cs).Counted agent_id last ws (n + errors_of agent_id cs) := by
  induction cs generalizing l t n with
  | nil => exact h
  | cons c cs ih =>
    have hnow := hsound.mono hcs.1
    have hstep := h.step hopen hnow hcs.2.le
    have hrest := ih (hnow.step (ht.trans hcs.1)) (ht.trans hcs.1) hcs.2 hstep
    rw [errors_of, List.countP_cons]
    rw [errors_of] at hrest
    show ((l.step c).run cs).Counted agent_id last ws _
    simpa only [decide_eq_true_eq, Nat.add_assoc, Nat.add_comm] using hrest

omit hopen

theorem counted_first (hsound : l.Sound t) (ht : 0 ≤ t)
    (hopen : ∀ r, (l.record_error agent_id t).1.record agent_id = some r →
      last - r.window_start ≤ RATE_LIMITER_WINDOW_SECONDS) :
    ∃ ws, last - ws ≤ RATE_LIMITER_WINDOW_SECONDS ∧
      (l.record_error agent_id t).1.Counted agent_id last ws 1 := by
  have hr := hsound.found ht agent_id
  have hrecord := record_error_record l agent_id t
  have hlast := hopen _ hrecord
  refine ⟨_, hlast, _, hrecord, ?_⟩
  have hopened := hr.opened
  obtain ⟨hlocked, hsame, -⟩ | ⟨-, ⟨-, hnew⟩ | ⟨-, -, -, ⟨-, hnew⟩ | ⟨hnew, -⟩⟩⟩ :=
    RateRecord.record_error_cases hr agent_id
  · rw [hsame] at hlast ⊢
    have hlock := hr.of_locked hlocked
    exact .inl (by linarith [RateRecord.window_lt_lockout])
  · rw [hnew]
    exact .inr ⟨rfl, le_refl 1⟩
  · rw [hnew]
    exact .inr ⟨rfl, Nat.le_add_left 1 _⟩
  · rw [hnew] at hlast ⊢
    exact .inl (by linarith [RateRecord.window_lt_lockout])

theorem Counted.locks (hsound : l.Sound last) (hopen : last - ws ≤ RATE_LIMITER_WINDOW_SECONDS)
    (h : l.Counted agent_id last ws n) (hn : RATE_LIMITER_THRESHOLD ≤ n + 1) :
    (l.record_error agent_id last).2.isOk = false ∧
      (l.record_error agent_id last).1.is_locked_at agent_id last = true := by
  obtain ⟨r, hr, hcase⟩ := h
  have hfound := found_of_live hr (live_of_counted hopen (le_refl last) hcase)
  have hrecord := record_error_record l agent_id last
  rw [record_error_answer, is_locked_at_of_record hrecord, hfound, decide_eq_true_eq]
  obtain ⟨hlocked, hsame, herr⟩ | ⟨hfree, ⟨hover, -⟩ | ⟨-, -, -, ⟨hcount, -⟩ | ⟨hnew, herr⟩⟩⟩ :=
    RateRecord.record_error_cases (hsound agent_id r hr) agent_id
  · rw [hsame]
    exact ⟨herr, hlocked⟩
  · rcases hcase with hbeyond | ⟨rfl, -⟩ <;> linarith
  · rcases hcase with hbeyond | ⟨-, hle⟩
    · linarith
    · omega
  · rw [hnew]
    exact ⟨herr, lt_add_of_pos_right _ (by decide)⟩

/-! ## Lockouts -/

def Locks (l : AgentRateLimiter) (agent_id : Text) (t : ℚ) : Prop :=
  l.is_locked_at agent_id t = false ∧ (l.record_error agent_id t).1.is_locked_at agent_id t = true

theorem Locks.record (hsound : l.Sound t) (ht : 0 ≤ t) (h : l.Locks agent_id t) :
    ∃ r, (l.record_error agent_id t).1.record agent_id = some r ∧
      r.locked_until = t + RATE_LIMITER_LOCKOUT_SECONDS := by
  have hr := hsound.found ht agent_id
  have hrecord := record_error_record l agent_id t
  refine ⟨_, hrecord, ?_⟩
  have hafter := h.2
  rw [is_locked_at_of_record hrecord, decide_eq_true_eq] at hafter
  obtain ⟨hlocked, -⟩ | ⟨hfree, ⟨-, hnew⟩ | ⟨-, -, -, ⟨-, hnew⟩ | ⟨hnew, -⟩⟩⟩ :=
    RateRecord.record_error_cases hr agent_id
  · -- the record that is found was locked before
    have hbefore := h.1
    rcases found_cases l agent_id t with ⟨hfresh, -⟩ | hget
    · rw [hfresh] at hlocked
      exact absurd hlocked (not_lt.mpr ht)
    · rw [is_locked_at_of_record hget, decide_eq_false_iff_not] at hbefore
      exact absurd hlocked hbefore
  · rw [hnew] at hafter
    exact absurd hafter (not_lt.mpr hfree)
  · rw [hnew] at hafter
    exact absurd hafter (not_lt.mpr hfree)
  · rw [hnew]

theorem locked_run {until_ : ℚ} (hcs : Ordered t cs last)
    (hlast : last < until_) (hr : l.record agent_id = some r) (huntil : r.locked_until = until_) :
    (l.run cs).record agent_id = some r := by
  induction cs generalizing l t with
  | nil => exact hr
  | cons c cs ih =>
    have hlocked : c.now < r.locked_until := huntil ▸ hcs.2.le.trans_lt hlast
    refine ih hcs.2 ?_
    have hlive : r.live c.now = true := by
      rw [RateRecord.live, Bool.or_eq_true, decide_eq_true_eq]
      exact .inl hlocked
    rw [step_record hr hlive]
    split
    · rw [RateRecord.record_error, if_pos hlocked]
    · rfl

/-- **Error-rate lockout.** In every sequence of calls by any agents, let `first` and a later error
of the same agent enclose three more of them, and let the window that is open after `first` be open
still at the later one. Then the later one finds the agent locked out or locks it out. And once an
error has put the agent in lockout, it is locked out for the whole duration. -/
theorem error_lockout (agent_id : Text) (before after : List TimedCall) (t last : ℚ)
    (hordered : Ordered 0 (before ++ ⟨t, .record_error agent_id⟩ :: after) last) :
    (RATE_LIMITER_THRESHOLD ≤ errors_of agent_id after + 2 →
        (∀ r, (new.run (before ++ [⟨t, .record_error agent_id⟩])).record agent_id = some r →
          last - r.window_start ≤ RATE_LIMITER_WINDOW_SECONDS) →
        let l := new.run (before ++ ⟨t, .record_error agent_id⟩ :: after)
        (l.record_error agent_id last).2.isOk = false ∧
          (l.record_error agent_id last).1.is_locked_at agent_id last = true) ∧
      ((new.run before).Locks agent_id t → last < t + RATE_LIMITER_LOCKOUT_SECONDS →
        (new.run (before ++ ⟨t, .record_error agent_id⟩ :: after)).is_locked_at agent_id last =
          true) := by
  obtain ⟨m, hbefore, hmt, hafter⟩ := hordered.of_append
  have hm : 0 ≤ m := hbefore.le
  have ht : 0 ≤ t := hm.trans hmt
  have hsound : (new.run before).Sound t := ((sound_new 0).run (le_refl 0) hbefore).mono hmt
  have hfirst : ((new.run before).record_error agent_id t).1.Sound t :=
    hsound.step (c := ⟨t, .record_error agent_id⟩) ht
  simp only [run_append]
  constructor
  · intro hcount hopen
    obtain ⟨ws, hws, hcounted⟩ := counted_first hsound ht hopen
    refine (hcounted.run hws hfirst ht hafter).locks (hfirst.run ht hafter) hws ?_
    omega
  · intro hlocks hlast
    obtain ⟨r, hr, huntil⟩ := hlocks.record hsound ht
    have hstill := locked_run hafter hlast hr huntil
    refine (is_locked_at_of_record hstill).trans ?_
    rw [huntil]
    exact decide_eq_true hlast

def sampleErrors : List TimedCall :=
  [⟨1001, .record_error (ascii "a")⟩, ⟨1002, .record_error (ascii "a")⟩,
    ⟨1003, .record_error (ascii "a")⟩]

theorem error_lockout_sample :
    ((new.run (⟨1000, .record_error (ascii "a")⟩ :: sampleErrors)).record_error
        (ascii "a") 1004).2.isOk = false ∧
      (new.run (⟨1000, .record_error (ascii "a")⟩ :: sampleErrors ++
        [⟨1004, .record_error (ascii "a")⟩, ⟨1020, .record_error (ascii "b")⟩])).is_locked_at
        (ascii "a") 1033 = true := by
  let first : TimedCall := ⟨1000, .record_error (ascii "a")⟩
  have hordered : Ordered 0 ([] ++ first :: sampleErrors) 1004 := by
    norm_num [first, Ordered, sampleErrors]
  have hordered' : Ordered 0 ((first :: sampleErrors) ++
      ⟨1004, .record_error (ascii "a")⟩ :: [⟨1020, .record_error (ascii "b")⟩]) 1033 := by
    norm_num [first, Ordered, sampleErrors]
  obtain ⟨hrecord, hlocks⟩ :
      (new.run [first]).record (ascii "a") = some ⟨1, 1000, 0⟩ ∧
      (new.run (first :: sampleErrors)).is_locked_at (ascii "a") 1004 = false ∧
      ((new.run (first :: sampleErrors)).record_error (ascii "a") 1004).1.is_locked_at (ascii "a")
        1004 = true := by
    decide +kernel
  refine ⟨((error_lockout (ascii "a") [] sampleErrors 1000 1004 hordered).1 (by decide) ?_).1, ?_⟩
  · intro r hr
    rw [List.nil_append, hrecord] at hr
    cases hr
    norm_num [RATE_LIMITER_WINDOW_SECONDS]
  · exact (error_lockout (ascii "a") (first :: sampleErrors)
      [⟨1020, .record_error (ascii "b")⟩] 1004 1033 hordered').2 hlocks
      (by norm_num [RATE_LIMITER_LOCKOUT_SECONDS])

/-- **A burst that is missed.** The five errors from 1007 to 1012 lie within five seconds. The
window is the one that was opened at 1000; at 1011 it is over, and the three errors before are
forgotten. -/
theorem missed_burst : let before : List TimedCall := [⟨1000, .record_error (ascii "a")⟩]
    let after : List TimedCall := [⟨1008, .record_error (ascii "a")⟩,
      ⟨1009, .record_error (ascii "a")⟩, ⟨1011, .record_error (ascii "a")⟩]
    let l := new.run (before ++ ⟨1007, .record_error (ascii "a")⟩ :: after)
    Ordered 0 (before ++ ⟨1007, .record_error (ascii "a")⟩ :: after) 1012 ∧
      RATE_LIMITER_THRESHOLD ≤ errors_of (ascii "a") after + 2 ∧
      (1012 : ℚ) - 1007 ≤ RATE_LIMITER_WINDOW_SECONDS ∧
      (l.record_error (ascii "a") 1012).2.isOk = true ∧
      (l.record_error (ascii "a") 1012).1.is_locked_at (ascii "a") 1012 = false := by
  intro before after l
  refine ⟨by norm_num [Ordered, before, after], ?_⟩
  decide +kernel

/-! ## Any ten seconds -/

/-- After `n` errors since `t`: locked out, or in one window, or a window was opened since. -/
def Burst (l : AgentRateLimiter) (agent_id : Text) (t last : ℚ) (n : ℕ) : Prop :=
  (l.record agent_id = none → n < RATE_LIMITER_THRESHOLD) ∧
    ∀ r, l.record agent_id = some r → last < r.locked_until ∨
      ((r.locked_until ≤ t ∨ r.locked_until ≤ r.window_start) ∧
        ((n < RATE_LIMITER_THRESHOLD ∧ n ≤ r.errors) ∨
          (t ≤ r.window_start ∧ n < r.errors + RATE_LIMITER_THRESHOLD)))

theorem step_record_other (hother : c.call ≠ .record_error agent_id) :
    (l.step c).record agent_id = l.record agent_id ∨ (l.step c).record agent_id = none ∧
        ∀ r, l.record agent_id = some r → r.live c.now = false := by
  obtain ⟨now, call⟩ := c
  cases call with
  | record_cover_traffic agent_id' => exact .inl rfl
  | record_error agent_id' =>
    have hne : agent_id ≠ agent_id' := by
      rintro rfl
      exact hother rfl
    show (l.record_error agent_id' now).1.record agent_id = _ ∨
      (l.record_error agent_id' now).1.record agent_id = none ∧ _
    rw [record_error_record_of_ne hne]
    split_ifs
    · cases hget : (swept (l.records (ratelimit_shard_index agent_id)) (·.live now)).get
          agent_id with
      | some r => exact .inl (get_swept hget).symm
      | none =>
        refine .inr ⟨rfl, fun r hr => ?_⟩
        rw [← Bool.not_eq_true]
        intro hlive
        cases hget.symm.trans (get_swept_of_keep hr hlive)
    · exact .inl rfl

theorem record_error_fresh {now : ℚ} (hnow : 0 ≤ now) (agent_id : Text) :
    ((RateRecord.fresh now).record_error agent_id now).1 = ⟨1, now, 0⟩ := by
  have hwindow : (RateRecord.fresh now).windowed now = .fresh now := by
    rw [RateRecord.windowed, if_neg (by simp [RateRecord.fresh, RATE_LIMITER_WINDOW_SECONDS])]
  have hfree : ¬ now < (RateRecord.fresh now).locked_until := not_lt.mpr hnow
  rw [RateRecord.record_error, if_neg hfree, hwindow]
  exact congrArg Prod.fst (if_neg (show ¬ 5 ≤ 0 + 1 by decide))

variable (hwindow : last - t ≤ RATE_LIMITER_WINDOW_SECONDS) (h : l.Burst agent_id t last n)
include hwindow h

theorem Burst.few {now : ℚ} (hnow : now ≤ last)
    (hdead : ∀ r, l.record agent_id = some r → r.live now = false) :
    n < RATE_LIMITER_THRESHOLD := by
  cases hr : l.record agent_id with
  | none => exact h.1 hr
  | some r =>
    have hlive := hdead r hr
    rw [RateRecord.live, Bool.or_eq_false_iff, decide_eq_false_iff_not, decide_eq_false_iff_not]
      at hlive
    rcases h.2 r hr with hbeyond | ⟨-, ⟨hfew, -⟩ | ⟨hopened, -⟩⟩
    · exact absurd (hnow.trans_lt hbeyond) hlive.1
    · exact hfew
    · exact absurd (by linarith) hlive.2

theorem Burst.step (hsound : l.Sound c.now) (hzero : 0 ≤ c.now) (ht : t ≤ c.now)
    (hnow : c.now ≤ last) :
    (l.step c).Burst agent_id t last (n + if c.call = .record_error agent_id then 1 else 0) := by
  by_cases hown : c.call = .record_error agent_id
  swap
  · rw [if_neg hown, Nat.add_zero]
    obtain hsame | ⟨hnone, hdead⟩ := step_record_other (l := l) hown
    · rw [Burst, hsame]
      exact h
    · refine ⟨fun _ => h.few hwindow hnow hdead, fun r' hr' => ?_⟩
      cases hnone.symm.trans hr'
  rw [if_pos hown]
  have hrecord : (l.step c).record agent_id =
      some ((l.found agent_id c.now).record_error agent_id c.now).1 := by
    rw [AgentRateLimiter.step, hown]
    exact record_error_record l agent_id c.now
  refine ⟨fun hnone => (nomatch hnone.symm.trans hrecord), fun r' hr' => ?_⟩
  obtain rfl := Option.some.inj (hr'.symm.trans hrecord)
  rcases found_cases l agent_id c.now with ⟨hfresh, hdead⟩ | hfound
  · -- the record is gone, or never was
    rw [hfresh, record_error_fresh hzero]
    have hfew := h.few hwindow hnow hdead
    exact .inr ⟨.inr hzero, .inr ⟨ht, by simp only; omega⟩⟩
  · generalize l.found agent_id c.now = r at hfound
    have hr := hsound agent_id r hfound
    have hopened := hr.opened
    obtain ⟨hlocked, hsame, -⟩ |
        ⟨hfree, ⟨hover, hnew⟩ | ⟨-, -, hidle, ⟨hcount, hnew⟩ | ⟨hnew, -⟩⟩⟩ :=
      RateRecord.record_error_cases hr agent_id
    · rw [hsame]
      rcases h.2 r hfound with hbeyond | ⟨hpast | hpast, -⟩
      · exact .inl hbeyond
      · linarith
      · linarith
    · rw [hnew]
      refine .inr ⟨.inr hfree, .inr ⟨ht, ?_⟩⟩
      rcases h.2 r hfound with hbeyond | ⟨-, ⟨hfew, -⟩ | ⟨hsince, -⟩⟩
      · linarith
      · simp only
        omega
      · linarith
    · rw [hnew]
      rcases h.2 r hfound with hbeyond | ⟨-, ⟨-, hle⟩ | ⟨hsince, hle⟩⟩
      · linarith
      · exact .inr ⟨.inr hidle, .inl ⟨by omega, by simp only; omega⟩⟩
      · exact .inr ⟨.inr hidle, .inr ⟨hsince, by simp only; omega⟩⟩
    · rw [hnew]
      exact .inl (by linarith [RateRecord.window_lt_lockout])

theorem Burst.run {m : ℚ} (hsound : l.Sound m) (hzero : 0 ≤ m) (ht : t ≤ m)
    (hcs : Ordered m cs last) : (l.run cs).Burst agent_id t last (n + errors_of agent_id cs) := by
  induction cs generalizing l m n with
  | nil => exact h
  | cons c cs ih =>
    have hnow := hsound.mono hcs.1
    have hstep := h.step hwindow hnow (hzero.trans hcs.1) (ht.trans hcs.1) hcs.2.le
    have hrest :=
      ih hstep (hnow.step (hzero.trans hcs.1)) (hzero.trans hcs.1) (ht.trans hcs.1) hcs.2
    rw [errors_of, List.countP_cons]
    rw [errors_of] at hrest
    show ((l.step c).run cs).Burst agent_id t last _
    simpa only [decide_eq_true_eq, Nat.add_assoc, Nat.add_comm] using hrest

omit hwindow h

/-- **Two bursts** are not missed: of nine errors within ten seconds the last finds the agent locked
out or locks it out. -/
theorem locked_of_two_bursts (agent_id : Text) (before after : List TimedCall) (t last : ℚ)
    (hbefore : Ordered 0 before t) (hafter : Ordered t after last)
    (hwindow : last - t ≤ RATE_LIMITER_WINDOW_SECONDS)
    (hfree : (new.run before).is_locked_at agent_id t = false)
    (hcount : 2 * RATE_LIMITER_THRESHOLD ≤ errors_of agent_id after + 2) :
    let l := new.run (before ++ after)
    (l.record_error agent_id last).2.isOk = false ∧
      (l.record_error agent_id last).1.is_locked_at agent_id last = true := by
  have hsound : (new.run before).Sound t := (sound_new 0).run (le_refl 0) hbefore
  have hstart : (new.run before).Burst agent_id t last 0 := by
    refine ⟨fun _ => show 0 < 5 by decide, fun r hr => .inr ⟨.inl ?_, .inl ?_⟩⟩
    · rw [is_locked_at_of_record hr, decide_eq_false_iff_not] at hfree
      exact not_lt.mp hfree
    · exact ⟨show 0 < 5 by decide, Nat.zero_le _⟩
  rw [run_append]
  have hburst := hstart.run hwindow hsound hbefore.le (le_refl t) hafter
  have hlast := hsound.run hbefore.le hafter
  generalize (new.run before).run after = l at hburst hlast
  have hthreshold : RATE_LIMITER_THRESHOLD = 5 := rfl
  have hrecord := record_error_record l agent_id last
  simp only [record_error_answer, is_locked_at_of_record hrecord, decide_eq_true_eq]
  rcases found_cases l agent_id last with ⟨-, hdead⟩ | hfound
  · -- nine errors do not go unrecorded
    have hfew := hburst.few hwindow (le_refl last) hdead
    omega
  · generalize l.found agent_id last = r at hfound
    have hr := hlast agent_id r hfound
    have hopened := hr.opened
    obtain ⟨hlocked, hsame, herr⟩ |
        ⟨hfree', ⟨hover, -⟩ | ⟨-, hfew, -, ⟨hcount', -⟩ | ⟨hnew, herr⟩⟩⟩ :=
      RateRecord.record_error_cases hr agent_id
    · rw [hsame]
      exact ⟨herr, hlocked⟩
    · rcases hburst.2 r hfound with hbeyond | ⟨-, ⟨hfew, -⟩ | ⟨hsince, -⟩⟩
      · linarith
      · omega
      · linarith
    · rcases hburst.2 r hfound with hbeyond | ⟨-, ⟨hfew', -⟩ | ⟨-, hle⟩⟩
      · linarith
      · omega
      · omega
    · rw [hnew]
      exact ⟨herr, lt_add_of_pos_right _ (by decide)⟩

theorem locked_of_two_bursts_sample :
    let l := new.run (List.replicate 8 ⟨1000, .record_error (ascii "a")⟩)
    (l.record_error (ascii "a") 1005).2.isOk = false ∧
      (l.record_error (ascii "a") 1005).1.is_locked_at (ascii "a") 1005 = true :=
  locked_of_two_bursts (ascii "a") [] _ 1000 1005 (by norm_num [Ordered])
    (by norm_num [Ordered, List.replicate]) (by norm_num [RATE_LIMITER_WINDOW_SECONDS])
    (by decide +kernel) (by decide +kernel)

end AgentRateLimiter

end Saacp
