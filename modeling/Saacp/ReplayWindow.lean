/-
The **replay window** of an epoch: the sliding window over packet sequence numbers that
decides, once per authenticated frame, whether a PSN is new.

`bitmap` is a ring of `window_size` bits; PSN `p` owns slot `p % window_size`, so a bit says
"accepted" only for the one PSN of its residue class inside the current window. Each advance of
`highest_psn` must clear the slots of exactly the PSNs that leave the window. `Tracks w acc` ties
every slot to the list of PSNs accepted so far.

Instants are nanoseconds from a fixed origin, and `f64` seconds are exact rationals.
-/
import Mathlib.Algebra.Order.Field.Rat
import Mathlib.Data.List.Nodup
import Mathlib.Data.Nat.ModEq
import Mathlib.Tactic.Linarith
import Saacp.BitMap
import Saacp.Errors

set_option autoImplicit false

namespace Saacp

open BitMap List

abbrev Instant := ℕ

/-- `since.elapsed().as_secs_f64()` at `now`. `Instant` differences saturate at zero. -/
def elapsed_secs (since now : Instant) : ℚ := ((now - since : ℕ) : ℚ) / 1000000000

def saturating_add (a b : ℕ) : ℕ := min (a + b) (2 ^ 64 - 1)

def MEASC_REPLAY_WINDOW_SIZE : UInt64 := 4096
def MEASC_MAX_PSN_ADVANCE : UInt64 := 2048
def MEASC_REPLAY_ANOMALY_JUMP_THRESHOLD : UInt64 := 512
def MEASC_REPLAY_RATE_LIMIT_WINDOW_SEC : ℚ := 1
def MEASC_REPLAY_MAX_LARGE_ADVANCES : UInt32 := 3
def MEASC_REPLAY_MAX_ANOMALIES_QUARANTINE : UInt32 := 5

def MEASC_PSN_MAX : UInt64 := 9223372036854775807

inductive AnomalyPolicy
  | Allow
  | Audit
  | RateLimit
  | Quarantine
  deriving DecidableEq

structure ReplayWindowPolicy where
  window_size : UInt64
  max_advance : UInt64
  anomaly_jump_threshold : UInt64
  anomaly_policy : AnomalyPolicy
  max_anomalies_before_quarantine : UInt32
  rate_limit_window_seconds : ℚ
  max_large_advances_per_window : UInt32
  deriving DecidableEq

/-- `ReplayWindowPolicy::clamp`: the four corrections, in the order they are applied. -/
def ReplayWindowPolicy.clamp (p : ReplayWindowPolicy) : ReplayWindowPolicy :=
  let p := if p.window_size < 1 then { p with window_size := 1 } else p
  let p := if p.max_advance ≥ p.window_size then
    { p with max_advance := p.window_size - 1 } else p
  let p := if p.anomaly_jump_threshold = 0 then { p with anomaly_jump_threshold := 1 } else p
  if p.anomaly_jump_threshold ≥ p.max_advance then
    { p with anomaly_jump_threshold := max (p.max_advance / 2) 1 } else p

def ReplayWindowPolicy.default : ReplayWindowPolicy :=
  ReplayWindowPolicy.clamp
    { window_size := MEASC_REPLAY_WINDOW_SIZE
      max_advance := MEASC_MAX_PSN_ADVANCE
      anomaly_jump_threshold := MEASC_REPLAY_ANOMALY_JUMP_THRESHOLD
      anomaly_policy := .Audit
      max_anomalies_before_quarantine := MEASC_REPLAY_MAX_ANOMALIES_QUARANTINE
      rate_limit_window_seconds := MEASC_REPLAY_RATE_LIMIT_WINDOW_SEC
      max_large_advances_per_window := MEASC_REPLAY_MAX_LARGE_ADVANCES }

inductive Reason
  | negative_psn
  | psn_above_max
  | quarantined
  | advance_too_large
  | out_of_window
  | duplicate
  | ok
  | ok_anomaly_recorded
  | rate_limit_exceeded
  deriving DecidableEq

structure ReplayWindow where
  policy : ReplayWindowPolicy
  bitmap : List UInt8
  highest_psn : ℤ
  initialized : Bool
  grace_period_locked : Bool
  anomaly_count : UInt32
  quarantined : Bool
  rate_window_start : Instant
  rate_window_advances : UInt32
  deriving DecidableEq

def ReplayWindow.new (policy : ReplayWindowPolicy) (now : Instant) : ReplayWindow where
  policy := policy
  bitmap := List.replicate ((policy.window_size.toNat + 7) / 8) 0
  highest_psn := -1
  initialized := false
  grace_period_locked := false
  anomaly_count := 0
  quarantined := false
  rate_window_start := now
  rate_window_advances := 0

def ReplayWindow.with_default_policy (now : Instant) : ReplayWindow :=
  ReplayWindow.new ReplayWindowPolicy.default now

def ReplayWindow.size (w : ReplayWindow) : ℕ := w.policy.window_size.toNat

def ReplayWindow.lock_for_grace_period (w : ReplayWindow) : ReplayWindow :=
  { w with grace_period_locked := true }

def ReplayWindow.peek (w : ReplayWindow) (psn : UInt64) : Bool × Reason :=
  if psn = 0 then (false, .negative_psn)
  else if psn > MEASC_PSN_MAX then (false, .psn_above_max)
  else if w.quarantined then (false, .quarantined)
  else if 0 ≤ w.highest_psn then
    let h := w.highest_psn.toNat
    if psn.toNat > saturating_add h w.policy.max_advance.toNat then (false, .advance_too_large)
    else if psn.toNat ≤ h - w.size then (false, .out_of_window) -- saturating at zero
    -- above `h` the slot still belongs to a PSN that is about to leave
    else if psn.toNat ≤ h && BitMap.test w.bitmap (psn.toNat % w.size) then (false, .duplicate)
    else (true, .ok)
  else (true, .ok)

def ReplayWindow.roll_rate_window (w : ReplayWindow) (now : Instant) : ReplayWindow :=
  if elapsed_secs w.rate_window_start now > w.policy.rate_limit_window_seconds then
    { w with rate_window_advances := 0, rate_window_start := now }
  else w

def ReplayWindow.record_anomaly (w : ReplayWindow) (now : Instant) : ReplayWindow × Bool × Reason :=
  match w.policy.anomaly_policy with
  | .Allow => (w, true, .ok)
  | .Audit => ({ w with anomaly_count := w.anomaly_count + 1 }, true, .ok_anomaly_recorded)
  | .RateLimit =>
    let w := w.roll_rate_window now
    let w := { w with rate_window_advances := w.rate_window_advances + 1 }
    if w.rate_window_advances > w.policy.max_large_advances_per_window then
      (w, false, .rate_limit_exceeded)
    else
      ({ w with anomaly_count := w.anomaly_count + 1 }, true, .ok_anomaly_recorded)
  | .Quarantine =>
    let w := { w with anomaly_count := w.anomaly_count + 1 }
    -- the PSN that makes the number full is refused as well
    if w.anomaly_count ≥ w.policy.max_anomalies_before_quarantine then
      ({ w with quarantined := true }, false, .quarantined)
    else (w, true, .ok_anomaly_recorded)

def ReplayWindow.is_anomalous (w : ReplayWindow) (psn : UInt64) : Bool :=
  let highest_u64 := if 0 ≤ w.highest_psn then w.highest_psn.toNat else 0
  decide (0 ≤ w.highest_psn) &&
    decide (psn.toNat > saturating_add highest_u64 w.policy.anomaly_jump_threshold.toNat)

/-- `ReplayWindow::check`: the admission check, followed by the anomaly accounting. -/
def ReplayWindow.check (w : ReplayWindow) (now : Instant) (psn : UInt64) :
    ReplayWindow × Bool × Reason :=
  let (ok, reason) := w.peek psn
  if !ok then (w, ok, reason)
  else if w.is_anomalous psn then w.record_anomaly now
  else (w, true, .ok)

/-- The slots of `count` PSNs from `start` on, or the whole map. -/
def ReplayWindow.clear_slots (w : ReplayWindow) (start count : ℕ) : List UInt8 :=
  if count ≥ w.size then BitMap.clearAll w.bitmap
  else BitMap.clearBits w.bitmap ((List.range count).map fun i => (start + i) % w.size)

/-- The slots of the PSNs that fall out when the window moves from `h` up to `psn`. -/
def ReplayWindow.clear_departed (w : ReplayWindow) (h psn : ℕ) : List UInt8 :=
  let new_start := psn - w.size
  let old_start := h - w.size
  if new_start > old_start || !w.initialized then
    -- the first packet clears a ring that is empty
    let clear_start := if w.initialized then old_start + 1 else 0
    let clear_end := new_start
    let clear_count :=
      if clear_end ≥ clear_start then min (clear_end - clear_start + 1) w.size else 0
    w.clear_slots clear_start clear_count
  else w.bitmap

def ReplayWindow.accept (w : ReplayWindow) (psn : UInt64) :
    ReplayWindow × Result Unit :=
  if psn = 0 then (w, .error ⟨.PsnOutOfWindow, "PSN must be > 0"⟩)
  else if psn > MEASC_PSN_MAX then (w, .error ⟨.PsnOutOfWindow, "PSN exceeds MEASC_PSN_MAX"⟩)
  else
    let h := if w.highest_psn < 0 then 0 else w.highest_psn.toNat
    let w := if psn.toNat > h || !w.initialized then
        { w with
          bitmap := w.clear_departed h psn.toNat
          highest_psn := (psn.toNat : ℤ)
          initialized := true }
      else w
    ({ w with bitmap := BitMap.setBit w.bitmap (psn.toNat % w.size) }, .ok ())

def ReplayWindow.check_and_accept (w : ReplayWindow) (now : Instant) (psn : UInt64) :
    ReplayWindow × Bool × Reason :=
  let (w, ok, reason) := w.check now psn
  if ok then ((w.accept psn).1, ok, reason) else (w, ok, reason)

/-! ## What one call does

`peek` admits a PSN exactly when `Admits` holds; `check` leaves the ring and the highest
PSN alone whatever it decides; `accept` is the only writer. -/

/-- The admission condition `peek` evaluates. -/
structure ReplayWindow.Admits (w : ReplayWindow) (psn : UInt64) : Prop where
  pos : 1 ≤ psn.toNat
  le_max : psn.toNat ≤ MEASC_PSN_MAX.toNat
  not_quarantined : w.quarantined = false
  le_advance : 0 ≤ w.highest_psn →
    psn.toNat ≤ saturating_add w.highest_psn.toNat w.policy.max_advance.toNat
  in_window : 0 ≤ w.highest_psn → w.highest_psn < psn.toNat + w.size
  slot_clear : (psn.toNat : ℤ) ≤ w.highest_psn → BitMap.test w.bitmap (psn.toNat % w.size) = false

theorem UInt64_pos_iff (psn : UInt64) : psn ≠ 0 ↔ 1 ≤ psn.toNat := by
  rw [ne_eq, ← UInt64.toNat_inj, show (0 : UInt64).toNat = 0 from rfl]
  omega

namespace ReplayWindow

variable (w : ReplayWindow) (now : Instant) (psn : UInt64)

open Bool

open Nat

theorem not_above_max {psn : UInt64} (h : psn.toNat ≤ MEASC_PSN_MAX.toNat) :
    ¬ psn > MEASC_PSN_MAX := by
  rw [gt_iff_lt, UInt64.lt_iff_toNat_lt]
  exact not_lt.mpr h

theorem peek_of_admits {w : ReplayWindow} {psn : UInt64} (h : w.Admits psn) :
    w.peek psn = (true, .ok) := by
  have hpos : ¬ psn = 0 := (UInt64_pos_iff psn).mpr h.pos
  unfold peek
  rw [if_neg hpos, if_neg (not_above_max h.le_max), if_neg (by simp [h.not_quarantined])]
  by_cases hnn : 0 ≤ w.highest_psn
  · have hwin := h.in_window hnn
    have hadv := h.le_advance hnn
    rw [if_pos hnn]
    dsimp only
    rw [if_neg (by omega), if_neg (by have := h.pos; omega)]
    refine if_neg ?_
    intro hdup
    rw [and_eq_true, decide_eq_true_eq] at hdup
    have hclear := h.slot_clear (by omega)
    rw [hclear] at hdup
    exact false_ne_true hdup.2
  · rw [if_neg hnn]

theorem admits_of_peek {w : ReplayWindow} {psn : UInt64} (h : (w.peek psn).1 = true) :
    w.Admits psn := by
  unfold peek at h
  split at h
  · exact absurd h false_ne_true
  rename_i hpos
  split at h
  · exact absurd h false_ne_true
  rename_i hmax
  split at h
  · exact absurd h false_ne_true
  rename_i hq
  rw [gt_iff_lt, UInt64.lt_iff_toNat_lt, not_lt] at hmax
  have hp := (UInt64_pos_iff psn).mp hpos
  have hq' : w.quarantined = false := by simpa using hq
  split at h
  · rename_i hnn
    dsimp only at h
    split at h
    · exact absurd h false_ne_true
    split at h
    · exact absurd h false_ne_true
    split at h
    · exact absurd h false_ne_true
    rename_i hadv hwin hdup
    refine ⟨hp, hmax, hq', fun _ => by omega, fun _ => by omega, fun hle => ?_⟩
    by_contra hbit
    refine hdup ?_
    rw [and_eq_true, decide_eq_true_eq]
    exact ⟨by omega, by simpa using hbit⟩
  · exact ⟨hp, hmax, hq', fun h0 => by omega, fun h0 => by omega, fun hle => by omega⟩

structure SameRing (w w' : ReplayWindow) : Prop where
  policy : w'.policy = w.policy
  bitmap : w'.bitmap = w.bitmap
  highest_psn : w'.highest_psn = w.highest_psn
  initialized : w'.initialized = w.initialized

theorem roll_rate_window_sameRing : SameRing w (w.roll_rate_window now) := by
  unfold roll_rate_window
  split <;> exact ⟨rfl, rfl, rfl, rfl⟩

theorem record_anomaly_sameRing : SameRing w (w.record_anomaly now).1 := by
  have hroll := roll_rate_window_sameRing w now
  unfold record_anomaly
  split
  · exact ⟨rfl, rfl, rfl, rfl⟩
  · exact ⟨rfl, rfl, rfl, rfl⟩
  · dsimp only
    split <;> exact ⟨hroll.policy, hroll.bitmap, hroll.highest_psn, hroll.initialized⟩
  · dsimp only
    split <;> exact ⟨rfl, rfl, rfl, rfl⟩

theorem check_sameRing : SameRing w (w.check now psn).1 := by
  unfold check
  dsimp only
  split
  · exact ⟨rfl, rfl, rfl, rfl⟩
  split
  · exact record_anomaly_sameRing w now
  · exact ⟨rfl, rfl, rfl, rfl⟩

theorem admits_of_check {w : ReplayWindow} {now : Instant} {psn : UInt64}
    (h : (w.check now psn).2.1 = true) : w.Admits psn := by
  apply admits_of_peek
  unfold check at h
  dsimp only at h
  split at h
  · exact h
  · rename_i hok
    simpa using hok

theorem check_of_le {w : ReplayWindow} {psn : UInt64} (h : w.Admits psn)
    (hle : (psn.toNat : ℤ) ≤ w.highest_psn) : w.check now psn = (w, true, .ok) := by
  have hcalm : w.is_anomalous psn = false := by
    have hbound := psn.toNat_lt
    unfold is_anomalous saturating_add
    rw [if_pos (by omega), and_eq_false_iff]
    exact Or.inr (decide_eq_false (by omega))
  unfold check
  rw [peek_of_admits h, hcalm]
  rfl

end ReplayWindow

/-! ## The ring and the accepted PSNs -/

/-- **What the ring means.** Slot `s` is set exactly when some accepted PSN of that slot is still
inside the window; slots that no PSN of the window owns are clear, so that it can grow into them. -/
structure ReplayWindow.Tracks (w : ReplayWindow) (acc : List UInt64) : Prop where
  size_pos : 1 ≤ w.size
  length : w.bitmap.length = (w.size + 7) / 8
  fresh : w.initialized = false → w.highest_psn = -1 ∧ acc = []
  started : w.initialized = true → ∃ p ∈ acc, w.highest_psn = p.toNat
  pos : ∀ p ∈ acc, 1 ≤ p.toNat
  le_max : ∀ p ∈ acc, p.toNat ≤ MEASC_PSN_MAX.toNat
  le_highest : ∀ p ∈ acc, (p.toNat : ℤ) ≤ w.highest_psn
  slot : ∀ s < w.size, BitMap.test w.bitmap s = true ↔
    ∃ p ∈ acc, w.highest_psn < p.toNat + w.size ∧ p.toNat % w.size = s

namespace ReplayWindow

variable {w : ReplayWindow} {acc : List UInt64} {p : UInt64} {psn : UInt64}

theorem Tracks.slot_lt (ht : w.Tracks acc) {s : ℕ} (hs : s < w.size) : s / 8 < w.bitmap.length := by
  rw [ht.length]
  omega

theorem tracks_new (policy : ReplayWindowPolicy) (now : Instant)
    (hsize : 1 ≤ policy.window_size.toNat) : (ReplayWindow.new policy now).Tracks [] where
  size_pos := hsize
  length := List.length_replicate
  fresh := fun _ => ⟨rfl, rfl⟩
  started := fun h => absurd h Bool.false_ne_true
  pos := fun _ h => absurd h List.not_mem_nil
  le_max := fun _ h => absurd h List.not_mem_nil
  le_highest := fun _ h => absurd h List.not_mem_nil
  slot := by
    intro s _
    rw [show (ReplayWindow.new policy now).bitmap = List.replicate _ 0 from rfl,
      test_replicate_zero]
    simp

theorem SameRing.tracks {w' : ReplayWindow} (hs : SameRing w w') (ht : w.Tracks acc) :
    w'.Tracks acc := by
  have hsize : w'.size = w.size := by rw [size, hs.policy, size]
  refine ⟨?_, ?_, ?_, ?_, ht.pos, ht.le_max, ?_, ?_⟩
  · rw [hsize]; exact ht.size_pos
  · rw [hs.bitmap, hsize]; exact ht.length
  · rw [hs.initialized, hs.highest_psn]; exact ht.fresh
  · rw [hs.initialized, hs.highest_psn]; exact ht.started
  · rw [hs.highest_psn]; exact ht.le_highest
  · rw [hs.bitmap, hs.highest_psn, hsize]; exact ht.slot

/-- Another accepted PSN of the same slot would be a full window away. -/
theorem Tracks.test_iff_mem (ht : w.Tracks acc) (hin : w.highest_psn < p.toNat + w.size)
    (hle : (p.toNat : ℤ) ≤ w.highest_psn) :
    test w.bitmap (p.toNat % w.size) = true ↔ p ∈ acc := by
  rw [ht.slot _ (Nat.mod_lt _ ht.size_pos)]
  constructor
  · rintro ⟨q, hq, hqin, hmod⟩
    have hqle := ht.le_highest q hq
    have heq : q.toNat = p.toNat := by
      rcases lt_trichotomy q.toNat p.toNat with hlt | heq | hgt
      · have := Nat.ModEq.add_le_of_lt hmod hlt
        omega
      · exact heq
      · have := Nat.ModEq.add_le_of_lt hmod.symm hgt
        omega
    rwa [← UInt64.toNat_inj.mp heq]
  · intro hp
    exact ⟨p, hp, hin, rfl⟩

/-! ## Clearing on an advance -/

theorem exists_mod_eq {m s : ℕ} (hs : s < m) (a : ℕ) : ∃ q, a ≤ q ∧ q < a + m ∧ q % m = s := by
  have hr := Nat.mod_lt a (Nat.zero_lt_of_lt hs)
  have hlt := Nat.mod_lt (s + m - a % m) (Nat.zero_lt_of_lt hs)
  refine ⟨a + (s + m - a % m) % m, by omega, by omega, ?_⟩
  have hsum : a + (s + m - a % m) = s + m * (a / m + 1) := by
    have := Nat.div_add_mod a m
    rw [mul_add, mul_one]
    omega
  rw [Nat.add_mod, Nat.mod_mod, ← Nat.add_mod, hsum, Nat.add_mul_mod_self_left, Nat.mod_eq_of_lt hs]

/-- Both clearing paths clear the slots of the range they are given, and no other. -/
theorem test_clear_slots (ht : w.Tracks acc) (start count : ℕ) {s : ℕ} (hs : s < w.size) :
    test (w.clear_slots start count) s = true ↔ test w.bitmap s = true ∧
        ¬ ∃ q, start ≤ q ∧ q < start + count ∧ q % w.size = s := by
  unfold clear_slots
  split
  · -- The whole-map path: the range covers every slot, so nothing survives.
    rename_i hall
    rw [test_clearAll]
    refine iff_of_false Bool.false_ne_true ?_
    rintro ⟨-, hnone⟩
    obtain ⟨q, hlo, hhi, hmod⟩ := exists_mod_eq hs start
    exact hnone ⟨q, hlo, by omega, hmod⟩
  · have hbytes : ∀ i ∈ (List.range count).map (fun i => (start + i) % w.size),
        i / 8 < w.bitmap.length := by
      intro i hi
      obtain ⟨k, -, rfl⟩ := mem_map.mp hi
      exact ht.slot_lt (Nat.mod_lt _ ht.size_pos)
    rw [test_clearBits _ _ hbytes, Bool.and_eq_true, Bool.not_eq_true', decide_eq_false_iff_not]
    refine and_congr_right fun _ => not_congr ?_
    rw [mem_map]
    constructor
    · rintro ⟨i, hi, hmod⟩
      rw [mem_range] at hi
      exact ⟨start + i, by omega, by omega, hmod⟩
    · rintro ⟨q, hlo, hhi, hmod⟩
      refine ⟨q - start, mem_range.mpr (by omega), ?_⟩
      rw [Nat.add_sub_cancel' hlo]
      exact hmod

/-- The slots cleared are those of the PSNs in `(h - size, psn - size]`. -/
theorem test_clear_departed (ht : w.Tracks acc) (hinit : w.initialized = true) {h psn s : ℕ}
    (hs : s < w.size) :
    test (w.clear_departed h psn) s = true ↔ test w.bitmap s = true ∧
        ¬ ∃ q, h - w.size < q ∧ q ≤ psn - w.size ∧ q % w.size = s := by
  unfold clear_departed
  simp only [hinit, if_true, Bool.not_true, Bool.or_false, gt_iff_lt, decide_eq_true_eq]
  by_cases hmove : h - w.size < psn - w.size
  · rw [if_pos hmove, if_pos (show psn - w.size ≥ h - w.size + 1 from hmove),
      test_clear_slots ht _ _ hs]
    refine and_congr_right fun _ => not_congr ?_
    constructor
    · rintro ⟨q, hlo, hhi, hmod⟩
      exact ⟨q, by omega, by omega, hmod⟩
    · rintro ⟨q, hlo, hhi, hmod⟩
      -- When the count was cut off at the window size the range still has every class.
      by_cases hcut : psn - w.size - (h - w.size + 1) + 1 ≤ w.size
      · exact ⟨q, by omega, by omega, hmod⟩
      · rw [min_eq_right (by omega)]
        exact exists_mod_eq hs _
  · rw [if_neg hmove]
    refine (and_iff_left ?_).symm
    rintro ⟨q, hlo, hhi, -⟩
    omega

/-- **An advance keeps the ring exact.** -/
theorem slot_clear_departed (ht : w.Tracks acc) (hinit : w.initialized = true) {h psn s : ℕ}
    (hh : w.highest_psn = h) (hlt : h < psn) (hs : s < w.size) :
    test (w.clear_departed h psn) s = true ↔
      ∃ p ∈ acc, psn < p.toNat + w.size ∧ p.toNat % w.size = s := by
  rw [test_clear_departed ht hinit hs, ht.slot s hs]
  constructor
  · rintro ⟨⟨p, hp, hin, hmod⟩, hkept⟩
    refine ⟨p, hp, ?_, hmod⟩
    have hpos := ht.pos p hp
    by_contra hout
    exact hkept ⟨p.toNat, by omega, by omega, hmod⟩
  · rintro ⟨p, hp, hin, hmod⟩
    have hple := ht.le_highest p hp
    refine ⟨⟨p, hp, by omega, hmod⟩, ?_⟩
    rintro ⟨q, hlo, hhi, hqmod⟩
    -- `q` left the window and `p` did not, so they are a full window apart.
    have hfar := Nat.ModEq.add_le_of_lt (hqmod.trans hmod.symm) (show q < p.toNat by omega)
    omega

theorem test_clear_departed_fresh (ht : w.Tracks []) {h psn s : ℕ} (hs : s < w.size) :
    ¬ test (w.clear_departed h psn) s = true := by
  have hclear : ¬ test w.bitmap s = true := by
    rw [ht.slot s hs]
    simp
  unfold clear_departed
  dsimp only
  split
  · rw [test_clear_slots ht _ _ hs]
    exact fun h => hclear h.1
  · exact hclear

/-! ## One call, then a run of calls -/

theorem slot_setBit {bm : List UInt8} {size : ℕ} {top : ℤ} (hpos : 1 ≤ size)
    (hlen : ∀ s < size, s / 8 < bm.length) (hslot : ∀ s < size, test bm s = true ↔
      ∃ p ∈ acc, top < p.toNat + size ∧ p.toNat % size = s) (hin : top < psn.toNat + size) :
    ∀ s < size, test (setBit bm (psn.toNat % size)) s = true ↔
      ∃ p ∈ psn :: acc, top < p.toNat + size ∧ p.toNat % size = s := by
  intro s hs
  rw [test_setBit bm (hlen _ (Nat.mod_lt _ hpos)), Bool.or_eq_true, hslot s hs, decide_eq_true_eq,
    exists_mem_cons_iff, and_iff_right hin, or_comm]

theorem length_clear_slots (start count : ℕ) :
    (w.clear_slots start count).length = w.bitmap.length := by
  unfold clear_slots
  split
  · exact length_clearAll _
  · exact length_clearBits _ _

theorem length_clear_departed (h psn : ℕ) : (w.clear_departed h psn).length = w.bitmap.length := by
  unfold clear_departed
  dsimp only
  split
  · exact length_clear_slots _ _
  · rfl

/-- `accept` on an admissible PSN, with the error returns resolved. -/
theorem accept_eq (hpos : 1 ≤ psn.toNat) (hmax : psn.toNat ≤ MEASC_PSN_MAX.toNat) :
    (w.accept psn).1 = if w.highest_psn.toNat < psn.toNat ∨ w.initialized = false then
        { w with
          bitmap := setBit (w.clear_departed w.highest_psn.toNat psn.toNat) (psn.toNat % w.size)
          highest_psn := (psn.toNat : ℤ)
          initialized := true }
      else { w with bitmap := setBit w.bitmap (psn.toNat % w.size) } := by
  have hne : ¬ psn = 0 := (UInt64_pos_iff psn).mpr hpos
  have hh : (if w.highest_psn < 0 then 0 else w.highest_psn.toNat) = w.highest_psn.toNat := by
    split
    · omega
    · rfl
  unfold accept
  rw [if_neg hne, if_neg (not_above_max hmax)]
  dsimp only
  rw [hh]
  by_cases hmove : w.highest_psn.toNat < psn.toNat ∨ w.initialized = false
  · rw [if_pos hmove, if_pos (by simpa using hmove)]
    rfl
  · rw [if_neg hmove, if_neg (by simpa using hmove)]

theorem slot_advance (ht : w.Tracks acc) {psn : ℕ}
    (hmove : w.highest_psn.toNat < psn ∨ w.initialized = false) {s : ℕ} (hs : s < w.size) :
    test (w.clear_departed w.highest_psn.toNat psn) s = true ↔
      ∃ p ∈ acc, (psn : ℤ) < p.toNat + w.size ∧ p.toNat % w.size = s := by
  cases hinit : w.initialized with
  | false =>
    obtain ⟨-, rfl⟩ := ht.fresh hinit
    refine iff_of_false (test_clear_departed_fresh ht hs) ?_
    simp
  | true =>
    obtain ⟨q, -, hq⟩ := ht.started hinit
    have hlt : w.highest_psn.toNat < psn := by
      rcases hmove with hlt | hbad
      · exact hlt
      · rw [hinit] at hbad
        exact absurd hbad.symm Bool.false_ne_true
    rw [slot_clear_departed ht hinit (by omega) hlt hs]
    norm_cast

/-- **Recording a PSN keeps the ring exact.** -/
theorem tracks_accept (ht : w.Tracks acc) (hpos : 1 ≤ psn.toNat)
    (hmax : psn.toNat ≤ MEASC_PSN_MAX.toNat)
    (hin : 0 ≤ w.highest_psn → w.highest_psn < psn.toNat + w.size) :
    (w.accept psn).1.Tracks (psn :: acc) := by
  have hsize := ht.size_pos
  have hall : ∀ p ∈ psn :: acc, 1 ≤ p.toNat := forall_mem_cons.mpr ⟨hpos, ht.pos⟩
  have hallmax : ∀ p ∈ psn :: acc, p.toNat ≤ MEASC_PSN_MAX.toNat :=
    forall_mem_cons.mpr ⟨hmax, ht.le_max⟩
  rw [accept_eq hpos hmax]
  by_cases hmove : w.highest_psn.toNat < psn.toNat ∨ w.initialized = false
  · -- The window moves up to `psn`, which becomes the highest PSN.
    rw [if_pos hmove]
    have hup : ∀ p ∈ acc, p.toNat ≤ psn.toNat := by
      intro p hp
      have hle := ht.le_highest p hp
      rcases hmove with hlt | hinit
      · omega
      · rw [(ht.fresh hinit).2] at hp
        exact absurd hp not_mem_nil
    refine ⟨hsize, ?_, fun h => absurd h.symm Bool.false_ne_true, fun _ => ⟨psn, ?_, rfl⟩, hall,
      hallmax, ?_, ?_⟩
    · rw [length_setBit, length_clear_departed]
      exact ht.length
    · exact mem_cons_self
    · exact forall_mem_cons.mpr ⟨le_rfl, fun p hp => Int.ofNat_le.mpr (hup p hp)⟩
    · have hself : ((psn.toNat : ℕ) : ℤ) < psn.toNat + w.size := by omega
      refine slot_setBit hsize ?_ (fun s hs => slot_advance ht hmove hs) hself
      intro s hs
      rw [length_clear_departed]
      exact ht.slot_lt hs
  · -- The window stays; only the slot of `psn` is set.
    rw [if_neg hmove]
    have hle : psn.toNat ≤ w.highest_psn.toNat := by omega
    have hinit : w.initialized = true := by
      cases hi : w.initialized with
      | false => exact absurd (Or.inr hi) hmove
      | true => rfl
    obtain ⟨q, hq, htop⟩ := ht.started hinit
    refine ⟨hsize, ?_, ?_, fun _ => ⟨q, mem_cons_of_mem _ hq, htop⟩, hall, hallmax, ?_, ?_⟩
    · rw [length_setBit]
      exact ht.length
    · intro h
      rw [hinit] at h
      exact absurd h.symm Bool.false_ne_true
    · exact forall_mem_cons.mpr ⟨by dsimp only; omega, ht.le_highest⟩
    · exact slot_setBit hsize (fun s hs => ht.slot_lt hs) ht.slot (hin (by omega))

theorem Tracks.not_mem (ht : w.Tracks acc) (h : w.Admits p) : p ∉ acc := by
  intro hmem
  have hle := ht.le_highest p hmem
  have hset := (ht.test_iff_mem (h.in_window (by omega)) hle).mpr hmem
  rw [h.slot_clear hle] at hset
  exact Bool.false_ne_true hset

theorem tracks_check_and_accept (ht : w.Tracks acc) (now : Instant) (psn : UInt64) :
    let answer := w.check_and_accept now psn
    (answer.2.1 = true ∧ psn ∉ acc ∧ answer.1.Tracks (psn :: acc)) ∨
      (answer.2.1 = false ∧ answer.1.Tracks acc) := by
  have hring := check_sameRing w now psn
  have ht' := hring.tracks ht
  unfold check_and_accept
  cases hok : (w.check now psn).2.1 with
  | false =>
    refine Or.inr ?_
    simp only [hok, Bool.false_eq_true, if_false]
    exact ⟨trivial, ht'⟩
  | true =>
    have hadm := admits_of_check hok
    have hin := hadm.in_window
    simp only [hok, if_true]
    refine Or.inl ⟨trivial, ht.not_mem hadm, tracks_accept ht' hadm.pos hadm.le_max ?_⟩
    rw [hring.highest_psn, show (w.check now psn).1.size = w.size by
      rw [size, hring.policy, size]]
    exact hin

theorem check_and_accept_policy (w : ReplayWindow) (now : Instant) (psn : UInt64) :
    (w.check_and_accept now psn).1.policy = w.policy := by
  have hring := check_sameRing w now psn
  unfold check_and_accept
  dsimp only
  split
  · unfold accept
    dsimp only
    split_ifs <;> exact hring.policy
  · exact hring.policy

def run (w : ReplayWindow) : List (Instant × UInt64) → ReplayWindow × List (UInt64 × Bool × Reason)
  | [] => (w, [])
  | (now, psn) :: calls =>
    let (w', verdict) := w.check_and_accept now psn
    let (w'', verdicts) := w'.run calls
    (w'', (psn, verdict) :: verdicts)

def accepted (verdicts : List (UInt64 × Bool × Reason)) : List UInt64 :=
  (verdicts.filter fun v => v.2.1).map fun v => v.1

theorem run_cons (w : ReplayWindow) (now : Instant) (psn : UInt64)
    (calls : List (Instant × UInt64)) :
    w.run ((now, psn) :: calls) = (((w.check_and_accept now psn).1.run calls).1,
        (psn, (w.check_and_accept now psn).2) :: ((w.check_and_accept now psn).1.run calls).2) :=
  rfl

theorem accepted_cons (psn : UInt64) (v : Bool × Reason)
    (verdicts : List (UInt64 × Bool × Reason)) :
    accepted ((psn, v) :: verdicts) =
      if v.1 then psn :: accepted verdicts else accepted verdicts := by
  unfold accepted
  rw [filter_cons]
  dsimp only
  split <;> rfl

theorem run_policy (w : ReplayWindow) (calls : List (Instant × UInt64)) :
    (w.run calls).1.policy = w.policy := by
  induction calls generalizing w with
  | nil => rfl
  | cons call calls ih =>
    obtain ⟨now, psn⟩ := call
    rw [run_cons]
    exact (ih _).trans (check_and_accept_policy w now psn)

/-- **A run keeps the record exact**, and what it accepts is new. -/
theorem tracks_run (ht : w.Tracks acc) (hnodup : acc.Nodup) (calls : List (Instant × UInt64)) :
    (w.run calls).1.Tracks ((accepted (w.run calls).2).reverse ++ acc) ∧
      ((accepted (w.run calls).2).reverse ++ acc).Nodup := by
  induction calls generalizing w acc with
  | nil => exact ⟨ht, hnodup⟩
  | cons call calls ih =>
    obtain ⟨now, psn⟩ := call
    rw [run_cons, accepted_cons]
    rcases tracks_check_and_accept ht now psn with ⟨hok, hnew, ht'⟩ | ⟨hok, ht'⟩
    · rw [hok, if_pos rfl, reverse_cons, append_assoc, singleton_append]
      exact ih ht' (nodup_cons.mpr ⟨hnew, hnodup⟩)
    · rw [hok, if_neg Bool.false_ne_true]
      exact ih ht' hnodup

/-- A PSN in range that was not accepted is admitted: the bit it reads is its own. -/
theorem Tracks.admits (ht : w.Tracks acc) (hp : p ∉ acc) (hpos : 1 ≤ p.toNat)
    (hmax : p.toNat ≤ MEASC_PSN_MAX.toNat) (hq : w.quarantined = false) (hadv : 0 ≤ w.highest_psn →
      p.toNat ≤ saturating_add w.highest_psn.toNat w.policy.max_advance.toNat)
    (hin : 0 ≤ w.highest_psn → w.highest_psn < p.toNat + w.size) : w.Admits p := by
  refine ⟨hpos, hmax, hq, hadv, hin, ?_⟩
  intro hle
  rw [Bool.eq_false_iff, ne_eq, ht.test_iff_mem (hin (by omega)) hle]
  exact hp

theorem Tracks.peek_of_mem (ht : w.Tracks acc) (hp : p ∈ acc) (hq : w.quarantined = false)
    (hin : w.highest_psn < p.toNat + w.size) :
    w.peek p = (false, .duplicate) := by
  have hpos := ht.pos p hp
  have hmax := ht.le_max p hp
  have hle := ht.le_highest p hp
  have hbit := (ht.test_iff_mem hin hle).mpr hp
  have hbound := p.toNat_lt
  unfold peek
  rw [if_neg ((UInt64_pos_iff p).mpr hpos), if_neg (not_above_max (ht.le_max p hp)),
    if_neg (by simp [hq]), if_pos (by omega)]
  dsimp only
  unfold saturating_add
  rw [if_neg (by omega), if_neg (by omega), if_pos]
  rw [hbit, Bool.and_true, decide_eq_true_eq]
  omega

theorem accept_quarantined (w : ReplayWindow) (psn : UInt64) :
    (w.accept psn).1.quarantined = w.quarantined := by
  unfold accept
  split
  · rfl
  split
  · rfl
  · dsimp only
    generalize (if w.highest_psn < 0 then 0 else w.highest_psn.toNat) = h
    split <;> rfl

theorem check_and_accept_of_audit (hadm : w.Admits psn) (now : Instant)
    (haudit : w.policy.anomaly_policy = .Audit) :
    (w.check_and_accept now psn).2.1 = true ∧
      (w.check_and_accept now psn).1.quarantined = false := by
  have hcheck : (w.check now psn).2.1 = true ∧ (w.check now psn).1.quarantined = false := by
    unfold check record_anomaly
    rw [peek_of_admits hadm, haudit]
    by_cases han : w.is_anomalous psn = true
    · rw [if_pos han]
      exact ⟨rfl, hadm.not_quarantined⟩
    · rw [if_neg han]
      exact ⟨rfl, hadm.not_quarantined⟩
  unfold check_and_accept
  simp only [hcheck.1, if_true, true_and]
  rw [accept_quarantined]
  exact hcheck.2

theorem check_and_accept_of_not_mem (ht : w.Tracks acc) (now : Instant) (hp : p ∉ acc)
    (hpos : 1 ≤ p.toNat) (hin : w.highest_psn < p.toNat + w.size)
    (hle : (p.toNat : ℤ) ≤ w.highest_psn) (hq : w.quarantined = false) :
    (w.check_and_accept now p).2 = (true, .ok) := by
  have hinit : w.initialized = true := by
    by_contra hi
    have := (ht.fresh (Bool.eq_false_iff.mpr hi)).1
    omega
  obtain ⟨q, hq', htop⟩ := ht.started hinit
  have hmax := ht.le_max q hq'
  have hadm : w.Admits p := by
    apply ht.admits hp hpos (by omega) hq
    · intro _
      have hbound := p.toNat_lt
      unfold saturating_add
      omega
    · intro _
      exact hin
  unfold check_and_accept
  rw [check_of_le now hadm hle]
  rfl

/-- **The replay window is exactly-once.** After any sequence of calls on a new window, no
PSN was accepted twice, and a PSN of the window that was never accepted is accepted by the
next call as long as the window is not quarantined. -/
theorem exactly_once (policy : ReplayWindowPolicy) (hsize : 1 ≤ policy.window_size.toNat)
    (start : Instant) (calls : List (Instant × UInt64)) :
    (accepted ((ReplayWindow.new policy start).run calls).2).Nodup ∧
      ∀ (now : Instant) (p : UInt64) (w : ReplayWindow),
        w = ((ReplayWindow.new policy start).run calls).1 →
        p ∉ accepted ((ReplayWindow.new policy start).run calls).2 →
        1 ≤ p.toNat →
        w.highest_psn - policy.window_size.toNat < p.toNat →
        (p.toNat : ℤ) ≤ w.highest_psn →
        w.quarantined = false →
        (w.check_and_accept now p).2 = (true, .ok) := by
  obtain ⟨ht, hnodup⟩ := tracks_run (tracks_new policy start hsize) nodup_nil calls
  rw [append_nil] at ht hnodup
  refine ⟨nodup_reverse.mp hnodup, ?_⟩
  rintro now p w rfl hnew hpos hlo hhi hq
  have hpolicy := run_policy (ReplayWindow.new policy start) calls
  refine check_and_accept_of_not_mem ht now ?_ hpos ?_ hhi hq
  · rwa [mem_reverse]
  · rw [size, hpolicy]
    show _ < (p.toNat : ℤ) + policy.window_size.toNat
    omega

theorem exactly_once_eight_slots :
    (accepted ((ReplayWindow.new ⟨8, 15, 2, .Quarantine, 9, 1, 3⟩ 0).run [(0, 5), (1, 20)]).2 =
        [5, 20]) ∧
      (((ReplayWindow.new ⟨8, 15, 2, .Quarantine, 9, 1, 3⟩ 0).run
        [(0, 5), (1, 20)]).1.check_and_accept 2 13).2 = (true, .ok) :=
  ⟨by decide +kernel,
    (exactly_once ⟨8, 15, 2, .Quarantine, 9, 1, 3⟩ (by decide) 0 [(0, 5), (1, 20)]).2 2 13 _ rfl
      (by decide +kernel) (by decide) (by decide +kernel) (by decide +kernel)
      (by decide +kernel)⟩

/-! ## The window as a set -/

/-- What is admissible for a window that remembers every PSN it has accepted. -/
def Admissible (policy : ReplayWindowPolicy) (acc : List UInt64) (p : UInt64) : Prop :=
  1 ≤ p.toNat ∧ p.toNat ≤ MEASC_PSN_MAX.toNat ∧ p ∉ acc ∧
    (∀ q ∈ acc, q.toNat < p.toNat + policy.window_size.toNat) ∧
    (acc ≠ [] → ∃ q ∈ acc, p.toNat ≤ saturating_add q.toNat policy.max_advance.toNat)

theorem Tracks.admits_iff (ht : w.Tracks acc) :
    w.Admits p ↔ w.quarantined = false ∧ Admissible w.policy acc p := by
  constructor
  · intro h
    refine ⟨h.not_quarantined, h.pos, h.le_max, ht.not_mem h, fun q hmem => ?_, fun hacc => ?_⟩
    · have hle := ht.le_highest q hmem
      have hin := h.in_window (by omega)
      rw [size] at hin
      omega
    · have hinit : w.initialized = true := by simpa using mt (fun h => (ht.fresh h).2) hacc
      obtain ⟨q, hmem, htop⟩ := ht.started hinit
      have hadv := h.le_advance (by omega)
      rw [htop, Int.toNat_natCast] at hadv
      exact ⟨q, hmem, hadv⟩
  · rintro ⟨hq, hpos, hmax, hnew, hin, hadvance⟩
    cases hinit : w.initialized with
    | false =>
      have hnone := (ht.fresh hinit).1
      exact ht.admits hnew hpos hmax hq (by omega) (by omega)
    | true =>
      obtain ⟨q, hmem, htop⟩ := ht.started hinit
      obtain ⟨q', hmem', hadv⟩ := hadvance (ne_nil_of_mem hmem)
      have hle := ht.le_highest q' hmem'
      have hlow := hin q hmem
      rw [htop] at hle
      refine ht.admits hnew hpos hmax hq (fun _ => ?_) (fun _ => ?_)
      · rw [htop, Int.toNat_natCast]
        unfold saturating_add at hadv ⊢
        omega
      · rw [htop, size]
        omega

/-- **The ring forgets nothing that matters.** After any calls on a new window, `peek` decides as a
window would that remembers every PSN it has accepted, unless it is quarantined; what is accepted
next is admissible for that window, and anomalies that are only audited make no difference. -/
theorem peek_iff_admissible (policy : ReplayWindowPolicy) (hsize : 1 ≤ policy.window_size.toNat)
    (start : Instant) (calls : List (Instant × UInt64)) (now : Instant) (p : UInt64) :
    let r := (ReplayWindow.new policy start).run calls
    ((r.1.peek p).1 = true ↔ r.1.quarantined = false ∧ Admissible policy (accepted r.2) p) ∧
      ((r.1.check_and_accept now p).2.1 = true → (r.1.peek p).1 = true) ∧
      (policy.anomaly_policy = .Audit →
        (r.1.check_and_accept now p).2.1 = (r.1.peek p).1) := by
  intro r
  obtain ⟨ht, -⟩ := tracks_run (tracks_new policy start hsize) nodup_nil calls
  have hpolicy : r.1.policy = policy := run_policy (ReplayWindow.new policy start) calls
  have hpeek : (r.1.peek p).1 = true ↔ r.1.Admits p :=
    ⟨admits_of_peek, fun h => by rw [peek_of_admits h]⟩
  have haccepted : (r.1.check_and_accept now p).2.1 = (r.1.check now p).2.1 := by
    unfold check_and_accept
    dsimp only
    split <;> rfl
  have hchecked : (r.1.check_and_accept now p).2.1 = true → (r.1.peek p).1 = true := by
    rw [haccepted, hpeek]
    exact admits_of_check
  refine ⟨?_, hchecked, fun haudit => ?_⟩
  · rw [hpeek, ht.admits_iff, hpolicy]
    simp only [Admissible, append_nil, mem_reverse, ne_eq, reverse_eq_nil_iff, r]
  · rw [Bool.eq_iff_iff]
    refine ⟨hchecked, fun h => ?_⟩
    exact (check_and_accept_of_audit (hpeek.mp h) now (hpolicy ▸ haudit)).1

theorem peek_iff_admissible_eight_slots : (((ReplayWindow.new ⟨8, 15, 2, .Audit, 9, 1, 3⟩ 0).run
    [(0, 5), (1, 20)]).1.check_and_accept 2 13).2.1 = true :=
  ((peek_iff_admissible ⟨8, 15, 2, .Audit, 9, 1, 3⟩ (by decide) 0 [(0, 5), (1, 20)] 2 13).2.2
    rfl).trans (by decide +kernel)

end ReplayWindow

end Saacp
