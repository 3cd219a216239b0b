/-
**The nonce tracker**: which 64-bit nonces have been seen, and since when.

Only every thousandth insert looks at the size of the map: if it is over capacity the entries past
the maximal age go, and if that is not enough the call is refused. The entry of the refused call
stays. Within its maximal age an entry is never dropped (`run_keeps`); the size is bounded by the
capacity, one interval, and one more interval for each refusal (`Bounded`).

Clock readings and ages are exact rationals.
-/
import Saacp.Errors
import Saacp.Hashes
import Saacp.Table
import Mathlib.Algebra.Order.Ring.Rat

set_option autoImplicit false

open ByteCodec

namespace Saacp

open List Table Nat

def NONCE_MAX_ENTRIES : ℕ := 100000
def NONCE_PRUNE_INTERVAL : ℕ := 1000

/-- `max_age_seconds`, any `f64`; within `+∞` is every age, within `-∞` or `NaN` none. -/
inductive MaxAge
  | seconds (s : ℚ)
  | always
  | never

def MaxAge.admits (m : MaxAge) (age : ℚ) : Bool :=
  match m with
  | seconds s => age ≤ s
  | always => true
  | never => false

theorem MaxAge.admits_mono {m : MaxAge} {age age' : ℚ} (hle : age ≤ age')
    (h : m.admits age' = true) : m.admits age = true := by
  cases m with
  | seconds s =>
    simp only [admits, decide_eq_true_eq] at h ⊢
    exact hle.trans h
  | always => rfl
  | never => exact h

def NONCE_MAX_AGE_SECONDS : MaxAge := .seconds 300

structure NonceTracker where
  seen_nonces : Table UInt64 ℚ
  max_age_seconds : MaxAge
  max_entries : ℕ
  insert_count : UInt64

def nonce_already_used : SAACPHardDrop :=
  ⟨.InvalidSignature, "REPLAY ATTACK DETECTED: Nonce already used."⟩

def nonce_capacity_exceeded : SAACPHardDrop :=
  ⟨.CircuitBreakerOpen, "Nonce tracker capacity exceeded under sustained flood — " ++
    "rejecting to protect replay integrity."⟩

namespace NonceTracker

def with_limits (max_age_seconds : MaxAge) (max_entries : ℕ) : NonceTracker where
  seen_nonces := .empty
  max_age_seconds := max_age_seconds
  max_entries := max_entries
  insert_count := 0

def new : NonceTracker := with_limits NONCE_MAX_AGE_SECONDS NONCE_MAX_ENTRIES

def contains (t : NonceTracker) (nonce : UInt64) : Bool := t.seen_nonces.contains nonce

variable (t : NonceTracker)

def count : ℕ := t.seen_nonces.len

def inserted (key : UInt64) (now : ℚ) : NonceTracker :=
  { t with
    seen_nonces := t.seen_nonces.insert key now
    insert_count := t.insert_count + 1 }

def pruned (now : ℚ) : NonceTracker :=
  { t with seen_nonces := t.seen_nonces.retain fun _ seen => t.max_age_seconds.admits (now - seen) }

def check_due : Prop :=
  t.insert_count.toNat % NONCE_PRUNE_INTERVAL = 0 ∧ t.max_entries < t.count

instance : Decidable t.check_due :=
  inferInstanceAs (Decidable (_ ∧ _))

def track_key (key : UInt64) (now : ℚ) : NonceTracker × Result Unit :=
  if t.contains key then (t, .error nonce_already_used)
  else if (t.inserted key now).check_due then
    if ((t.inserted key now).pruned now).count ≤ t.max_entries then
      ((t.inserted key now).pruned now, .ok ())
    else ((t.inserted key now).pruned now, .error nonce_capacity_exceeded)
  else (t.inserted key now, .ok ())

def track (nonce : UInt64) (now : ℚ) :
    NonceTracker × Result Unit := t.track_key nonce now

variable (H : Hashes)

/-- `composite_key`: the first eight bytes of a hash over session and nonce. -/
def composite_key (session_id : Text) (nonce : UInt64) : UInt64 :=
  UInt64.ofNat (ofBE ((H.sha256 (session_id ++ toBE 8 nonce.toNat)).take 8))

def track_scoped (session_id : Text) (nonce : UInt64) (now : ℚ) :
    NonceTracker × Result Unit := t.track_key (composite_key H session_id nonce) now

theorem track_key_cases (key : UInt64) (now : ℚ) : let t' := t.inserted key now
    let answer := t.track_key key now
    (∃ seen, t.seen_nonces.get key = some seen ∧ answer = (t, .error nonce_already_used)) ∨
      (t.seen_nonces.get key = none ∧ ((¬ t'.check_due ∧ answer = (t', .ok ())) ∨
        (t'.check_due ∧ (((t'.pruned now).count ≤ t.max_entries ∧
            answer = (t'.pruned now, .ok ())) ∨
          (t.max_entries < (t'.pruned now).count ∧
            answer = (t'.pruned now, .error nonce_capacity_exceeded)))))) := by
  unfold track_key contains Table.contains
  dsimp only
  cases hget : t.seen_nonces.get key with
  | some seen => exact .inl ⟨seen, rfl, rfl⟩
  | none =>
    refine .inr ⟨rfl, ?_⟩
    rw [if_neg (by simp)]
    by_cases hdue : (t.inserted key now).check_due
    · rw [if_pos hdue]
      refine .inr ⟨hdue, ?_⟩
      by_cases hfits : ((t.inserted key now).pruned now).count ≤ t.max_entries
      · exact .inl ⟨hfits, if_pos hfits⟩
      · exact .inr ⟨Nat.lt_of_not_le hfits, if_neg hfits⟩
    · exact .inl ⟨hdue, if_neg hdue⟩

theorem track_key_leaves (key : UInt64) (now : ℚ) :
    (∃ seen, t.seen_nonces.get key = some seen ∧ (t.track_key key now).1 = t) ∨
      (t.seen_nonces.get key = none ∧ ((t.track_key key now).1 = t.inserted key now ∨
          (t.track_key key now).1 = (t.inserted key now).pruned now)) := by
  obtain ⟨seen, hseen, htrack⟩ | ⟨hfresh, ⟨-, htrack⟩ | ⟨-, ⟨-, htrack⟩ | ⟨-, htrack⟩⟩⟩ :=
    t.track_key_cases key now
  · exact .inl ⟨seen, hseen, by rw [htrack]⟩
  · exact .inr ⟨hfresh, .inl (by rw [htrack])⟩
  · exact .inr ⟨hfresh, .inr (by rw [htrack])⟩
  · exact .inr ⟨hfresh, .inr (by rw [htrack])⟩

variable {t : NonceTracker} {seen : ℚ} {k : UInt64}

theorem track_key_of_seen {key : UInt64} (hget : t.seen_nonces.get key = some seen) (now : ℚ) :
    t.track_key key now = (t, .error nonce_already_used) := by
  unfold track_key contains Table.contains
  rw [hget]
  rfl

/-! ## Runs -/

inductive Call
  | track (nonce : UInt64)
  | track_scoped (session_id : Text) (nonce : UInt64)

def Call.perform (c : Call) (t : NonceTracker) (now : ℚ) :
    NonceTracker × Result Unit :=
  match c with
  | .track nonce => t.track nonce now
  | .track_scoped session_id nonce => t.track_scoped H session_id nonce now

def Call.key : Call → UInt64
  | .track nonce => nonce
  | .track_scoped session_id nonce => composite_key H session_id nonce

theorem Call.perform_eq (c : Call) (t : NonceTracker) (now : ℚ) :
    c.perform H t now = t.track_key (c.key H) now := by
  cases c with
  | track | track_scoped => rfl

def run (t : NonceTracker) (keys : List (UInt64 × ℚ)) : NonceTracker :=
  keys.foldl (fun t k => (t.track_key k.1 k.2).1) t

def results (t : NonceTracker) : List (UInt64 × ℚ) → List (Result Unit)
  | [] => []
  | k :: keys => (t.track_key k.1 k.2).2 :: (t.track_key k.1 k.2).1.results keys

def perform (t : NonceTracker) (calls : List (Call × ℚ)) : NonceTracker :=
  calls.foldl (fun t c => (c.1.perform H t c.2).1) t

def keys_of (calls : List (Call × ℚ)) : List (UInt64 × ℚ) :=
  calls.map fun c => (c.1.key H, c.2)

theorem perform_eq_run (t : NonceTracker) (calls : List (Call × ℚ)) :
    t.perform H calls = t.run (keys_of H calls) := by
  simp only [perform, run, keys_of, foldl_map, Call.perform_eq]

theorem run_append (t : NonceTracker) (keys keys' : List (UInt64 × ℚ)) :
    t.run (keys ++ keys') = (t.run keys).run keys' := List.foldl_append

theorem track_key_limits (t : NonceTracker) (key : UInt64) (now : ℚ) :
    (t.track_key key now).1.max_age_seconds = t.max_age_seconds ∧
      (t.track_key key now).1.max_entries = t.max_entries := by
  unfold track_key
  split_ifs <;> exact ⟨rfl, rfl⟩

theorem run_limits (t : NonceTracker) (keys : List (UInt64 × ℚ)) :
    (t.run keys).max_age_seconds = t.max_age_seconds ∧
      (t.run keys).max_entries = t.max_entries := by
  induction keys generalizing t with
  | nil => exact ⟨rfl, rfl⟩
  | cons k keys ih =>
    obtain ⟨hage, hmax⟩ := ih (t.track_key k.1 k.2).1
    obtain ⟨hage', hmax'⟩ := t.track_key_limits k.1 k.2
    exact ⟨hage.trans hage', hmax.trans hmax'⟩

/-! ## The replay horizon -/

/-- The nonce is in the map, and is not too old to be kept at `last`. -/
def Recalls (t : NonceTracker) (k : UInt64) (seen last : ℚ) : Prop :=
  t.seen_nonces.get k = some seen ∧ t.max_age_seconds.admits (last - seen) = true

theorem Recalls.track_key {last now : ℚ} (h : t.Recalls k seen last) (hle : now ≤ last)
    (key : UInt64) : (t.track_key key now).1.Recalls k seen last := by
  refine ⟨?_, by rw [(t.track_key_limits key now).1]; exact h.2⟩
  obtain ⟨_, -, htrack⟩ | ⟨hfresh, hcases⟩ := t.track_key_leaves key now
  · rw [htrack]
    exact h.1
  · have hne : k ≠ key := by
      rintro rfl
      cases hfresh.symm.trans h.1
    have hins : (t.inserted key now).seen_nonces.get k = some seen := by
      rw [inserted, get_insert, if_neg hne]
      exact h.1
    rcases hcases with htrack | htrack
    · rw [htrack]
      exact hins
    · rw [htrack]
      exact get_retain.mpr ⟨hins, MaxAge.admits_mono (sub_le_sub_right hle seen) h.2⟩

theorem Recalls.run {last : ℚ} (h : t.Recalls k seen last) (keys : List (UInt64 × ℚ))
    (hbefore : ∀ c ∈ keys, c.2 ≤ last) : (t.run keys).seen_nonces.get k = some seen := by
  induction keys generalizing t with
  | nil => exact h.1
  | cons c keys ih =>
    exact ih (h.track_key (hbefore c mem_cons_self) c.1)
      fun d hd => hbefore d (mem_cons_of_mem c hd)

theorem get_of_ok {key : UInt64} {now : ℚ}
    (hok : (t.track_key key now).2 = .ok ()) (hage : t.max_age_seconds.admits 0 = true) :
    (t.track_key key now).1.seen_nonces.get key = some now := by
  have hins : (t.inserted key now).seen_nonces.get key = some now := get_insert_self _ _ _
  have hpruned : ((t.inserted key now).pruned now).seen_nonces.get key = some now := by
    refine get_retain.mpr ⟨hins, ?_⟩
    rw [sub_self]
    exact hage
  obtain ⟨_, -, htrack⟩ | ⟨-, ⟨-, htrack⟩ | ⟨-, ⟨-, htrack⟩ | ⟨-, htrack⟩⟩⟩ :=
    t.track_key_cases key now
  · rw [htrack] at hok
    cases hok
  · rw [htrack]
    exact hins
  · rw [htrack]
    exact hpruned
  · rw [htrack] at hok
    cases hok

theorem answer_of_fresh {key : UInt64} (hget : t.seen_nonces.get key = none) (now : ℚ) :
    (t.track_key key now).2 = .ok () ∨
      (t.track_key key now).2 = .error nonce_capacity_exceeded := by
  obtain ⟨_, hseen, -⟩ | ⟨-, ⟨-, htrack⟩ | ⟨-, ⟨-, htrack⟩ | ⟨-, htrack⟩⟩⟩ :=
    t.track_key_cases key now
  · rw [hget] at hseen
    cases hseen
  · exact .inl (by rw [htrack])
  · exact .inl (by rw [htrack])
  · exact .inr (by rw [htrack])

theorem track_key_new {key : UInt64} {now : ℚ}
    (hget : (t.track_key key now).1.seen_nonces.get k = some seen) :
    t.seen_nonces.get k = some seen ∨ ((k, seen) = (key, now) ∧ t.seen_nonces.get key = none) := by
  obtain ⟨_, -, htrack⟩ | ⟨hfresh, hcases⟩ := t.track_key_leaves key now
  · rw [htrack] at hget
    exact .inl hget
  have hins : (t.inserted key now).seen_nonces.get k = some seen := by
    rcases hcases with htrack | htrack
    · rwa [htrack] at hget
    · rw [htrack] at hget
      exact (get_retain.mp hget).1
  apply forall_insert _ _ k seen hins
  · exact fun _ _ => .inl
  · exact .inr ⟨rfl, hfresh⟩

theorem inserted_of_get {keys : List (UInt64 × ℚ)}
    (hget : (t.run keys).seen_nonces.get k = some seen) :
    t.seen_nonces.get k = some seen ∨ ∃ before after, keys = before ++ (k, seen) :: after ∧
      (t.run before).seen_nonces.get k = none := by
  induction keys generalizing t with
  | nil => exact .inl hget
  | cons c keys ih =>
    rcases ih hget with hold | ⟨before, after, rfl, hfresh⟩
    · rcases track_key_new hold with hold | ⟨hc, hfresh⟩
      · exact .inl hold
      · obtain ⟨rfl, rfl⟩ := Prod.mk.inj hc
        exact .inr ⟨[], keys, rfl, hfresh⟩
    · exact .inr ⟨c :: before, after, rfl, hfresh⟩

/-- **The replay horizon.** In every run on a non-decreasing clock, once a call for a key has been
accepted, every call for that key within the maximal age is refused, whatever was tracked and
pruned in between; and a replay is only ever reported for a key that an earlier call of the run
inserted. -/
theorem nonce_replay_horizon (max_age : MaxAge) (max_entries : ℕ)
    (before between : List (UInt64 × ℚ)) (key : UInt64) (t t' : ℚ)
    (hclock : ((before ++ (key, t) :: between ++ [(key, t')]).map Prod.snd).Pairwise (· ≤ ·)) :
    (((((with_limits max_age max_entries).run before).track_key key t).2 = .ok () →
      max_age.admits (t' - t) = true →
      (((with_limits max_age max_entries).run (before ++ (key, t) :: between)).track_key
        key t').2 ≠ .ok ())) ∧
    ((((with_limits max_age max_entries).run before).track_key key t).2 =
        .error nonce_already_used →
      ∃ earlier later seen, before = earlier ++ (key, seen) :: later ∧
        ((((with_limits max_age max_entries).run earlier).track_key key seen).2 = .ok () ∨
          (((with_limits max_age max_entries).run earlier).track_key key seen).2 =
            .error nonce_capacity_exceeded)) := by
  constructor
  · intro hok hage
    obtain ⟨hlimit, -⟩ := (with_limits max_age max_entries).run_limits before
    have hall : ∀ c ∈ (key, t) :: between, c.2 ≤ t' := by
      intro c hc
      rw [map_append, pairwise_append] at hclock
      refine hclock.2.2 c.2 (mem_map_of_mem ?_) t' (by simp)
      exact mem_append_right _ hc
    have hle : t ≤ t' := hall (key, t) mem_cons_self
    have hzero : max_age.admits 0 = true := MaxAge.admits_mono (sub_nonneg.mpr hle) hage
    have hget := get_of_ok hok (by rw [hlimit]; exact hzero)
    have hkept : ((with_limits max_age max_entries).run
        (before ++ (key, t) :: between)).seen_nonces.get key = some t := by
      rw [run_append]
      have hage' : (((with_limits max_age max_entries).run before).track_key
          key t).1.max_age_seconds.admits (t' - t) = true := by
        rw [(track_key_limits _ _ _).1, hlimit]
        exact hage
      exact Recalls.run ⟨hget, hage'⟩ between (fun c hc => hall c (mem_cons_of_mem _ hc))
    rw [track_key_of_seen hkept]
    exact nofun
  · intro hreplay
    cases hget : ((with_limits max_age max_entries).run before).seen_nonces.get key with
    | none =>
      obtain hanswer | hanswer := answer_of_fresh hget t
      · rw [hanswer] at hreplay
        cases hreplay
      · rw [hanswer, Except.error.injEq] at hreplay
        exact absurd hreplay (by decide)
    | some seen =>
      obtain hempty | ⟨earlier, later, hsplit, hfresh⟩ := inserted_of_get hget
      · rw [with_limits, get_empty] at hempty
        cases hempty
      · exact ⟨earlier, later, seen, hsplit, answer_of_fresh hfresh seen⟩

theorem nonce_replay_horizon_sample :
    ((((with_limits (.seconds 300) 10).run []).track_key 7 0).2 = .ok () ∧
      (((with_limits (.seconds 300) 10).run ([] ++ (7, 0) ::
        [(8, 1), (9, 200)])).track_key 7 300).2 ≠ .ok ()) := by
  have hok : (((with_limits (.seconds 300) 10).run []).track_key 7 0).2 = .ok () := by
    decide +kernel
  exact ⟨hok, (nonce_replay_horizon (.seconds 300) 10 [] [(8, 1), (9, 200)] 7 0 300
    (by decide +kernel)).1 hok (by decide +kernel)⟩

/-! ## The size of the map -/

def refusals (rs : List (Result Unit)) : ℕ :=
  rs.count (.error nonce_capacity_exceeded)

/-- **The size**: the capacity, what came in since the last check, one interval for each refusal. -/
def Bounded (t : NonceTracker) (refused : ℕ) : Prop :=
  t.count ≤ t.max_entries + t.insert_count.toNat % NONCE_PRUNE_INTERVAL +
    NONCE_PRUNE_INTERVAL * refused

theorem count_inserted {key : UInt64} (hfresh : t.seen_nonces.get key = none)
    (now : ℚ) : (t.inserted key now).count = t.count + 1 := Table.len_insert_of_none hfresh now

theorem count_pruned_le (t : NonceTracker) (now : ℚ) : (t.pruned now).count ≤ t.count :=
  length_filter_le _ _

open UInt64

/-- The counter moves towards the next check, or has come to it, also across the wrap-around. -/
theorem insert_count_succ (n : UInt64) : (n + 1).toNat % NONCE_PRUNE_INTERVAL = 0 ∨
      (n + 1).toNat % NONCE_PRUNE_INTERVAL = n.toNat % NONCE_PRUNE_INTERVAL + 1 := by
  have hlt : n.toNat < 2 ^ 64 := n.toNat_lt
  have hsucc : (n + 1).toNat = (n.toNat + 1) % 2 ^ 64 := UInt64.toNat_add n 1
  unfold NONCE_PRUNE_INTERVAL
  by_cases hwrap : n.toNat + 1 = 2 ^ 64
  · rw [hwrap, mod_self] at hsucc
    exact .inl (by rw [hsucc])
  · rw [mod_eq_of_lt (by omega)] at hsucc
    omega

theorem Bounded.track_key {refused : ℕ} (h : Bounded t refused) (key : UInt64) (now : ℚ) :
    Bounded (t.track_key key now).1 (refused + refusals [(t.track_key key now).2]) := by
  have hmod : t.insert_count.toNat % NONCE_PRUNE_INTERVAL < NONCE_PRUNE_INTERVAL :=
    mod_lt _ (by decide)
  have hok : refusals [.ok ()] = 0 := rfl
  have hreplay : refusals [.error nonce_already_used] = 0 := by decide
  have hfull : refusals [.error nonce_capacity_exceeded] = 1 := by decide
  have hcount := insert_count_succ t.insert_count
  unfold Bounded at h ⊢
  obtain ⟨_, -, htrack⟩ | ⟨hfresh, hcases⟩ := t.track_key_cases key now
  · rw [htrack, hreplay]
    exact h
  have hins := count_inserted hfresh now
  have hpruned := count_pruned_le (t.inserted key now) now
  rcases hcases with ⟨hdue, htrack⟩ | ⟨-, ⟨hfits, htrack⟩ | ⟨-, htrack⟩⟩
  · -- no check, or one that found the map within capacity
    rw [check_due, not_and_or, not_lt, hins] at hdue
    rw [htrack, hok, hins]
    simp only [inserted, add_zero] at hdue ⊢
    omega
  · rw [htrack, hok, add_zero]
    exact hfits.trans (by simp only [inserted, pruned]; omega)
  · rw [htrack, hfull, Nat.mul_add, Nat.mul_one]
    refine hpruned.trans ?_
    rw [hins]
    simp only [inserted, pruned]
    omega

theorem Bounded.run {refused : ℕ} (h : Bounded t refused) (keys : List (UInt64 × ℚ)) :
    Bounded (t.run keys) (refused + refusals (t.results keys)) := by
  induction keys generalizing t refused with
  | nil => exact h
  | cons k keys ih =>
    have hstep := ih (h.track_key k.1 k.2)
    have hsplit : refusals (t.results (k :: keys)) = refusals [(t.track_key k.1 k.2).2] +
          refusals ((t.track_key k.1 k.2).1.results keys) := by
      rw [refusals, refusals, refusals, ← count_append]
      rfl
    rwa [hsplit, ← add_assoc]

theorem bounded_with_limits (max_age : MaxAge) (max_entries : ℕ) :
    Bounded (with_limits max_age max_entries) 0 := zero_le _

theorem count_track_key_le (t : NonceTracker) (key : UInt64) (now : ℚ) :
    (t.track_key key now).1.count ≤ t.count + 1 := by
  obtain ⟨_, -, htrack⟩ | ⟨hfresh, hcases⟩ := t.track_key_leaves key now
  · rw [htrack]
    exact le_succ _
  have hins := (count_inserted hfresh now).le
  have hpruned := (count_pruned_le (t.inserted key now) now).trans hins
  rcases hcases with htrack | htrack
  · rw [htrack]
    exact hins
  · rw [htrack]
    exact hpruned

/-! ## Accepted keys -/

def accepted (t : NonceTracker) : List (UInt64 × ℚ) → List (UInt64 × ℚ)
  | [] => []
  | k :: keys =>
    if (t.track_key k.1 k.2).2 = .ok () then k :: (t.track_key k.1 k.2).1.accepted keys
    else (t.track_key k.1 k.2).1.accepted keys

section

variable {t : NonceTracker} {keys : List (UInt64 × ℚ)} {now : ℚ}

theorem Recalls.not_mem_accepted {k : UInt64} {seen : ℚ} (h : t.Recalls k seen now)
    (hbefore : ∀ c ∈ keys, c.2 ≤ now) : k ∉ (t.accepted keys).map Prod.fst := by
  induction keys generalizing t with
  | nil => exact not_mem_nil
  | cons c keys ih =>
    have hrest := ih (h.track_key (hbefore c mem_cons_self) c.1)
      fun d hd => hbefore d (mem_cons_of_mem c hd)
    unfold accepted
    split
    · rename_i hok
      rw [map_cons, mem_cons, not_or]
      refine ⟨?_, hrest⟩
      rintro rfl
      rw [track_key_of_seen h.1] at hok
      cases hok
    · exact hrest

theorem get_of_accepted (hbefore : ∀ c ∈ keys, c.2 ≤ now) {c : UInt64 × ℚ}
    (hc : c ∈ t.accepted keys) (hage : t.max_age_seconds.admits (now - c.2) = true) :
    (t.run keys).seen_nonces.get c.1 = some c.2 := by
  induction keys generalizing t with
  | nil => exact absurd hc not_mem_nil
  | cons k keys ih =>
    have hage' : (t.track_key k.1 k.2).1.max_age_seconds.admits (now - c.2) = true := by
      rw [(t.track_key_limits k.1 k.2).1]
      exact hage
    have hlater : ∀ d ∈ keys, d.2 ≤ now := fun d hd => hbefore d (mem_cons_of_mem k hd)
    unfold accepted at hc
    split at hc
    · rename_i hok
      rcases mem_cons.mp hc with rfl | hc
      · have hzero : t.max_age_seconds.admits 0 = true :=
          MaxAge.admits_mono (sub_nonneg.mpr (hbefore c mem_cons_self)) hage
        exact Recalls.run ⟨get_of_ok hok hzero, hage'⟩ keys hlater
      · exact ih hlater hc hage'
    · exact ih hlater hc hage'

theorem nodup_accepted (hbefore : ∀ c ∈ keys, c.2 ≤ now) :
    (((t.accepted keys).filter fun c => t.max_age_seconds.admits (now - c.2)).map
      Prod.fst).Nodup := by
  induction keys generalizing t with
  | nil => exact nodup_nil
  | cons k keys ih =>
    have hlater : ∀ d ∈ keys, d.2 ≤ now := fun d hd => hbefore d (mem_cons_of_mem k hd)
    have hrest := ih (t := (t.track_key k.1 k.2).1) hlater
    rw [(t.track_key_limits k.1 k.2).1] at hrest
    unfold accepted
    split
    · rename_i hok
      rw [filter_cons]
      split
      · rename_i hage
        rw [map_cons, nodup_cons]
        refine ⟨?_, hrest⟩
        have hzero : t.max_age_seconds.admits 0 = true :=
          MaxAge.admits_mono (sub_nonneg.mpr (hbefore k mem_cons_self)) hage
        have hnot := Recalls.not_mem_accepted ⟨get_of_ok hok hzero,
          by rw [(t.track_key_limits k.1 k.2).1]; exact hage⟩ hlater
        intro hmem
        obtain ⟨d, hd, hdk⟩ := mem_map.mp hmem
        exact hnot (mem_map.mpr ⟨d, (mem_filter.mp hd).1, hdk⟩)
      · exact hrest
    · exact hrest

end

/-- A call that inserts and checks, with more than `max_entries` nonces within the maximal age. -/
def swamped (t : NonceTracker) (key : UInt64) (now : ℚ) : Prop :=
  t.seen_nonces.get key = none ∧
    (t.inserted key now).insert_count.toNat % NONCE_PRUNE_INTERVAL = 0 ∧
      t.max_entries < ((t.inserted key now).pruned now).count

theorem swamped_of_refused {key : UInt64} {now : ℚ}
    (h : (t.track_key key now).2 = .error nonce_capacity_exceeded) : t.swamped key now := by
  obtain ⟨_, -, htrack⟩ | ⟨hfresh, ⟨-, htrack⟩ | ⟨hdue, ⟨-, htrack⟩ | ⟨hover, -⟩⟩⟩ :=
    t.track_key_cases key now
  · rw [htrack, Except.error.injEq] at h
    exact absurd h (by decide)
  · rw [htrack] at h
    cases h
  · rw [htrack] at h
    cases h
  · exact ⟨hfresh, hdue.1, hover⟩

theorem mem_results {keys : List (UInt64 × ℚ)} {r : Result Unit}
    (h : r ∈ t.results keys) : ∃ before k later, keys = before ++ k :: later ∧
      ((t.run before).track_key k.1 k.2).2 = r := by
  induction keys generalizing t with
  | nil => exact absurd h not_mem_nil
  | cons k keys ih =>
    rcases mem_cons.mp h with rfl | h
    · exact ⟨[], k, keys, rfl, rfl⟩
    · obtain ⟨before, k', later, rfl, hr⟩ := ih h
      exact ⟨k :: before, k', later, rfl, hr⟩

/-- **The bound, up to the first check that finds too many.** In every run of `track` and
`track_scoped` calls of which none, but possibly the last, finds the tracker swamped, the map has
at most one interval more than `max_entries`. In any run, if as many keys as that are accepted
within the maximal age of a later moment, a call was refused. -/
theorem nonce_count_bounded (H : Hashes) (max_age : MaxAge) (max_entries : ℕ)
    (calls : List (Call × ℚ)) : let t := with_limits max_age max_entries
    ((∀ before k later, keys_of H calls = before ++ k :: later → later ≠ [] →
        ¬ (t.run before).swamped k.1 k.2) →
      (t.perform H calls).count ≤ max_entries + NONCE_PRUNE_INTERVAL) ∧
    ∀ now, (∀ c ∈ calls, c.2 ≤ now) →
      max_entries + NONCE_PRUNE_INTERVAL ≤ ((t.accepted (keys_of H calls)).filter fun c =>
        max_age.admits (now - c.2)).length →
      .error nonce_capacity_exceeded ∈ t.results (keys_of H calls) := by
  intro t
  have hbound : ∀ keys, .error nonce_capacity_exceeded ∉ t.results keys →
      (t.run keys).count < max_entries + NONCE_PRUNE_INTERVAL := by
    intro keys hno
    have h := (bounded_with_limits max_age max_entries).run keys
    rw [refusals, count_eq_zero_of_not_mem hno, Bounded, (run_limits _ _).2] at h
    have hmod : (t.run keys).insert_count.toNat % NONCE_PRUNE_INTERVAL <
        NONCE_PRUNE_INTERVAL := mod_lt _ (by decide)
    simp only [t, with_limits, add_zero] at h hmod ⊢
    omega
  constructor
  · intro hopen
    rw [perform_eq_run]
    rcases eq_nil_or_concat (keys_of H calls) with hnil | ⟨keys, k, hkeys⟩
    · rw [hnil]
      exact zero_le _
    · rw [concat_eq_append] at hkeys
      have hlast := hbound keys fun hmem => by
        obtain ⟨before, k', later, rfl, hrefused⟩ := mem_results hmem
        exact hopen before k' (later ++ [k]) (hkeys.trans (append_assoc _ _ _))
          (append_ne_nil_of_right_ne_nil _ (cons_ne_nil _ _)) (swamped_of_refused hrefused)
      have hstep := count_track_key_le (t.run keys) k.1 k.2
      rw [hkeys, run_append]
      show (NonceTracker.track_key _ k.1 k.2).1.count ≤ _
      omega
  · intro now hbefore
    contrapose!
    intro hno
    have hkeys : ∀ c ∈ keys_of H calls, c.2 ≤ now := by
      intro c hc
      obtain ⟨d, hd, rfl⟩ := mem_map.mp hc
      exact hbefore d hd
    refine lt_of_le_of_lt ?_ (hbound _ hno)
    rw [← length_map (f := Prod.fst)]
    refine length_le_len (nodup_accepted (t := t) hkeys) ?_
    intro k hk
    obtain ⟨c, hc, rfl⟩ := mem_map.mp hk
    obtain ⟨hacc, hage⟩ := mem_filter.mp hc
    exact ⟨c.2, get_of_accepted hkeys hacc hage⟩

/-! ## Floods -/

/-- **A flood**: fresh keys within the maximal age all stay, refused or not. -/
theorem flood_grows {key : UInt64} {now : ℚ} (hfresh : t.seen_nonces.get key = none)
    (hage : ∀ k seen, (t.inserted key now).seen_nonces.get k = some seen →
      t.max_age_seconds.admits (now - seen) = true) :
    t.track_key key now = (t.inserted key now,
      if (t.inserted key now).check_due then .error nonce_capacity_exceeded else .ok ()) := by
  have hpruned : (t.inserted key now).pruned now = t.inserted key now :=
    congrArg (fun s => { t.inserted key now with seen_nonces := s }) (retain_eq_self hage)
  unfold track_key contains Table.contains
  rw [hfresh, if_neg (by simp), hpruned]
  split_ifs with hdue hfits
  · exact absurd hdue.2 (not_lt.mpr hfits)
  · rfl
  · rfl

def flood (n : ℕ) : List (Call × ℚ) := (List.range n).map fun i => (.track (UInt64.ofNat i), 0)

/-- What `n` fresh nonces at one moment leave. -/
structure Flooded (max_entries n : ℕ) (t : NonceTracker) : Prop where
  age : t.max_age_seconds = .seconds 300
  limit : t.max_entries = max_entries
  count : t.count = n
  inserts : t.insert_count = UInt64.ofNat n
  keys : ∀ k seen, t.seen_nonces.get k = some seen → k.toNat < n ∧ seen = 0

theorem Flooded.track {n max_entries : ℕ} (h : Flooded max_entries n t) (hn : n + 1 < 2 ^ 64) :
    Flooded max_entries (n + 1) (t.inserted (UInt64.ofNat n) 0) ∧
      t.track (UInt64.ofNat n) 0 = (t.inserted (UInt64.ofNat n) 0,
        if (n + 1) % NONCE_PRUNE_INTERVAL = 0 ∧ max_entries < n + 1 then
          .error nonce_capacity_exceeded
        else .ok ()) := by
  have hnat : ∀ m < 2 ^ 64, (ofNat m).toNat = m := fun m hm => by
    rw [toNat_ofNat', mod_eq_of_lt hm]
  have hfresh : t.seen_nonces.get (ofNat n) = none := by
    refine Option.eq_none_iff_forall_ne_some.mpr fun seen hget => ?_
    have hlt := (h.keys _ seen hget).1
    rw [hnat n (by omega)] at hlt
    exact lt_irrefl n hlt
  have hkeys : ∀ k seen, (t.inserted (ofNat n) 0).seen_nonces.get k = some seen →
      k.toNat < n + 1 ∧ seen = 0 := by
    refine forall_insert (fun k seen hget => ?_) ⟨?_, rfl⟩
    · exact (h.keys k seen hget).imp_left lt_succ_of_lt
    · rw [hnat n (by omega)]
      exact lt_succ_self n
  have hnext : Flooded max_entries (n + 1) (t.inserted (ofNat n) 0) := by
    refine ⟨h.age, h.limit, ?_, ?_, hkeys⟩
    · rw [count_inserted hfresh, h.count]
    · rw [ofNat_add, ← h.inserts]
      rfl
  have hage : ∀ k seen, (t.inserted (ofNat n) 0).seen_nonces.get k = some seen →
      t.max_age_seconds.admits (0 - seen) = true := by
    intro k seen hget
    rw [(hkeys k seen hget).2, h.age, sub_self]
    rfl
  refine ⟨hnext, ?_⟩
  rw [NonceTracker.track, flood_grows hfresh hage]
  simp only [check_due, hnext.inserts, hnext.count, hnext.limit, hnat _ hn]

theorem flood_run {n : ℕ} (hn : n < 2 ^ 64) (max_entries : ℕ) : Flooded max_entries n
    ((with_limits (.seconds 300) max_entries).perform sampleHashes (flood n)) := by
  induction n with
  | zero =>
    refine ⟨rfl, rfl, rfl, rfl, fun k seen hget => ?_⟩
    cases (get_empty k).symm.trans hget
  | succ n ih =>
    obtain ⟨hnext, htrack⟩ := (ih (lt_of_succ_lt hn)).track hn
    rw [flood, range_succ, map_append, perform, foldl_append]
    show Flooded max_entries (n + 1) (NonceTracker.track _ (ofNat n) 0).1
    rw [perform, flood] at htrack
    rw [htrack]
    exact hnext

/-- A flood up to the first check, which refuses: the bound is reached. -/
theorem nonce_count_bounded_sample :
    let t := with_limits (.seconds 300) 0
    (t.perform sampleHashes (flood 1000)).count = 1000 ∧
      (t.perform sampleHashes (flood 1000)).count ≤ 0 + NONCE_PRUNE_INTERVAL := by
  refine ⟨(flood_run (by decide) 0).count,
    (nonce_count_bounded sampleHashes (.seconds 300) 0 (flood 1000)).1 ?_⟩
  rintro before k later hsplit hlater ⟨-, hdue, -⟩
  have hlen := congrArg length hsplit
  have hpos := length_pos_iff.mpr hlater
  simp only [keys_of, flood, length_map, length_range, length_append, length_cons] at hlen
  have hbefore : before = keys_of sampleHashes (flood before.length) := by
    have := congrArg (take before.length) hsplit
    rw [take_left, keys_of, flood, map_map, ← map_take, take_range, Nat.min_eq_left (by omega),
      ← map_map] at this
    exact this.symm
  rw [hbefore, ← perform_eq_run] at hdue
  have hinserts := (flood_run (n := before.length) (by omega) 0).inserts
  have hnext : (ofNat before.length + 1).toNat = before.length + 1 := by
    rw [UInt64.toNat_add, toNat_ofNat']
    exact (congrArg (· % 2 ^ 64) (by rw [mod_eq_of_lt (by omega)]; rfl)).trans
      (mod_eq_of_lt (by omega))
  rw [inserted, hinserts, hnext, NONCE_PRUNE_INTERVAL] at hdue
  omega

/-- 1001 nonces at one moment, on a tracker without capacity: there are as many entries, one more
than the bound allows, and though the thousandth call was refused the next one was accepted. -/
theorem flood_exceeds_bound : 0 + NONCE_PRUNE_INTERVAL <
        ((with_limits (.seconds 300) 0).perform sampleHashes (flood 1001)).count ∧
      (((with_limits (.seconds 300) 0).perform sampleHashes (flood 999)).track 999 0).2 =
        .error nonce_capacity_exceeded ∧
      (((with_limits (.seconds 300) 0).perform sampleHashes (flood 1000)).track 1000 0).2 =
        .ok () := by
  refine ⟨?_, ?_, ?_⟩
  · rw [(flood_run (by decide) 0).count]
    decide
  · exact congrArg Prod.snd ((flood_run (n := 999) (by decide) 0).track (by decide)).2
  · exact congrArg Prod.snd ((flood_run (n := 1000) (by decide) 0).track (by decide)).2

end NonceTracker

end Saacp
