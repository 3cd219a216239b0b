/-
**The in-memory state backend**: `InMemoryBackend`, a map whose entries may expire, with a cap on
their number.

`get` and `scan_prefix` drop what they find expired; the other operations overwrite it. Every key
that is new to the map is appended to a queue, and above the cap entries are evicted in the order of
the queue. All that keeps the map below its cap is that every key of the map is in the queue
(`Tracked`); `compare_and_swap` does not see to this.

An operation may read the clock more than once; so a call comes with all these readings. A time to
live that does not fit into an `Instant`, which panics, is left out.
-/
import Saacp.Json
import Saacp.TtlMap
import Saacp.Hashes

set_option autoImplicit false

open ByteCodec

namespace Saacp

open Table

/-! ## Counters as text -/

def saturating_add_i64 (x y : ℤ) : ℤ := max (-2 ^ 63) (min (2 ^ 63 - 1) (x + y))

def i64_text (n : ℤ) : List UInt8 :=
  if n < 0 then 45 :: Json.decimal n.natAbs else Json.decimal n.natAbs

def parse_digits (digits : List UInt8) : Option ℕ :=
  if digits ≠ [] ∧ digits.all fun d => 48 ≤ d ∧ d ≤ 57 then
    some (digits.foldl (fun n d => 10 * n + (d.toNat - 48)) 0)
  else none

/-- `parse::<i64>` of a string: digits with an optional sign, within the range of the type. -/
def parse_i64 : List UInt8 → Option ℤ
  | 45 :: digits =>
    (parse_digits digits).bind fun n => if n ≤ 2 ^ 63 then some (-n) else none
  | 43 :: digits => (parse_digits digits).bind fun n => if n < 2 ^ 63 then some n else none
  | digits => (parse_digits digits).bind fun n => if n < 2 ^ 63 then some n else none

def counter_value (value : List UInt8) : ℤ := (parse_i64 value).getD 0

/-! ## The backend -/

abbrev BackendEntry := Expiring (List UInt8)

/-- The readings of the clock that one call gets, in the order of time. -/
structure Readings where
  now : ℕ
  later : ℕ
  sweep : Text → ℕ
  now_le_later : now ≤ later
  sweep_mem : ∀ key, now ≤ sweep key ∧ sweep key ≤ later

def Readings.at (now : ℕ) : Readings :=
  ⟨now, now, fun _ => now, le_refl _, fun _ => ⟨le_refl _, le_refl _⟩⟩

structure InMemoryBackend where
  store : Table Text BackendEntry
  order : List Text
  max_entries : ℕ

namespace InMemoryBackend

def with_max_entries (max_entries : ℕ) : InMemoryBackend := ⟨.empty, [], max_entries⟩

variable (b : InMemoryBackend)

/-- The length of the queue above which it is compacted: `max_entries.saturating_mul(2)`. -/
def compact_above : ℕ := min (2 * b.max_entries) (2 ^ 64 - 1)

/-- Keys that are no longer stored are dropped from the queue when it is too long. -/
def compacted : InMemoryBackend :=
  if b.compact_above < b.order.length then { b with order := b.order.filter b.store.contains }
  else b

def evict_loop (max_entries : ℕ) (store : Table Text BackendEntry) :
    List Text → Table Text BackendEntry × List Text
  | [] => (store, [])
  | key :: order =>
    if max_entries < store.len then evict_loop max_entries (store.remove key) order
    else (store, key :: order)

def evict_over_cap : InMemoryBackend :=
  let (store, order) := evict_loop b.max_entries b.store b.order
  { b with store, order }.compacted

def track_new_key (key : Text) : InMemoryBackend :=
  let b := { b with order := b.order ++ [key] }.compacted
  if b.max_entries < b.store.len then b.evict_over_cap else b

def live_entry (now : ℕ) (key : Text) : Option BackendEntry :=
  (b.store.get key).filter fun e => e.live now

/-- `get`. The lookup that removes takes another lock, and looks again. -/
def get (r : Readings) (key : Text) : InMemoryBackend × Option (List UInt8) :=
  match b.store.get key with
  | none => (b, none)
  | some e =>
    if e.live r.now then (b, some e.value)
    else if e.live r.later then (b, some e.value)
    else ({ b with store := b.store.remove key }, none)

def set (r : Readings) (key : Text) (value : List UInt8) (ttl : Option ℕ) : InMemoryBackend :=
  let is_new_key := !b.store.contains key
  let b := { b with store := b.store.insert key ⟨value, ttl.map (r.now + ·)⟩ }
  if is_new_key then b.track_new_key key else b

def delete (key : Text) : InMemoryBackend × Bool :=
  ({ b with store := b.store.remove key }, (b.store.get key).isSome)

def incr (r : Readings) (key : Text) (by_ : Int64) : InMemoryBackend × ℤ :=
  let current := ((b.live_entry r.now key).map fun e => counter_value e.value).getD 0
  let existing_ttl := (b.live_entry r.now key).bind Expiring.expires_at
  let next := saturating_add_i64 current by_.toInt
  let is_new_key := current = 0 ∧ b.store.contains key = false
  let b := { b with store := b.store.insert key ⟨i64_text next, existing_ttl⟩ }
  (if is_new_key then b.track_new_key key else b, next)

def prefix_scan (r : Readings) (start : Text) : InMemoryBackend × List Text :=
  let store := b.store.retain fun key e => e.live (r.sweep key)
  ({ b with store }, (store.entries.map Prod.fst).filter fun key => start.isPrefixOf key)

def incr_with_ttl (r : Readings) (key : Text) (by_ : Int64) (ttl : ℕ) : InMemoryBackend × ℤ :=
  match b.live_entry r.now key with
  | some e =>
    let next := saturating_add_i64 (counter_value e.value) by_.toInt
    ({ b with
       store := b.store.modify key fun _ =>
        ⟨i64_text next, some (e.expires_at.getD (r.later + ttl))⟩ }, next)
  | none =>
    let was_absent := !b.store.contains key
    let b := { b with
      store := b.store.insert key ⟨i64_text by_.toInt, some (r.later + ttl)⟩ }
    (if was_absent then b.track_new_key key else b, by_.toInt)

def compare_and_swap (r : Readings) (key : Text)
    (expected : Option (List UInt8)) (new : List UInt8) (ttl : Option ℕ) :
    InMemoryBackend × Bool :=
  if (b.live_entry r.now key).map Expiring.value ≠ expected then (b, false)
  else ({ b with store := b.store.insert key ⟨new, ttl.map (r.later + ·)⟩ }, true)

end InMemoryBackend

inductive BackendOp
  | get (key : Text)
  | set (key : Text) (value : List UInt8) (ttl : Option ℕ)
  | delete (key : Text)
  | incr (key : Text) (by_ : Int64)
  | incr_with_ttl (key : Text) (by_ : Int64) (ttl : ℕ)
  | compare_and_swap (key : Text) (expected : Option (List UInt8)) (new : List UInt8)
      (ttl : Option ℕ)
  | prefix_scan (start : Text)

def BackendOp.written : BackendOp → Option Text
  | set key _ _ => some key
  | incr key _ => some key
  | incr_with_ttl key _ _ => some key
  | compare_and_swap key _ _ _ => some key
  | _ => none

/-- The key that is queued if the call creates an entry; a swap queues none. -/
def BackendOp.queued : BackendOp → Option Text
  | compare_and_swap _ _ _ _ => none
  | op => op.written

theorem BackendOp.written_of_queued {op : BackendOp} {key : Text} (h : op.queued = some key) :
    op.written = some key := by
  cases op with
  | compare_and_swap => cases h
  | _ => exact h

inductive BackendAnswer
  | value (v : Option (List UInt8))
  | done
  | flag (b : Bool)
  | count (n : ℤ)
  | keys (ks : List Text)
  deriving DecidableEq

structure BackendCall where
  op : BackendOp
  at_ : Readings

namespace InMemoryBackend

def call (b : InMemoryBackend) (c : BackendCall) : InMemoryBackend × BackendAnswer :=
  match c.op with
  | .get key => let (b', v) := b.get c.at_ key; (b', .value v)
  | .set key value ttl => (b.set c.at_ key value ttl, .done)
  | .delete key => let (b', existed) := b.delete key; (b', .flag existed)
  | .incr key by_ => let (b', n) := b.incr c.at_ key by_; (b', .count n)
  | .incr_with_ttl key by_ ttl =>
    let (b', n) := b.incr_with_ttl c.at_ key by_ ttl; (b', .count n)
  | .compare_and_swap key expected new ttl =>
    let (b', swapped) := b.compare_and_swap c.at_ key expected new ttl; (b', .flag swapped)
  | .prefix_scan start => let (b', ks) := b.prefix_scan c.at_ start; (b', .keys ks)

def run (b : InMemoryBackend) (cs : List BackendCall) : InMemoryBackend :=
  cs.foldl (fun b c => (b.call c).1) b

def swaps_in (b : InMemoryBackend) (c : BackendCall) : Bool :=
  match c.op with
  | .compare_and_swap key expected _ _ => expected = none && !b.store.contains key
  | _ => false

/-- Whether any call of a sequence is of the kind `P`, on the backend it finds. -/
def ever (P : InMemoryBackend → BackendCall → Bool) (b : InMemoryBackend) : List BackendCall → Bool
  | [] => false
  | c :: cs => P b c || (b.call c).1.ever P cs

/-! ## The shapes of a call -/

variable {b : InMemoryBackend}

section Shapes

def put (b : InMemoryBackend) (key : Text) (e : BackendEntry) : InMemoryBackend :=
  let b' := { b with store := b.store.insert key e }
  if b.store.contains key then b' else b'.track_new_key key

theorem live_entry_of_absent {key : Text} (h : b.store.get key = none) (now : ℕ) :
    b.live_entry now key = none := by
  rw [live_entry, h]
  rfl

theorem get_of_live_entry {now : ℕ} {key : Text} {e : BackendEntry}
    (h : b.live_entry now key = some e) : b.store.get key = some e :=
  (Option.filter_eq_some_iff.mp h).1

theorem set_eq_put (b : InMemoryBackend) (r : Readings) (key : Text) (value : List UInt8)
    (ttl : Option ℕ) : b.set r key value ttl = b.put key ⟨value, ttl.map (r.now + ·)⟩ := by
  unfold set put
  cases b.store.contains key with
  | false => rfl
  | true => rfl

theorem incr_eq_put (b : InMemoryBackend) (r : Readings) (key : Text) (by_ : Int64) :
    (b.incr r key by_).1 = b.put key ⟨i64_text (b.incr r key by_).2,
        (b.live_entry r.now key).bind Expiring.expires_at⟩ := by
  unfold incr put
  cases hget : b.store.get key with
  | none =>
    have habsent : b.store.contains key = false := by rw [Table.contains, hget]; rfl
    simp [live_entry_of_absent hget, habsent]
  | some e =>
    have hstored : b.store.contains key = true := by rw [Table.contains, hget]; rfl
    simp [hstored]

theorem incr_with_ttl_eq_put {r : Readings} {key : Text} {by_ : Int64} {ttl : ℕ}
    (h : b.live_entry r.now key = none) :
    b.incr_with_ttl r key by_ ttl =
      (b.put key ⟨i64_text by_.toInt, some (r.later + ttl)⟩, by_.toInt) := by
  unfold incr_with_ttl put
  rw [h]
  cases b.store.contains key with
  | false => rfl
  | true => rfl

/-- Nothing has happened but that entries were dropped or overwritten. -/
def Shrunk (b b' : InMemoryBackend) : Prop :=
  ∃ store, b' = { b with store } ∧ store.len ≤ b.store.len ∧
    ∀ key e, store.get key = some e → ∃ e', b.store.get key = some e'

theorem shrunk_refl (b : InMemoryBackend) : b.Shrunk b :=
  ⟨b.store, rfl, le_refl _, fun _ e hget => ⟨e, hget⟩⟩

theorem shrunk_of_le {store : Table Text BackendEntry} (hlen : store.len ≤ b.store.len)
    (hle : store ≤ b.store) : b.Shrunk { b with store } :=
  ⟨store, rfl, hlen, fun key e hget => ⟨e, hle key e hget⟩⟩

theorem get_shrunk (b : InMemoryBackend) (r : Readings) (key : Text) :
    b.Shrunk (b.get r key).1 := by
  unfold InMemoryBackend.get
  cases b.store.get key with
  | none => exact shrunk_refl b
  | some e =>
    simp only
    split_ifs
    · exact shrunk_refl b
    · exact shrunk_refl b
    · exact shrunk_of_le (len_remove_le _ _) (remove_le _ _)

theorem compare_and_swap_cases (b : InMemoryBackend) (r : Readings) (key : Text)
    (expected : Option (List UInt8)) (new : List UInt8) (ttl : Option ℕ) :
    b.Shrunk (b.compare_and_swap r key expected new ttl).1 ∨
      expected = none ∧ b.store.contains key = false ∧
      (b.compare_and_swap r key expected new ttl).1 =
        { b with store := b.store.insert key ⟨new, ttl.map (r.later + ·)⟩ } := by
  unfold InMemoryBackend.compare_and_swap
  split_ifs with hseen
  · exact .inl (shrunk_refl b)
  · cases hget : b.store.get key with
    | none =>
      rw [live_entry_of_absent hget] at hseen
      exact .inr ⟨(not_not.mp hseen).symm, by rw [Table.contains, hget]; rfl, rfl⟩
    | some e =>
      exact .inl ⟨_, rfl, (len_insert_of_some hget _).le,
        forall_insert (fun _ e' hget' => ⟨e', hget'⟩) ⟨e, hget⟩⟩

/-- **What a call does**: it drops, overwrites or puts entries, or is a swap that creates one. -/
theorem call_cases (b : InMemoryBackend) (c : BackendCall) :
    b.Shrunk (b.call c).1 ∨ (∃ key e, c.op.queued = some key ∧ (b.call c).1 = b.put key e) ∨
      b.swaps_in c = true ∧ ∃ key e, c.op.written = some key ∧
        (b.call c).1 = { b with store := b.store.insert key e } := by
  obtain ⟨op, r⟩ := c
  cases op with
  | get key => exact .inl (get_shrunk b r key)
  | set key value ttl => exact .inr (.inl ⟨key, _, rfl, set_eq_put b r key value ttl⟩)
  | delete key => exact .inl (shrunk_of_le (len_remove_le _ _) (remove_le _ _))
  | incr key by_ => exact .inr (.inl ⟨key, _, rfl, incr_eq_put b r key by_⟩)
  | incr_with_ttl key by_ ttl =>
    cases hlive : b.live_entry r.now key with
    | none => exact .inr (.inl ⟨key, _, rfl, congrArg Prod.fst (incr_with_ttl_eq_put hlive)⟩)
    | some e =>
      refine .inl ?_
      show b.Shrunk (b.incr_with_ttl r key by_ ttl).1
      unfold InMemoryBackend.incr_with_ttl
      rw [hlive]
      exact ⟨_, rfl, (len_modify _ _ _).le,
        forall_modify (fun _ e' hget => ⟨e', hget⟩) fun _ _ => ⟨e, get_of_live_entry hlive⟩⟩
  | compare_and_swap key expected new ttl =>
    obtain hshrunk | ⟨rfl, habsent, hswapped⟩ :=
      compare_and_swap_cases b r key expected new ttl
    · exact .inl hshrunk
    · exact .inr (.inr ⟨by simp [swaps_in, habsent], key, _, rfl, hswapped⟩)
  | prefix_scan start => exact .inl (shrunk_of_le (len_retain_le _ _) (retain_le _ _))

end Shapes

/-! ## The cap -/

section Cap

variable {m : ℕ}

def Tracked (b : InMemoryBackend) : Prop := ∀ key e, b.store.get key = some e → key ∈ b.order

/-- **The invariant**: the keys are tracked, and there are no more than the cap. -/
structure Bounded (b : InMemoryBackend) : Prop where
  tracked : b.Tracked
  len_le : b.store.len ≤ b.max_entries

@[simp] theorem compacted_store (b : InMemoryBackend) : b.compacted.store = b.store := by
  unfold compacted
  split_ifs
  · rfl
  · rfl

@[simp] theorem compacted_max_entries (b : InMemoryBackend) :
    b.compacted.max_entries = b.max_entries := by
  unfold compacted
  split_ifs
  · rfl
  · rfl

theorem Tracked.compacted (h : b.Tracked) : b.compacted.Tracked := by
  intro key e hget
  rw [compacted_store] at hget
  have hmem := h key e hget
  unfold InMemoryBackend.compacted
  split_ifs
  · refine List.mem_filter.mpr ⟨hmem, ?_⟩
    rw [Table.contains, hget]
    rfl
  · exact hmem

theorem evict_loop_le (m : ℕ) (store : Table Text BackendEntry) (order : List Text) :
    (evict_loop m store order).1 ≤ store := by
  induction order generalizing store with
  | nil => exact le_refl _
  | cons key order ih =>
    unfold evict_loop
    split_ifs
    · exact (ih _).trans (remove_le store key)
    · exact le_refl _

/-- **Eviction gets down to the cap**: it stops there, or has popped the whole queue. -/
theorem evict_loop_bounded {store : Table Text BackendEntry} {order : List Text}
    (h : ∀ key e, store.get key = some e → key ∈ order) :
    (∀ key e, (evict_loop m store order).1.get key = some e → key ∈ (evict_loop m store order).2) ∧
      (evict_loop m store order).1.len ≤ m := by
  induction order generalizing store with
  | nil =>
    refine ⟨h, ?_⟩
    have hempty : store.len ≤ 0 := len_le_length h
    show store.len ≤ m
    omega
  | cons key order ih =>
    unfold evict_loop
    split_ifs with hover
    · apply ih
      intro key' e hget
      rw [get_remove] at hget
      split_ifs at hget with hkey
      exact (List.mem_cons.mp (h key' e hget)).resolve_left hkey
    · exact ⟨h, not_lt.mp hover⟩

theorem Tracked.evict_over_cap (h : b.Tracked) : b.evict_over_cap.Bounded := by
  obtain ⟨htracked, hlen⟩ := evict_loop_bounded (m := b.max_entries) h
  have hafter : ({ b with
      store := (evict_loop b.max_entries b.store b.order).1
      order := (evict_loop b.max_entries b.store b.order).2 } : InMemoryBackend).Tracked := htracked
  refine ⟨hafter.compacted, ?_⟩
  show (InMemoryBackend.compacted _).store.len ≤ (InMemoryBackend.compacted _).max_entries
  rw [compacted_store, compacted_max_entries]
  exact hlen

theorem track_new_key_bounded {key : Text}
    (h : ∀ key' e, b.store.get key' = some e → key' = key ∨ key' ∈ b.order) :
    (b.track_new_key key).Bounded := by
  have htracked : ({ b with order := b.order ++ [key] } : InMemoryBackend).Tracked := by
    intro key' e hget
    rw [List.mem_append, List.mem_singleton]
    exact (h key' e hget).symm
  unfold track_new_key
  simp only
  split_ifs with hover
  · exact htracked.compacted.evict_over_cap
  · exact ⟨htracked.compacted, not_lt.mp hover⟩

theorem Bounded.put (h : b.Bounded) (key : Text) (e : BackendEntry) : (b.put key e).Bounded := by
  unfold InMemoryBackend.put
  simp only
  split_ifs with hstored
  · obtain ⟨e', hget⟩ := Option.isSome_iff_exists.mp hstored
    exact ⟨forall_insert h.tracked (h.tracked key e' hget),
      (len_insert_of_some hget e).trans_le h.len_le⟩
  · apply track_new_key_bounded
    exact forall_insert (fun key' e' hget => .inr (h.tracked key' e' hget)) (.inl rfl)

theorem put_max_entries (b : InMemoryBackend) (key : Text) (e : BackendEntry) :
    (b.put key e).max_entries = b.max_entries := by
  unfold InMemoryBackend.put track_new_key evict_over_cap
  simp only
  split_ifs
  · rfl
  · simp
  · simp

theorem call_max_entries (b : InMemoryBackend) (c : BackendCall) :
    (b.call c).1.max_entries = b.max_entries := by
  obtain ⟨store, hcall, -⟩ | ⟨key, e, -, hcall⟩ | ⟨-, key, e, -, hcall⟩ := call_cases b c
  · rw [hcall]
  · rw [hcall, put_max_entries]
  · rw [hcall]

/-- **One call**: every operation but a swap that creates an entry keeps within the cap. -/
theorem Bounded.call (h : b.Bounded) {c : BackendCall} (hc : b.swaps_in c = false) :
    (b.call c).1.Bounded := by
  obtain ⟨store, hcall, hlen, hkeys⟩ | ⟨key, e, -, hcall⟩ | ⟨hswaps, -⟩ := call_cases b c
  · rw [hcall]
    refine ⟨?_, hlen.trans h.len_le⟩
    intro key e hget
    obtain ⟨e', hget'⟩ := hkeys key e hget
    exact h.tracked key e' hget'
  · rw [hcall]
    exact h.put key e
  · rw [hswaps] at hc
    cases hc

/-- **The backend is bounded**: after every sequence of calls, with any keys, times to live and
readings of the clock, no more entries are stored than the cap allows, as long as no swap creates an
entry. -/
theorem stored_within_cap (m : ℕ) (cs : List BackendCall)
    (hswaps : (with_max_entries m).ever swaps_in cs = false) :
    ((with_max_entries m).run cs).store.len ≤ m := by
  have hrun : ∀ (cs : List BackendCall) (b : InMemoryBackend), b.Bounded →
      b.ever swaps_in cs = false → (b.run cs).Bounded ∧ (b.run cs).max_entries = b.max_entries := by
    intro cs
    induction cs with
    | nil => exact fun b h _ => ⟨h, rfl⟩
    | cons c cs ih =>
      intro b h hswaps
      obtain ⟨hc, hcs⟩ := Bool.or_eq_false_iff.mp hswaps
      obtain ⟨hbounded, hmax⟩ := ih _ (h.call hc) hcs
      exact ⟨hbounded, hmax.trans (call_max_entries b c)⟩
  have hempty : (with_max_entries m).Bounded := by
    refine ⟨fun key e hget => ?_, Nat.zero_le _⟩
    rw [with_max_entries, get_empty] at hget
    cases hget
  obtain ⟨hbounded, hmax⟩ := hrun cs _ hempty hswaps
  exact hbounded.len_le.trans_eq hmax

theorem stored_within_cap_sample :
    let cs := [BackendOp.set (ascii "a") [1] none, .incr (ascii "b") 5].map (⟨·, .at 0⟩)
    (with_max_entries 1).ever swaps_in cs = false ∧
      ((with_max_entries 1).run cs).store.len ≤ 1 := by
  intro cs
  have hswaps : (with_max_entries 1).ever swaps_in cs = false := by decide +kernel
  exact ⟨hswaps, stored_within_cap 1 cs hswaps⟩

/-- **Past the cap by swaps**: two keys are created by swaps in a backend for one entry. -/
theorem swapped_past_cap :
    let cs := [BackendOp.compare_and_swap (ascii "a") none [1] none,
      .compare_and_swap (ascii "b") none [1] none].map (⟨·, .at 0⟩)
    ((with_max_entries 1).run cs).store.len = 2 := by
  decide +kernel

end Cap

/-! ## The length of the queue -/

section Queue

/-- The call queues a key that is still in the queue from an earlier entry. -/
def requeues (b : InMemoryBackend) (c : BackendCall) : Bool :=
  c.op.queued.any fun key => !b.store.contains key && b.order.contains key

theorem compacted_nodup (hnodup : b.order.Nodup) : b.compacted.order.Nodup := by
  unfold compacted
  split_ifs
  · exact hnodup.filter _
  · exact hnodup

/-- A queue that holds no key twice is compacted to at most the stored keys. -/
theorem length_compacted_le (hnodup : b.order.Nodup)
    (h : b.store.len ≤ b.max_entries ∨ b.order = []) :
    b.compacted.order.length ≤ 2 * b.max_entries := by
  unfold compacted compact_above
  split_ifs with hlong
  · have hkept : (b.order.filter b.store.contains).length ≤ b.store.len :=
      length_le_len (hnodup.filter _) fun key hkey =>
        Option.isSome_iff_exists.mp (List.mem_filter.mp hkey).2
    rcases h with hlen | hnil
    · show (b.order.filter b.store.contains).length ≤ 2 * b.max_entries
      omega
    · rw [hnil] at hlong
      exact absurd hlong (Nat.not_lt_zero _)
  · omega

theorem evict_loop_order (m : ℕ) (store : Table Text BackendEntry) (order : List Text) :
    (evict_loop m store order).2 <:+ order ∧
      ((evict_loop m store order).1.len ≤ m ∨ (evict_loop m store order).2 = []) := by
  induction order generalizing store with
  | nil => exact ⟨List.suffix_rfl, .inr rfl⟩
  | cons key order ih =>
    unfold evict_loop
    split_ifs with hover
    · obtain ⟨hsuffix, hlen⟩ := ih (store.remove key)
      exact ⟨hsuffix.trans (List.suffix_cons key order), hlen⟩
    · exact ⟨List.suffix_rfl, .inl (not_lt.mp hover)⟩

theorem track_new_key_queue {key : Text} (hnodup : (b.order ++ [key]).Nodup) :
    (b.track_new_key key).order.Nodup ∧
      (b.track_new_key key).order.length ≤ 2 * b.max_entries := by
  have hcompacted :
      ({ b with order := b.order ++ [key] } : InMemoryBackend).compacted.order.Nodup :=
    compacted_nodup hnodup
  unfold track_new_key
  simp only [compacted_store, compacted_max_entries]
  split_ifs with hover
  · obtain ⟨hsuffix, hlen⟩ := evict_loop_order b.max_entries b.store
      ({ b with order := b.order ++ [key] } : InMemoryBackend).compacted.order
    have hleft := hcompacted.sublist hsuffix.sublist
    simp only [evict_over_cap, compacted_store, compacted_max_entries]
    exact ⟨compacted_nodup hleft, length_compacted_le hleft hlen⟩
  · exact ⟨hcompacted, length_compacted_le hnodup (.inl (not_lt.mp hover))⟩

/-- **One call**: the queue stays as it is, or a key is tracked that it does not hold. -/
theorem call_queue {c : BackendCall} (hc : b.requeues c = false)
    (h : b.order.Nodup ∧ b.order.length ≤ 2 * b.max_entries) :
    (b.call c).1.order.Nodup ∧ (b.call c).1.order.length ≤ 2 * b.max_entries := by
  obtain ⟨store, hcall, -⟩ | ⟨key, e, hkey, hcall⟩ | ⟨-, key, e, -, hcall⟩ := call_cases b c
  · rw [hcall]
    exact h
  · rw [hcall]
    unfold put
    simp only
    split_ifs with hstored
    · exact h
    · have hfresh : key ∉ b.order := by simpa [requeues, hkey, hstored] using hc
      exact track_new_key_queue (List.nodup_append.mpr ⟨h.1, by simp, by
        rintro k hk _ hk' rfl
        exact hfresh (List.mem_singleton.mp hk' ▸ hk)⟩)
  · rw [hcall]
    exact h

/-- **The queue is bounded** after every sequence of calls, swaps that create entries included, as
long as no call queues a key that the queue still holds. -/
theorem queue_within_bound (m : ℕ) (cs : List BackendCall)
    (hrequeues : (with_max_entries m).ever requeues cs = false) :
    ((with_max_entries m).run cs).order.length ≤ 2 * m := by
  have hrun : ∀ (cs : List BackendCall) (b : InMemoryBackend),
      b.order.Nodup ∧ b.order.length ≤ 2 * b.max_entries → b.ever requeues cs = false →
      (b.run cs).order.length ≤ 2 * b.max_entries := by
    intro cs
    induction cs with
    | nil => exact fun b h _ => h.2
    | cons c cs ih =>
      intro b h hrequeues
      obtain ⟨hc, hcs⟩ := Bool.or_eq_false_iff.mp hrequeues
      have hcall := call_queue hc h
      rw [← call_max_entries b c] at hcall ⊢
      exact ih _ hcall hcs
  exact hrun cs _ ⟨List.nodup_nil, Nat.zero_le _⟩ hrequeues

theorem queue_within_bound_sample :
    let cs := [BackendOp.set (ascii "a") [1] none, .delete (ascii "a"),
      .set (ascii "b") [1] none].map (⟨·, .at 0⟩)
    (with_max_entries 1).ever requeues cs = false ∧
      ((with_max_entries 1).run cs).order.length ≤ 2 * 1 := by
  intro cs
  have hrequeues : (with_max_entries 1).ever requeues cs = false := by decide +kernel
  exact ⟨hrequeues, queue_within_bound 1 cs hrequeues⟩

/-- **One key fills the queue**: compaction keeps every occurrence of a key that is stored. -/
theorem requeued_past_bound :
    let again := [BackendOp.delete (ascii "a"), .set (ascii "a") [1] none].map
      fun op => (⟨op, .at 0⟩ : BackendCall)
    ((with_max_entries 1).run (again ++ again ++ again ++ again)).order.length = 4 := by
  decide +kernel

end Queue

end InMemoryBackend

end Saacp
