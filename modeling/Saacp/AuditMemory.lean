/-
**The window of recent entries in memory**, and `verify_chain`, which looks at nothing else.

Every shard keeps the entries it has sealed, up to a bound past which the oldest fifth goes. The
calls of any number of threads run on the same log; `initialize_chain` is a program like the others
and goes over the shards one lock scope at a time, emptying each window.

`Retained` is the invariant: on every shard the window chains from somewhere to the last hash. So
what is left of the verification is one comparison (`verify_chain_iff`). `initialize_chain` breaks
it, because it counts the records on file as events and retains none of them.
-/
import Saacp.AuditRestart
import Saacp.Errors

set_option autoImplicit false

open ByteCodec Atomic

namespace Saacp

open List

def AUDIT_MAX_IN_MEMORY_ENTRIES : ℕ := 100000
def AUDIT_PER_SHARD_MAX_IN_MEMORY : ℕ := AUDIT_MAX_IN_MEMORY_ENTRIES / AUDIT_SHARDS

def audit_wal_saturated : SAACPHardDrop :=
  ⟨.AuditSubsystemDegraded, "Audit WAL saturated — event dropped, backpressure applied."⟩

/-- `shard.entries` after an entry has been pushed: over the bound, the oldest fifth goes. -/
def retain_entry (entries : List AuditLogEntry) (entry : AuditLogEntry) : List AuditLogEntry :=
  if AUDIT_PER_SHARD_MAX_IN_MEMORY < (entries ++ [entry]).length then
    (entries ++ [entry]).drop (AUDIT_PER_SHARD_MAX_IN_MEMORY / 5)
  else entries ++ [entry]

structure MemoryRun (S : SerdeJson) where
  run : AuditRun S
  entries : ShardIdx → List AuditLogEntry

/-! ## Verification in memory -/

section

variable (H : Hashes) {S : SerdeJson} (key : List UInt8)

def verify_entries (S : SerdeJson) (idx : ShardIdx) : Text → List AuditLogEntry → Bool
  | _, [] => true
  | expected_prev_hash, entry :: entries =>
    if entry.record.shard_id ≠ some (UInt16.ofNat idx) then false
    else if entry.record.prev_hash ≠ expected_prev_hash then false
    else if constant_time_eq_hex
        ((CanonicalAuditRecord.from_record entry.record).chain_hash H S key)
        entry.chain_hash then
      verify_entries S idx entry.chain_hash entries
    else false

/-- One shard. The walk is seeded from the first entry that is still there. -/
def verify_shard (S : SerdeJson) (idx : ShardIdx) (entries : List AuditLogEntry) : Bool :=
  match entries with
  | [] => true
  | first :: rest =>
    verify_entries H key S idx first.record.prev_hash (first :: rest)

namespace MemoryRun

def total_retained (s : MemoryRun S) : ℕ :=
  ((List.finRange AUDIT_SHARDS).map fun i => (s.entries i).length).sum

/-- `verify_chain`. A sentinel that cannot be read is no sentinel. -/
def verify_chain (s : MemoryRun S) : Bool :=
  if (List.finRange AUDIT_SHARDS).all fun i =>
      verify_shard H key S i (s.entries i) then
    if s.total_retained = 0 then
      if s.run.log.global_seq ≠ 0 then false
      else !(s.run.log.disk.sentinel.any fun sentinel_count => 0 < sentinel_count)
    else
      !(s.run.log.disk.sentinel.any fun sentinel_count => s.run.log.global_seq < sentinel_count)
  else false

end MemoryRun

/-! ## The other calls -/

inductive ChainSection (S : SerdeJson) : Type → Type
  | try_send (entry : AuditLogEntry) (event_count : UInt64) : ChainSection S Bool
  | load_dropped : ChainSection S UInt64
  | verify_disk : ChainSection S Bool
  | read_to_string : ChainSection S (Option (List S.Line))
  | store_global_seq (n : UInt64) : ChainSection S Unit
  | store_anchor_epoch (n : UInt64) : ChainSection S Unit
  | restore (i : ShardIdx) (hash : Text) (shard_seq : UInt64) : ChainSection S Unit

inductive MemorySection (S : SerdeJson) (β : Type)
  | audit (act : AuditSection β)
  | chain (act : ChainSection S β)

/-- `try_append_event`: as `append_event_inner`, with the answer of the queue returned. -/
def try_append_event (S : SerdeJson) (shard_idx : ShardIdx) (ev : AuditEvent) :
    Prog (MemorySection S) (Result Unit) :=
  .step (.audit .load_epoch) fun anchor_epoch =>
  .step (.audit .reserve) fun seq =>
  .step (.audit (.seal shard_idx ev anchor_epoch seq)) fun entry =>
  .step (.audit (.publish shard_idx entry.chain_hash)) fun _ =>
  .step (.audit .load_count) fun event_count =>
  .step (.chain (.try_send entry event_count)) fun sent =>
  .ret (if sent then .ok () else .error audit_wal_saturated)

/-- `acknowledge_dropped_audits`, without the floor of the health, which no call here reads. -/
def acknowledge_dropped_audits (S : SerdeJson) : Prog (MemorySection S) UInt64 :=
  .step (.chain .load_dropped) fun dropped => .ret dropped

/-- The counters are stored, and then one shard after the other is restored. -/
def restore_chain (S : SerdeJson) (global_seq anchor_epoch : UInt64)
    (heads : ShardIdx → Text × UInt64) : Prog (MemorySection S) (List Unit) :=
  .step (.chain (.store_global_seq global_seq)) fun _ =>
  .step (.chain (.store_anchor_epoch anchor_epoch)) fun _ =>
  Prog.all ((List.finRange AUDIT_SHARDS).map fun i =>
    .step (.chain (.restore i (heads i).1 (heads i).2)) fun _ =>
    .step (.audit (.publish i (heads i).1)) fun _ => .ret ())

def initialize_chain (S : SerdeJson) : Prog (MemorySection S) (Except String Unit) :=
  .step (.chain .verify_disk) fun verified =>
  if verified then
    .step (.chain .read_to_string) fun content =>
    match content with
    | none => .ret (.ok ())
    | some content =>
      (restore_chain S (scan S content).record_count (scan S content).max_anchor_epoch
        ((scan S content).restored H)).map fun _ => .ok ()
  else
    (restore_chain S 0 0 fun i => (shard_genesis_hash H i, 0)).map fun _ =>
      .error "audit chain integrity verification failed on load — chain reset to genesis"

inductive MemoryCall
  | initialize_chain
  | append_event (ev : AuditEvent)
  | try_append_event (ev : AuditEvent)
  | acknowledge_dropped_audits
  | flush

def MemoryCall.prog (S : SerdeJson) (shard_idx : ShardIdx) :
    MemoryCall → Prog (MemorySection S) Unit
  | initialize_chain => (Saacp.initialize_chain H S).map fun _ => ()
  | append_event ev => (append_event_inner shard_idx ev).embed .audit
  | try_append_event ev => (Saacp.try_append_event S shard_idx ev).map fun _ => ()
  | acknowledge_dropped_audits => (Saacp.acknowledge_dropped_audits S).map fun _ => ()
  | flush => .step (.audit .send_flush) fun _ => .ret ()

structure MemoryCaller where
  shard_idx : ShardIdx
  calls : List MemoryCall

def MemoryCaller.prog (S : SerdeJson) (c : MemoryCaller) : Prog (MemorySection S) (List Unit) :=
  Prog.all (c.calls.map (MemoryCall.prog H S c.shard_idx))

namespace MemoryRun

def retain_sealed {β : Type} (act : AuditSection β) (answer : β)
    (entries : ShardIdx → List AuditLogEntry) : ShardIdx → List AuditLogEntry :=
  match act with
  | .seal shard_idx _ _ _ =>
    Function.update entries shard_idx (retain_entry (entries shard_idx) answer)
  | _ => entries

def with_log (s : MemoryRun S) (log : ImmutableAuditLog S) : MemoryRun S :=
  { s with run := { s.run with log } }

def exec_chain (tid : ℕ) {β : Type} (act : ChainSection S β) (s : MemoryRun S) : MemoryRun S × β :=
  match act with
  | .try_send entry event_count =>
    ({ s with
        run :=
          { s.run with
            log := s.run.log.enqueue_wal_line entry event_count
            unsent := s.run.unsent.filter fun u => u.1 != tid } },
      s.run.log.queue.length < AUDIT_WAL_QUEUE_CAPACITY)
  | .load_dropped => (s, s.run.log.dropped_audits)
  | .verify_disk => (s, verify_chain_disk H S key s.run.log.disk s.run.log.global_seq)
  | .read_to_string => (s, s.run.log.disk.log)
  | .store_global_seq n => (s.with_log { s.run.log with global_seq := n }, ())
  | .store_anchor_epoch n => (s.with_log { s.run.log with anchor_epoch := n }, ())
  | .restore i hash shard_seq =>
    ({ s.with_log
          { s.run.log with shards := Function.update s.run.log.shards i ⟨hash, shard_seq⟩ } with
        entries := Function.update s.entries i [] }, ())

def exec (tid : ℕ) {β : Type} (act : MemorySection S β) (now : F64) (s : MemoryRun S) :
    MemoryRun S × β :=
  match act with
  | .audit act =>
    (⟨(s.run.exec H key tid act now).1,
      retain_sealed act (s.run.exec H key tid act now).2 s.entries⟩,
      (s.run.exec H key tid act now).2)
  | .chain act => s.exec_chain H key tid act

end MemoryRun

/-- A step of the worker, or that a log without a file throws a message away. -/
inductive WorkerStep
  | write (timer : Bool) (now : F64)
  | discard

def MemoryRun.work (d : WorkerStep) (s : MemoryRun S) : MemoryRun S :=
  match d with
  | .write timer now => { s with run := s.run.work H (timer, now) }
  | .discard => s.with_log { s.run.log with queue := s.run.log.queue.tail }

def memory_sections : Semantics (MemorySection S) F64 (MemoryRun S) where
  exec tid _ act now s := s.exec H key tid act now

def MemoryRun.start (disk : Disk S) : MemoryRun S := ⟨.start (.new H S disk) false, fun _ => []⟩

def memory_run (disk : Disk S) (callers : List MemoryCaller) (ticks : List (Tick F64 WorkerStep)) :
    Pool (MemorySection S) (MemoryRun S) (List Unit) :=
  (Pool.mk (callers.map (MemoryCaller.prog H S)) (MemoryRun.start H disk)).run
    (memory_sections H key) (MemoryRun.work H) ticks

end

variable {H : Hashes} {S : SerdeJson} {key : List UInt8}

open MemoryRun

open Function Prog ImmutableAuditLog Pool

theorem restore_shards_run (heads : ShardIdx → Text × UInt64) (l : List ShardIdx)
    (inp : ℕ → F64) (s : MemoryRun S) :
    ((Prog.all (l.map fun i =>
        (.step (.chain (.restore i (heads i).1 (heads i).2)) fun _ =>
          .step (.audit (.publish i (heads i).1)) fun _ => .ret () :
          Prog (MemorySection S) Unit))).run (memory_sections H key) inp s).2.1 =
      ⟨{ s.run with
          log := { s.run.log with
            shards := fun i => if i ∈ l then ⟨(heads i).1, (heads i).2⟩ else s.run.log.shards i
            shard_heads := fun i => if i ∈ l then (heads i).1 else s.run.log.shard_heads i } },
        fun i => if i ∈ l then [] else s.entries i⟩ := by
  induction l generalizing inp s with
  | nil => simp [Prog.all]
  | cons j l ih =>
    simp only [map_cons, Prog.all, Prog.run_bind, Prog.run_step, Prog.run_ret, ih]
    simp only [memory_sections, exec, exec_chain, with_log,
      AuditRun.exec, retain_sealed, mem_cons, update_apply]
    congr 4
    all_goals
      funext i
      by_cases hj : i = j
      · simp [hj]
      · simp [hj]

theorem restore_chain_run (global_seq anchor_epoch : UInt64) (heads : ShardIdx → Text × UInt64)
    (inp : ℕ → F64) (s : MemoryRun S) :
    ((restore_chain S global_seq anchor_epoch heads).run (memory_sections H key) inp s).2.1 =
      ⟨{ s.run with
          log := { s.run.log with
            global_seq
            anchor_epoch
            shards := fun i => ⟨(heads i).1, (heads i).2⟩
            shard_heads := fun i => (heads i).1 } },
        fun _ => []⟩ := by
  simp only [restore_chain, Prog.run_step, restore_shards_run, mem_finRange, if_true]
  rfl

theorem initialize_chain_run (inp : ℕ → F64) (s : MemoryRun S) :
    ((initialize_chain H S).run (memory_sections H key) inp s).2.1.run.log =
        (s.run.log.initialize_chain H S key).1 ∧
      ((initialize_chain H S).run (memory_sections H key) inp s).2.2 =
        (s.run.log.initialize_chain H S key).2 := by
  have hverify : ((memory_sections H key).exec 0 (.chain .verify_disk) (inp 0) s) =
      (s, verify_chain_disk H S key s.run.log.disk s.run.log.global_seq) := rfl
  have hread : ((memory_sections H key).exec 0 (.chain .read_to_string) (inp 1) s) =
      (s, s.run.log.disk.log) := rfl
  unfold initialize_chain ImmutableAuditLog.initialize_chain
  rw [run_step, hverify]
  by_cases hok : verify_chain_disk H S key s.run.log.disk s.run.log.global_seq = true
  · simp only [hok, if_true, run_step]
    rw [hread]
    cases s.run.log.disk.log with
    | none => exact ⟨rfl, rfl⟩
    | some content =>
      rw [run_map, restore_chain_run]
      exact ⟨rfl, rfl⟩
  · simp only [hok, Bool.false_eq_true, if_false]
    rw [run_map, restore_chain_run]
    exact ⟨rfl, rfl⟩

/-! ## Windows -/

variable {i : ShardIdx} {h h' : Text} {es : List AuditLogEntry}

theorem Linked.drop (hlink : Linked H S key i h es h') (n : ℕ) :
    ∃ k, Linked H S key i k (es.drop n) h' := by
  induction n generalizing h es with
  | zero => exact ⟨h, hlink⟩
  | succ n ih =>
    cases es with
    | nil => exact ⟨h, hlink⟩
    | cons e es => exact ih hlink.2.2

theorem Linked.retain_entry {e : AuditLogEntry} (hlink : Linked H S key i h es h')
    (he : e.Sealed H S key i) (hprev : e.record.prev_hash = h') :
    ∃ k, Linked H S key i k (retain_entry es e) e.chain_hash := by
  have hpushed := hlink.concat he hprev
  unfold Saacp.retain_entry
  split
  · exact hpushed.drop _
  · exact ⟨h, hpushed⟩

theorem retain_entry_ne_nil (es : List AuditLogEntry) (e : AuditLogEntry) :
    retain_entry es e ≠ [] := by
  unfold retain_entry
  split
  · rename_i hover
    intro hnil
    have hlen := drop_eq_nil_iff.mp hnil
    have hfifth : AUDIT_PER_SHARD_MAX_IN_MEMORY / 5 ≤ AUDIT_PER_SHARD_MAX_IN_MEMORY := by decide
    omega
  · exact concat_ne_nil e es

theorem verify_entries_of_linked (hlink : Linked H S key i h es h') :
    verify_entries H key S i h es = true := by
  induction es generalizing h with
  | nil => rfl
  | cons e es ih =>
    obtain ⟨he, hprev, hrest⟩ := hlink
    have hhash : constant_time_eq_hex
        ((CanonicalAuditRecord.from_record e.record).chain_hash H S key)
        e.chain_hash = true := by
      rw [he.hash]
      exact constant_time_eq_hex_self _
    rw [verify_entries, if_neg (not_not.mpr he.shard), if_neg (not_not.mpr hprev), if_pos hhash]
    exact ih hrest

theorem verify_shard_of_linked (hlink : Linked H S key i h es h') :
    verify_shard H key S i es = true := by
  cases es with
  | nil => rfl
  | cons e es =>
    show verify_entries H key S i e.record.prev_hash (e :: es) = true
    rw [hlink.2.1]
    exact verify_entries_of_linked hlink

variable (disk : Disk S) (callers : List MemoryCaller) (ticks : List (Tick F64 WorkerStep))

namespace MemoryRun

/-- **The invariant.** On every shard the window chains to the last hash. -/
def Retained (H : Hashes) (issuer_secret : List UInt8) (s : MemoryRun S) : Prop :=
  ∀ i, ∃ h, Linked H S issuer_secret i h (s.entries i) (s.run.log.shards i).last_hash

/-- Some entry is retained, or no event has been counted. -/
def Shown (s : MemoryRun S) : Prop := (∃ i, s.entries i ≠ []) ∨ s.run.log.global_seq = 0

theorem total_retained_eq_zero (s : MemoryRun S) :
    s.total_retained = 0 ↔ ∀ i, s.entries i = [] := by
  unfold total_retained
  rw [List.sum_eq_zero_iff_forall_eq_nat]
  simp

variable {s s' : MemoryRun S}

/-- With the invariant, what is left is whether an entry is retained or no event was counted. -/
theorem verify_chain_iff (h : s.Retained H key)
    (hsentinel : ∀ n, s.run.log.disk.sentinel = some n → n ≤ s.run.log.global_seq) :
    s.verify_chain H key = true ↔ s.Shown := by
  have hall : ((finRange AUDIT_SHARDS).all fun i =>
      verify_shard H key S i (s.entries i)) = true := by
    rw [all_eq_true]
    intro i _
    obtain ⟨_, hlink⟩ := h i
    exact verify_shard_of_linked hlink
  have hlow : (s.run.log.disk.sentinel.any fun n => decide (s.run.log.global_seq < n)) = false := by
    cases hn : s.run.log.disk.sentinel with
    | none => rfl
    | some n => simpa using hsentinel n hn
  unfold verify_chain Shown
  rw [if_pos hall]
  by_cases hempty : s.total_retained = 0
  · have hnone : ¬ ∃ i, s.entries i ≠ [] := by
      rintro ⟨i, hi⟩
      exact hi (s.total_retained_eq_zero.mp hempty i)
    rw [if_pos hempty]
    by_cases hzero : s.run.log.global_seq = 0
    · rw [hzero] at hlow
      rw [if_neg (not_not.mpr hzero), hlow]
      exact ⟨fun _ => .inr hzero, fun _ => rfl⟩
    · rw [if_pos hzero]
      constructor
      · exact nofun
      · rintro (hsome | hcount)
        · exact absurd hsome hnone
        · exact absurd hcount hzero
  · rw [if_neg hempty, hlow]
    refine ⟨fun _ => .inl ?_, fun _ => rfl⟩
    rw [total_retained_eq_zero, not_forall] at hempty
    exact hempty

/-! ## What a section does to the windows -/

/-- Nothing the verification depends on has changed, and no number is reserved or sealed. -/
structure Same (s s' : MemoryRun S) : Prop where
  entries : s'.entries = s.entries
  shards : s'.run.log.shards = s.run.log.shards
  global_seq : s'.run.log.global_seq = s.run.log.global_seq
  reserved : s'.run.reserved = s.run.reserved

theorem same_enqueue (log : ImmutableAuditLog S) (entry : AuditLogEntry) (event_count : UInt64) :
    (log.enqueue_wal_line entry event_count).shards = log.shards ∧
      (log.enqueue_wal_line entry event_count).global_seq = log.global_seq := by
  unfold enqueue_wal_line
  split <;> exact ⟨rfl, rfl⟩

theorem same_work (d : WorkerStep) (s : MemoryRun S) : Same s (s.work H d) := by
  cases d with
  | write timer now =>
    obtain ⟨hshards, hcount⟩ := s.run.log.work_chains (H := H) timer now
    exact ⟨rfl, hshards, hcount, rfl⟩
  | discard => exact ⟨rfl, rfl, rfl, rfl⟩

theorem Retained.of_eq (h : s.Retained H key) (hentries : s'.entries = s.entries)
    (hshards : s'.run.log.shards = s.run.log.shards) : s'.Retained H key := by
  intro i
  rw [hentries, hshards]
  exact h i

theorem Retained.exec (h : s.Retained H key) (tid : ℕ) {β : Type} (act : MemorySection S β)
    (now : F64) : (s.exec H key tid act now).1.Retained H key := by
  cases act with
  | audit act =>
    cases act with
    | load_epoch | reserve | publish | load_count | send_flush => exact h
    | send entry event_count => exact h.of_eq rfl (same_enqueue _ entry event_count).1
    | «seal» shard_idx ev epoch seq =>
      intro i
      simp only [MemoryRun.exec, AuditRun.exec, retain_sealed, advance]
      by_cases hi : i = shard_idx
      · subst hi
        rw [update_self, update_self]
        obtain ⟨_, hlink⟩ := h i
        exact hlink.retain_entry (sealed_entry_sealed H key s.run.log i ev epoch seq now) rfl
      · rw [update_of_ne hi, update_of_ne hi]
        exact h i
  | chain act =>
    cases act with
    | try_send entry event_count => exact h.of_eq rfl (same_enqueue _ entry event_count).1
    | load_dropped | verify_disk | read_to_string | store_global_seq | store_anchor_epoch => exact h
    | restore shard_idx hash shard_seq =>
      intro i
      simp only [MemoryRun.exec, exec_chain, with_log]
      by_cases hi : i = shard_idx
      · subst hi
        rw [update_self, update_self]
        exact ⟨hash, rfl⟩
      · rw [update_of_ne hi, update_of_ne hi]
        exact h i

theorem retained_run : (memory_run H key disk callers ticks).state.Retained H key := by
  refine run_inv ?_ ?_ ?_ ticks (respects_any _ _ _ ticks)
  · intro tid β act now s _ h
    exact h.exec tid act now
  · intro d s _ h
    obtain ⟨hentries, hshards, -, -⟩ := same_work d s
    exact h.of_eq hentries hshards
  · intro i
    exact ⟨_, rfl⟩

/-! ## Appenders only -/

/-- Of `n` threads that do not initialise: a number handed out is reserved, or an entry is retained.
-/
structure Settled (H : Hashes) (issuer_secret : List UInt8) (n : ℕ) (s : MemoryRun S) : Prop where
  retained : s.Retained H issuer_secret
  owners : ∀ j ∈ s.run.reserved, j < n
  shown : s.run.reserved = [] → s.Shown

def append_protocol (H : Hashes) (S : SerdeJson) (issuer_secret : List UInt8) (n : ℕ) :
    Protocol (MemoryRun S) where
  inv := Settled H issuer_secret n
  rely i s s' := s'.run.reserved.count i = s.run.reserved.count i
  rely_refl _ _ := rfl
  rely_trans h h' := h'.trans h

def Holds (tid m : ℕ) (s : MemoryRun S) : Prop := s.run.reserved.count tid = m

theorem stable_holds (n tid m : ℕ) : (append_protocol H S key n).Stable tid (Holds tid m) :=
  fun _ _ hrely hm => hrely.trans hm

theorem Same.settled {n : ℕ} (hsame : Same s s') (h : Settled H key n s) : Settled H key n s' := by
  refine ⟨h.retained.of_eq hsame.entries hsame.shards, ?_, ?_⟩
  · rw [hsame.reserved]
    exact h.owners
  · rw [hsame.reserved, Shown, hsame.entries, hsame.global_seq]
    exact h.shown

theorem Same.rely {n : ℕ} (hsame : Same s s') (j : ℕ) : (append_protocol H S key n).rely j s s' :=
  congrArg (count j) hsame.reserved

section

variable {n tid : ℕ} {α : Type}

def KeepsShown (H : Hashes) (issuer_secret : List UInt8) (n tid : ℕ)
    (p : Prog (MemorySection S) α) (s : MemoryRun S) : Prop :=
  p.Safe (memory_sections H issuer_secret)
    (.any : Condition (MemorySection S) F64 (MemoryRun S) WorkerStep)
    (append_protocol H S issuer_secret n) tid (fun _ => Holds tid 0) s

variable {s : MemoryRun S}

theorem keepsShown_ret {a : α} (hs : Holds tid 0 s) : KeepsShown H key n tid (.ret a) s :=
  Prog.Safe.ret_of_stable (stable_holds n tid 0) (fun _ h => h) hs

theorem keepsShown_step {γ : Type} {act : MemorySection S γ} {k : γ → Prog (MemorySection S) α}
    {m : ℕ} (hsame : ∀ now (s : MemoryRun S), Same s (s.exec H key tid act now).1)
    (hk : ∀ b s', Holds tid m s' → KeepsShown H key n tid (k b) s') (hs : Holds tid m s) :
    KeepsShown H key n tid (.step act k) s := by
  refine Prog.Safe.step_of_stable (stable_holds n tid m) ?_ hk hs
  intro s' now hinv _
  exact ⟨(hsame now s').settled hinv, (hsame now s').rely⟩

theorem append_keepsShown (htid : tid < n) (i : ShardIdx) (ev : AuditEvent)
    {k : AuditLogEntry → UInt64 → Prog (MemorySection S) α}
    (hk : ∀ entry event_count s', Holds tid 0 s' → KeepsShown H key n tid (k entry event_count) s')
    (hs : Holds tid 0 s) :
    KeepsShown H key n tid (.step (.audit .load_epoch) fun epoch =>
        .step (.audit .reserve) fun seq =>
        .step (.audit (.seal i ev epoch seq)) fun entry =>
        .step (.audit (.publish i entry.chain_hash)) fun _ =>
        .step (.audit .load_count) fun event_count => k entry event_count) s := by
  refine keepsShown_step (fun _ _ => ⟨rfl, rfl, rfl, rfl⟩) ?_ hs
  intro epoch s₁ hs₁
  refine Prog.Safe.step_to (fun _ => Holds tid 1) (stable_holds n tid 0) ?_ ?_ hs₁
  · intro s' now hinv hnone _
    refine ⟨⟨hinv.retained, ?_, nofun⟩, ?_, ?_⟩
    · exact forall_mem_cons.mpr ⟨htid, hinv.owners⟩
    · intro j hj
      exact count_cons_of_ne (Ne.symm hj)
    · show (tid :: s'.run.reserved).count tid = 1
      rw [count_cons_self, hnone]
  intro seq s₂ hs₂
  refine Prog.Safe.step_to (fun _ => Holds tid 0) (stable_holds n tid 1) ?_ ?_ hs₂
  · intro s' now hinv hone _
    refine ⟨⟨hinv.retained.exec tid _ now, ?_, fun _ => .inl ⟨i, ?_⟩⟩, ?_, ?_⟩
    · intro j hj
      exact hinv.owners j (mem_of_mem_erase hj)
    · simp only [memory_sections, exec, retain_sealed, update_self]
      exact retain_entry_ne_nil _ _
    · intro j hj
      exact count_erase_of_ne hj
    · show (s'.run.reserved.erase tid).count tid = 0
      rw [count_erase_self, hone]
  intro entry s₃ hs₃
  refine keepsShown_step (fun _ _ => ⟨rfl, rfl, rfl, rfl⟩) ?_ hs₃
  intro _ s₄ hs₄
  refine keepsShown_step (fun _ _ => ⟨rfl, rfl, rfl, rfl⟩) ?_ hs₄
  exact hk entry

theorem call_keepsShown (htid : tid < n) (i : ShardIdx) {call : MemoryCall}
    (hcall : call ≠ .initialize_chain) (hs : Holds tid 0 s) :
    KeepsShown H key n tid (call.prog H S i) s := by
  cases call with
  | initialize_chain => exact absurd rfl hcall
  | append_event ev | try_append_event ev =>
    refine append_keepsShown htid i ev ?_ hs
    intro entry event_count s' hs'
    refine keepsShown_step ?_ (fun _ _ => keepsShown_ret) hs'
    intro now s''
    exact ⟨rfl, (same_enqueue _ entry event_count).1, (same_enqueue _ entry event_count).2, rfl⟩
  | acknowledge_dropped_audits | flush =>
    exact keepsShown_step (fun _ _ => ⟨rfl, rfl, rfl, rfl⟩) (fun _ _ => keepsShown_ret) hs

theorem caller_keepsShown (htid : tid < n) {c : MemoryCaller} (hcalls : .initialize_chain ∉ c.calls)
    (hs : Holds tid 0 s) : KeepsShown H key n tid (c.prog H S) s := by
  obtain ⟨i, calls⟩ := c
  simp only [MemoryCaller.prog]
  induction calls generalizing s with
  | nil => exact keepsShown_ret hs
  | cons call calls ih =>
    obtain ⟨hcall, hrest⟩ := not_or.mp (mt mem_cons.mpr hcalls)
    refine (call_keepsShown htid i (Ne.symm hcall) hs).bind fun _ t _ ht => ?_
    refine (ih ht hrest).bind fun _ t' _ ht' => ?_
    exact keepsShown_ret ht'

end

theorem shown_of_returned (hcalls : ∀ c ∈ callers, .initialize_chain ∉ c.calls)
    (hreturned : (memory_run H key disk callers ticks).returned = true) :
    (memory_run H key disk callers ticks).state.Shown := by
  have hstart : (Pool.mk (callers.map (MemoryCaller.prog H S)) (start H disk)).Safe
      (memory_sections H key)
      (.any : Condition (MemorySection S) F64 (MemoryRun S) WorkerStep)
      (append_protocol H S key callers.length) (fun i _ => Holds i 0) := by
    refine ⟨⟨fun i => ⟨_, rfl⟩, nofun, fun _ => .inr rfl⟩, ?_⟩
    intro i q hq
    rw [List.getElem?_map] at hq
    obtain ⟨c, hc, rfl⟩ := Option.map_eq_some_iff.mp hq
    obtain ⟨hi, rfl⟩ := List.getElem?_eq_some_iff.mp hc
    exact caller_keepsShown hi (hcalls _ (getElem_mem hi)) rfl
  have hdaemon : DaemonSafe (work H)
      (.any : Condition (MemorySection S) F64 (MemoryRun S) WorkerStep)
      (append_protocol H S key callers.length) :=
    fun d s hinv _ => ⟨(same_work d s).settled hinv, (same_work d s).rely⟩
  have hsafe := hstart.run hdaemon ticks (respects_any _ _ _ ticks)
  apply hsafe.inv.shown
  -- a reservation would belong to a thread, and every thread has returned without one
  refine eq_nil_iff_forall_not_mem.mpr ?_
  intro j hj
  have hlt : j < (memory_run H key disk callers ticks).threads.length := by
    rw [memory_run, length_threads_run, length_map]
    exact hsafe.inv.owners j hj
  obtain ⟨a, ha⟩ := ret_of_returned hreturned hlt
  have hnone : Holds j 0 (memory_run H key disk callers ticks).state := hsafe.post_of_ret ha
  exact absurd hj (count_eq_zero.mp hnone)

end MemoryRun

/-- **When the chain in memory verifies.** In every state of every run of any threads that
initialise the chain, append, acknowledge and flush, with a sentinel not above the number of
events, `verify_chain` returns true if and only if some entry is retained or no event has been
counted. After a run without `initialize_chain`, that is so whenever all calls have returned. -/
theorem memory_chain_verifies {p : Pool (MemorySection S) (MemoryRun S) (List Unit)}
    (hp : p = memory_run H key disk callers ticks)
    (hsentinel : ∀ n, p.state.run.log.disk.sentinel = some n → n ≤ p.state.run.log.global_seq) :
    (p.state.verify_chain H key = true ↔
        (∃ i, p.state.entries i ≠ []) ∨ p.state.run.log.global_seq = 0) ∧
      ((∀ c ∈ callers, .initialize_chain ∉ c.calls) → p.returned = true →
        p.state.verify_chain H key = true) := by
  subst hp
  have hiff := verify_chain_iff (retained_run disk callers ticks) hsentinel
  refine ⟨hiff, ?_⟩
  intro hcalls hreturned
  exact hiff.mpr (shown_of_returned disk callers ticks hcalls hreturned)

/-! ## Two threads, and one restart -/

/-- Two threads append on shards of their own, one in the middle of the other; then a flush. -/
def sampleTwoShards : Pool (MemorySection sampleJson) (MemoryRun sampleJson) (List Unit) :=
  let now := integral_f64 1700000000
  let ev : AuditEvent := ⟨ascii "agent-a", ascii "agent-b", ascii "sig", ascii "ping", ascii "tp"⟩
  memory_run sampleHashes sampleIssuerSecret .empty
    [⟨0, [.append_event ev]⟩, ⟨1, [.append_event ev, .flush]⟩]
    (List.replicate 3 (.thread 0 now) ++ List.replicate 6 (.thread 1 now) ++
      List.replicate 3 (.thread 0 now) ++ .thread 1 now ::
        List.replicate 6 (.daemon (.write false now)))

theorem memory_chain_verifies_sample :
    sampleTwoShards.state.run.log.disk.sentinel = some 2 ∧
      sampleTwoShards.state.verify_chain sampleHashes sampleIssuerSecret = true := by
  have hsentinel : sampleTwoShards.state.run.log.disk.sentinel = some 2 := by decide +kernel
  refine ⟨hsentinel, (memory_chain_verifies _ _ _ rfl ?_).2 (by simp) (by decide +kernel)⟩
  intro n hn
  obtain rfl := Option.some.inj (hsentinel.symm.trans hn)
  decide +kernel

def sampleOnceAppended : Disk sampleJson :=
  (samplePlain.run sampleHashes sampleIssuerSecret .empty).state.log.disk

def sampleInitialized : Pool (MemorySection sampleJson) (MemoryRun sampleJson) (List Unit) :=
  memory_run sampleHashes sampleIssuerSecret sampleOnceAppended [⟨0, [.initialize_chain]⟩]
    (List.replicate 36 (.thread 0 (integral_f64 1700000000)))

theorem initialized_chain_fails :
    ((ImmutableAuditLog.new sampleHashes sampleJson sampleOnceAppended).initialize_chain
        sampleHashes sampleJson sampleIssuerSecret).2.toBool = true ∧
      sampleInitialized.returned = true ∧
      sampleInitialized.state.run.log.disk.sentinel = some 1 ∧
      sampleInitialized.state.run.log.global_seq = 1 ∧
      sampleInitialized.state.verify_chain sampleHashes sampleIssuerSecret = false := by
  decide +kernel

end Saacp
