/-
**When an honest log verifies.** Lines are sent, and heads published, after the lock of the shard
has been released; the worker writes lines as it receives them and anchors over the heads it finds.

`Honest` is the invariant: the lines written so far replay to a walk whose heads are the written
ones, and on every shard the entries on their way continue the chain from there to the shard's last
hash. The sequence numbers handed out are counted along, because the sentinel is compared with the
number of records on file.
-/
import Saacp.AuditLog

set_option autoImplicit false

open ByteCodec Atomic

namespace Saacp

open AuditRun ImmutableAuditLog List Option WalMessage Prod

variable {H : Hashes} {S : SerdeJson} {key : List UInt8}

/-! ## Chains -/

def Linked (H : Hashes) (S : SerdeJson) (issuer_secret : List UInt8) (i : ShardIdx) :
    Text → List AuditLogEntry → Text → Prop
  | h, [], h' => h = h'
  | h, e :: es, h' => e.Sealed H S issuer_secret i ∧ e.record.prev_hash = h ∧
      Linked H S issuer_secret i e.chain_hash es h'

variable {e : AuditLogEntry} {tid n : ℕ} {s : AuditRun S} {event_count : UInt64}

theorem Linked.concat {i : ShardIdx} {h h' : Text} {es : List AuditLogEntry}
    (hlink : Linked H S key i h es h') (he : e.Sealed H S key i) (hprev : e.record.prev_hash = h') :
    Linked H S key i h (es ++ [e]) e.chain_hash := by
  induction es generalizing h with
  | nil =>
    obtain rfl : h = h' := hlink
    exact ⟨he, hprev, rfl⟩
  | cons e' es ih => exact ⟨hlink.1, hlink.2.1, ih hlink.2.2⟩

theorem AuditLogEntry.Sealed.shard_eq {i : ShardIdx}
    (he : e.Sealed H S key i) : AuditLogEntry.shard e = i := by
  have hi : i.val < 16 := i.isLt
  apply Fin.ext
  rw [AuditLogEntry.shard, he.shard, getD_some, UInt16.toNat_ofNat']
  show i.val % 2 ^ 16 % 16 = i.val
  omega

theorem sealed_entry_sealed (H : Hashes) (key : List UInt8) (log : ImmutableAuditLog S)
    (i : ShardIdx) (ev : AuditEvent) (epoch seq : UInt64) (now : F64) :
    (log.sealed_entry H key i ev epoch seq now).Sealed H S key i :=
  ⟨rfl, ⟨_, rfl⟩, ⟨_, rfl⟩, rfl⟩

/-! ## What is on its way -/

def WalMessage.entry? : WalMessage → Option AuditLogEntry
  | Entry entry _ => some entry
  | Flush => none

def WalMessage.count? : WalMessage → Option UInt64
  | Entry _ event_count => some event_count
  | Flush => none

def WorkerPhase.count? : WorkerPhase → Option UInt64
  | wrote event_count => some event_count
  | anchoring event_count _ => some event_count
  | _ => none

/-- Every event count that may still reach the sentinel, or is there. -/
def ImmutableAuditLog.counts (log : ImmutableAuditLog S) : List UInt64 :=
  log.worker.wal.pending_event_count :: (log.disk.sentinel.toList ++
    log.worker.phase.count?.toList ++ log.queue.filterMap WalMessage.count?)

def ImmutableAuditLog.lines (log : ImmutableAuditLog S) : List S.Line :=
  log.disk.log.getD [] ++ log.worker.wal.buffer

namespace AuditRun

/-- The entries sealed and not written, those in the queue first. -/
def inflight (s : AuditRun S) : List AuditLogEntry :=
  s.log.queue.filterMap WalMessage.entry? ++ s.unsent.map Prod.snd

def inflight_of (s : AuditRun S) (i : ShardIdx) : List AuditLogEntry :=
  s.inflight.filter fun e => e.shard = i

/-- The sequence numbers handed out: written, on their way, or reserved. -/
def total (s : AuditRun S) : ℕ :=
  record_lines S s.log.lines + s.inflight.length + s.reserved.length

/-- What thread `i` has under way: reservations, and entries not sent yet. -/
def mine (s : AuditRun S) (i : ℕ) : ℕ × List AuditLogEntry :=
  (s.reserved.count i, (s.unsent.filter fun u => u.1 == i).map Prod.snd)

end AuditRun

/-! ## The invariant -/

/-- The invariant of a run of `n` appenders. -/
structure Honest (H : Hashes) (S : SerdeJson) (issuer_secret : List UInt8) (n : ℕ)
    (s : AuditRun S) : Prop where
  /-- The lines replay to the written heads, and to the worker's root unless the file had
  anchors of its own. -/
  walk : ∃ w, replay H S issuer_secret s.log.lines = some w ∧ (∀ i, w.head H i = s.written i) ∧
    (s.anchored = false → w.expected_prev_root = s.log.worker.prev_root)
  /-- The entries on their way continue every shard from its written head to its last hash. -/
  chain : ∀ i, Linked H S issuer_secret i (s.written i) (s.inflight_of i)
    (s.log.shards i).last_hash
  count : s.log.global_seq.toNat ≤ s.total
  counts : ∀ m ∈ s.log.counts, m.toNat ≤ s.total
  /-- The heads the worker has read for an anchor are written ones. -/
  heads : ∀ event_count heads, s.log.worker.phase = .anchoring event_count heads →
    heads = (List.ofFn s.written).take heads.length ∧ (heads ≠ [] → s.anchored = false)
  owners : (∀ j ∈ s.reserved, j < n) ∧ ∀ u ∈ s.unsent, u.1 < n

/-- The others leave what a thread has under way alone, and the number of events only grows. -/
def audit_protocol (H : Hashes) (S : SerdeJson) (issuer_secret : List UInt8) (n : ℕ) :
    Protocol (AuditRun S) where
  inv := Honest H S issuer_secret n
  rely := fun i s s' => s'.mine i = s.mine i ∧ s.total ≤ s'.total
  rely_refl := fun _ _ => ⟨rfl, Nat.le_refl _⟩
  rely_trans := fun h h' => ⟨h'.1.trans h.1, h.2.trans h'.2⟩

/-- The entry of `tid` comes before all other unsent entries of its shard. -/
def AuditRun.foremost (s : AuditRun S) (tid : ℕ) (entry : AuditLogEntry) : Bool :=
  ((s.unsent.filter fun u => u.2.shard = entry.shard).head?.map Prod.fst) == some tid

/-- **The condition.** Nothing is dropped; with several appenders, lines are sent in the order they
were sealed on each shard; a head is read for an anchor only while it is the head written, on a file
without older anchors. -/
def in_order (n : ℕ) : Condition AuditSection F64 (AuditRun S) (Bool × F64) where
  section_ok tid _ act _ s :=
    match act with
    | .send entry _ => s.log.queue.length < AUDIT_WAL_QUEUE_CAPACITY ∧
        (n ≤ 1 ∨ s.foremost tid entry)
    | _ => True
  daemon_ok _ s :=
    match s.log.worker.phase with
    | .anchoring _ heads => ∀ hlt : heads.length < AUDIT_SHARDS,
        s.anchored = false ∧ s.log.shard_heads ⟨heads.length, hlt⟩ = s.written ⟨heads.length, hlt⟩
    | _ => True

instance (n tid : ℕ) {β : Type} (act : AuditSection β) (now : F64) (s : AuditRun S) :
    Decidable ((in_order n).section_ok tid act now s) :=
  match act with
  | .load_epoch | .reserve | .seal .. | .publish .. | .load_count | .send_flush => isTrue trivial
  | .send entry _ => inferInstanceAs (Decidable (s.log.queue.length < AUDIT_WAL_QUEUE_CAPACITY ∧
      (n ≤ 1 ∨ s.foremost tid entry)))

instance (n : ℕ) (d : Bool × F64) (s : AuditRun S) : Decidable ((in_order n).daemon_ok d s) :=
  match hphase : s.log.worker.phase with
  | .anchoring _ heads =>
    decidable_of_iff (∀ hlt : heads.length < AUDIT_SHARDS, s.anchored = false ∧
      s.log.shard_heads ⟨heads.length, hlt⟩ = s.written ⟨heads.length, hlt⟩)
      (by simp only [in_order, hphase])
  | .opening | .receiving | .wrote _ => isTrue (by simp only [in_order, hphase])

/-! ## The appenders -/

theorem split_unsent {l : List (ℕ × AuditLogEntry)}
    (h : (l.filter fun u => u.1 == tid).map snd = [e]) :
    ∃ l₁ l₂, l = l₁ ++ (tid, e) :: l₂ ∧ (l.filter fun u => u.1 != tid) = l₁ ++ l₂ ∧
      ∀ u ∈ l₁, u.1 ≠ tid := by
  obtain ⟨u, hu, rfl⟩ := map_eq_singleton_iff.mp h
  obtain ⟨l₁, l₂, rfl, hbefore, hown, hafter⟩ := filter_eq_cons_iff.mp hu
  obtain rfl : u.1 = tid := by simpa using hown
  refine ⟨l₁, l₂, rfl, ?_, fun v hv => by simpa using hbefore v hv⟩
  rw [filter_append, filter_cons_of_neg (by simp), filter_eq_self.mpr, filter_eq_self.mpr]
  · exact fun v hv => by simpa using filter_eq_nil_iff.mp hafter v hv
  · exact fun v hv => by simpa using hbefore v hv

variable (h : Honest H S key n s)
include h

theorem Honest.clear_before (hok : n ≤ 1 ∨ s.foremost tid e)
    {l₁ l₂ : List (ℕ × AuditLogEntry)} (hl : s.unsent = l₁ ++ (tid, e) :: l₂)
    (hne : ∀ u ∈ l₁, u.1 ≠ tid) : ∀ u ∈ l₁, u.2.shard ≠ e.shard := by
  intro u hu hshard
  have hmem : u ∈ s.unsent := by rw [hl]; exact mem_append_left _ hu
  rcases hok with hone | hfore
  · have hu0 := h.owners.2 u hmem
    have htid := h.owners.2 (tid, e) (by rw [hl]; simp)
    exact hne u hu (by simp only at htid; omega)
  · -- the head of the entries of the shard comes from `l₁`, and belongs to another thread
    rw [foremost, hl, filter_append] at hfore
    rcases hfilter : l₁.filter (fun u => u.2.shard = e.shard) with _ | ⟨v, vs⟩
    · have : u ∈ l₁.filter fun u => u.2.shard = e.shard := by simp [hu, hshard]
      rw [hfilter] at this
      exact absurd this not_mem_nil
    · have hv : v ∈ l₁ := by
        have : v ∈ l₁.filter fun u => u.2.shard = e.shard := by rw [hfilter]; simp
        exact (mem_filter.mp this).1
      rw [hfilter] at hfore
      exact hne v hv (by simpa using hfore)

theorem Honest.of_same_lines {log : ImmutableAuditLog S} (hlines : log.lines = s.log.lines)
    (hprev : log.worker.prev_root = s.log.worker.prev_root) (hshards : log.shards = s.log.shards)
    (hseq : log.global_seq = s.log.global_seq)
    (hqueue : log.queue.filterMap WalMessage.entry? = s.log.queue.filterMap WalMessage.entry?)
    (hcounts : ∀ m ∈ log.counts, m ∈ s.log.counts)
    (hheads : ∀ event_count heads, log.worker.phase = .anchoring event_count heads →
      heads = (List.ofFn s.written).take heads.length ∧ (heads ≠ [] → s.anchored = false)) :
    Honest H S key n { s with log } ∧ ({ s with log } : AuditRun S).total = s.total := by
  have hinflight : ({ s with log } : AuditRun S).inflight = s.inflight := by
    simp only [inflight, hqueue]
  have htotal : ({ s with log } : AuditRun S).total = s.total := by
    simp only [total, hinflight, hlines]
  refine ⟨?_, htotal⟩
  constructor
  · simp only [hlines, hprev]
    exact h.walk
  · intro i
    rw [inflight_of, hinflight]
    simp only [hshards]
    exact h.chain i
  · rw [htotal]
    exact hseq ▸ h.count
  · intro m hm
    rw [htotal]
    exact h.counts m (hcounts m hm)
  · exact hheads
  · exact h.owners

theorem Honest.reserve (htid : tid < n) (now : F64) :
    Honest H S key n (s.exec H key tid .reserve now).1 ∧
      (s.exec H key tid .reserve now).1.total = s.total + 1 := by
  have htotal : (s.exec H key tid .reserve now).1.total = s.total + 1 := rfl
  refine ⟨?_, htotal⟩
  constructor
  · exact h.walk
  · exact h.chain
  · rw [htotal]
    show (s.log.global_seq + 1).toNat ≤ s.total + 1
    rw [UInt64.toNat_add]
    exact (Nat.mod_le _ _).trans (Nat.succ_le_succ h.count)
  · intro m hm
    rw [htotal]
    exact Nat.le_succ_of_le (h.counts m hm)
  · exact h.heads
  · exact ⟨forall_mem_cons.mpr ⟨htid, h.owners.1⟩, h.owners.2⟩

theorem Honest.seal (hres : tid ∈ s.reserved) (i : ShardIdx) (ev : AuditEvent) (epoch seq : UInt64)
    (now : F64) :
    Honest H S key n (s.exec H key tid (.seal i ev epoch seq) now).1 ∧
      (s.exec H key tid (.seal i ev epoch seq) now).1.total = s.total := by
  have hsealed := sealed_entry_sealed H key s.log i ev epoch seq now
  set e := s.log.sealed_entry H key i ev epoch seq now with he
  have hinflight : (s.exec H key tid (.seal i ev epoch seq) now).1.inflight =
      s.inflight ++ [e] := by
    simp [inflight, exec, advance, he]
  have htotal : (s.exec H key tid (.seal i ev epoch seq) now).1.total = s.total := by
    have hpos := length_pos_of_mem hres
    have herase := length_erase_of_mem hres
    rw [total, hinflight, length_append, length_singleton, total]
    show _ + _ + (s.reserved.erase tid).length = _
    rw [herase]
    simp only [exec, advance, lines]
    omega
  refine ⟨?_, htotal⟩
  constructor
  · exact h.walk
  · intro j
    rw [inflight_of, hinflight, filter_append]
    show Linked H S key j (s.written j) _
      (Function.update s.log.shards i ⟨e.chain_hash, _⟩ j).last_hash
    by_cases hj : j = i
    · subst hj
      rw [Function.update_self, filter_cons_of_pos (by simp [hsealed.shard_eq]), filter_nil]
      exact (h.chain j).concat hsealed rfl
    · rw [Function.update_of_ne hj, filter_cons_of_neg (by
        simpa [hsealed.shard_eq] using fun h => hj h.symm), filter_nil, append_nil]
      exact h.chain j
  · rw [htotal]
    exact h.count
  · intro m hm
    rw [htotal]
    exact h.counts m hm
  · exact h.heads
  · refine ⟨fun j hj => h.owners.1 j (mem_of_mem_erase hj), ?_⟩
    exact forall_mem_append.mpr ⟨h.owners.2, forall_mem_singleton.mpr (h.owners.1 tid hres)⟩

theorem Honest.publish (tid : ℕ) (i : ShardIdx) (hash : Text) (now : F64) :
    Honest H S key n (s.exec H key tid (.publish i hash) now).1 :=
  ⟨h.walk, h.chain, h.count, h.counts, h.heads, h.owners⟩

theorem Honest.send_flush (tid : ℕ) (now : F64) :
    Honest H S key n (s.exec H key tid .send_flush now).1 ∧
      (s.exec H key tid .send_flush now).1.total = s.total := by
  refine h.of_same_lines rfl rfl rfl rfl ?_ (fun m hm => ?_) h.heads
  · simp [ entry?]
  · simpa [ImmutableAuditLog.counts, count?] using hm

theorem Honest.send (hmine : (s.mine tid).2 = [e])
    (hcount : event_count.toNat ≤ s.total) (hroom : s.log.queue.length < AUDIT_WAL_QUEUE_CAPACITY)
    (hok : n ≤ 1 ∨ s.foremost tid e) (now : F64) :
    Honest H S key n (s.exec H key tid (.send e event_count) now).1 ∧
      (s.exec H key tid (.send e event_count) now).1.total = s.total := by
  set s' := (s.exec H key tid (.send e event_count) now).1
  obtain ⟨l₁, l₂, hl, hrest, hne⟩ := split_unsent hmine
  have hclear := h.clear_before hok hl hne
  have hlog : s'.log = { s.log with queue := s.log.queue ++ [.Entry e event_count] } :=
    if_pos hroom
  have hunsent : s'.unsent = l₁ ++ l₂ := hrest
  have hinflight : s'.inflight = s.log.queue.filterMap entry? ++ e :: (l₁ ++ l₂).map snd := by
    rw [inflight, hunsent, hlog]
    simp [ entry?]
  have hbefore : s.inflight = s.log.queue.filterMap entry? ++ (l₁.map snd ++ e :: l₂.map snd) := by
    rw [inflight, hl]
    simp
  have htotal : s'.total = s.total := by
    rw [total, hinflight, hlog, total, hbefore]
    show record_lines S s.log.lines + _ + s.reserved.length =
      record_lines S s.log.lines + _ + s.reserved.length
    simp
    omega
  have hof : ∀ i, s'.inflight_of i = s.inflight_of i := by
    intro i
    rw [inflight_of, hinflight, inflight_of, hbefore]
    by_cases hi : e.shard = i
    · have hnil : (l₁.map snd).filter (fun e => e.shard = i) = [] := by
        rw [filter_eq_nil_iff]
        intro e' he' hshard
        obtain ⟨u, hu, rfl⟩ := mem_map.mp he'
        exact hclear u hu (by simpa [hi] using hshard)
      simp [filter_append, hi, hnil]
    · simp [filter_append, hi]
  refine ⟨?_, htotal⟩
  constructor
  · rw [hlog]
    exact h.walk
  · intro i
    rw [hof, hlog]
    exact h.chain i
  · rw [htotal, hlog]
    exact h.count
  · intro m hm
    rw [htotal]
    have hm' : m = event_count ∨ m ∈ s.log.counts := by
      rw [hlog] at hm
      simp only [ImmutableAuditLog.counts, filterMap_append, count?, filterMap_cons,
        filterMap_nil, mem_cons, mem_append] at hm ⊢
      grind
    rcases hm' with rfl | hm
    · exact hcount
    · exact h.counts m hm
  · rw [hlog]
    exact h.heads
  · refine ⟨h.owners.1, ?_⟩
    intro u hu
    exact h.owners.2 u (mem_of_mem_filter hu)

omit h

/-! ## The worker -/

variable {log : ImmutableAuditLog S}

namespace ImmutableAuditLog

@[simp] theorem lines_flush_and_sync (log : ImmutableAuditLog S) :
    log.flush_and_sync.lines = log.lines := by
  simp [lines, flush_and_sync]

variable {m : UInt64}

theorem counts_flush_and_sync (hm : m ∈ log.flush_and_sync.counts) : m ∈ log.counts := by
  simp only [counts, flush_and_sync, toList_some, mem_cons, mem_append,
    not_mem_nil, or_false] at hm ⊢
  grind

theorem counts_goto_wrote {event_count : UInt64}
    (hm : m ∈ (log.goto (.wrote event_count)).counts) : m = event_count ∨ m ∈ log.counts := by
  simp only [counts, goto, WorkerPhase.count?, toList_some, mem_cons,
    mem_append, not_mem_nil, or_false] at hm ⊢
  grind

theorem counts_anchor_written {root : Text}
    (hm : m ∈ (log.anchor_written root).counts) : m ∈ log.counts := by
  simp only [counts, anchor_written, WorkerPhase.count?, toList_none, mem_cons,
    mem_append, not_mem_nil, or_false] at hm ⊢
  grind

theorem counts_of_queue {msg : WalMessage} {queue : List WalMessage}
    (hqueue : log.queue = msg :: queue)
    (hm : m ∈ ({ log with queue } : ImmutableAuditLog S).counts) : m ∈ log.counts := by
  simp only [counts, hqueue, filterMap_cons, mem_cons, mem_append] at hm ⊢
  split <;> grind

structure SameBut (log log' : ImmutableAuditLog S) : Prop where
  shards : log'.shards = log.shards
  global_seq : log'.global_seq = log.global_seq
  queue : log'.queue = log.queue
  phase : log'.worker.phase = log.worker.phase
  prev_root : log'.worker.prev_root = log.worker.prev_root

theorem write_entry_spec (log : ImmutableAuditLog S) (line : S.Line) (event_count : UInt64)
    (timer : Bool) :
    SameBut log (log.write_entry line event_count timer) ∧
      (log.write_entry line event_count timer).lines = log.lines ++ [line] ∧
      ∀ m ∈ (log.write_entry line event_count timer).counts, m = event_count ∨ m ∈ log.counts := by
  have hlines : (log.write_line line event_count).lines = log.lines ++ [line] := by
    simp [lines, write_line]
  have hcounts : ∀ m ∈ (log.write_line line event_count).counts,
      m = event_count ∨ m ∈ log.counts := by
    intro m hm
    simp only [counts, write_line, mem_cons] at hm ⊢
    grind
  unfold write_entry
  split
  · refine ⟨⟨rfl, rfl, rfl, rfl, rfl⟩, ?_, fun m hm => hcounts m (counts_flush_and_sync hm)⟩
    rw [lines_flush_and_sync, hlines]
  · exact ⟨⟨rfl, rfl, rfl, rfl, rfl⟩, hlines, hcounts⟩

theorem work_chains (log : ImmutableAuditLog S) (timer : Bool) (now : F64) :
    (log.work H timer now).shards = log.shards ∧
      (log.work H timer now).global_seq = log.global_seq := by
  have hwrite : ∀ (log : ImmutableAuditLog S) (line : S.Line) (event_count : UInt64),
      (log.write_entry line event_count timer).shards = log.shards ∧
        (log.write_entry line event_count timer).global_seq = log.global_seq := by
    intro log line event_count
    have hsame := (log.write_entry_spec line event_count timer).1
    exact ⟨hsame.shards, hsame.global_seq⟩
  unfold work
  split
  · exact ⟨rfl, rfl⟩
  · split
    · exact ⟨rfl, rfl⟩
    · exact hwrite _ _ _
    · exact ⟨rfl, rfl⟩
  · dsimp only
    split <;> exact ⟨rfl, rfl⟩
  · split
    · exact ⟨rfl, rfl⟩
    · exact hwrite _ _ _

end ImmutableAuditLog

theorem Honest.of_line {s' : AuditRun S} (h : Honest H S key n s) {line : S.Line}
    (hne : S.as_bytes line ≠ []) (hlines : s'.log.lines = s.log.lines ++ [line])
    (hstep : ∀ w : Walk, (∀ i, w.head H i = s.written i) →
      (s.anchored = false → w.expected_prev_root = s.log.worker.prev_root) →
      ∃ w', w.line H S key line = some w' ∧ (∀ i, w'.head H i = s'.written i) ∧
        (s'.anchored = false → w'.expected_prev_root = s'.log.worker.prev_root))
    (hchain : ∀ i, Linked H S key i (s'.written i) (s'.inflight_of i) (s'.log.shards i).last_hash)
    (htotal : s'.total = s.total) (hseq : s'.log.global_seq = s.log.global_seq)
    (hcounts : ∀ m ∈ s'.log.counts, m ∈ s.log.counts)
    (hphase : ∀ event_count heads, s'.log.worker.phase ≠ .anchoring event_count heads)
    (hreserved : s'.reserved = s.reserved) (hunsent : s'.unsent = s.unsent) :
    Honest H S key n s' := by
  obtain ⟨w, hreplay, hheads, hroot⟩ := h.walk
  obtain ⟨w', hline, hheads', hroot'⟩ := hstep w hheads hroot
  constructor
  · exact ⟨w', ((congrArg _ hlines).trans (replay_append hne hreplay)).trans hline, hheads', hroot'⟩
  · exact hchain
  · rw [htotal, hseq]
    exact h.count
  · intro m hm
    rw [htotal]
    exact h.counts m (hcounts m hm)
  · intro event_count heads hanchoring
    exact absurd hanchoring (hphase event_count heads)
  · rw [hreserved, hunsent]
    exact h.owners

variable (h : Honest H S key n s) (d : Bool × F64)
include h

theorem Honest.write (hS : S.Lawful) {queue : List WalMessage}
    (hphase : s.log.worker.phase = .receiving)
    (hqueue : s.log.queue = .Entry e event_count :: queue) :
    Honest H S key n (s.work H d) ∧ (s.work H d).total = s.total := by
  obtain ⟨hsame, hlines, hcounts⟩ := write_entry_spec { s.log with queue }
    (e.line S) event_count d.1
  have hlog : (s.work H d).log = (({ s.log with queue } : ImmutableAuditLog S).write_entry
      (e.line S) event_count d.1).goto (.wrote event_count) := by
    simp only [AuditRun.work, ImmutableAuditLog.work, hphase, hqueue]
  have hwritten : (s.work H d).written = Function.update s.written e.shard e.chain_hash := by
    simp only [AuditRun.work, hphase, hqueue]
  generalize ({ s.log with queue } : ImmutableAuditLog S).write_entry
    (e.line S) event_count d.1 = log' at *
  -- the front of the queue is the front of its shard
  have hinflight : s.inflight = e :: (queue.filterMap entry? ++ s.unsent.map snd) := by
    simp [inflight, hqueue, entry?]
  have hinflight' : (s.work H d).inflight = queue.filterMap entry? ++ s.unsent.map snd := by
    rw [inflight, hlog]
    show log'.queue.filterMap entry? ++ s.unsent.map snd = _
    rw [hsame.queue]
  have hchain := h.chain e.shard
  rw [inflight_of, hinflight, filter_cons_of_pos (by simp)] at hchain
  obtain ⟨hsealed, hprev, hrest⟩ := hchain
  have hne := entry_line_ne_nil hS e
  have hlines' : (s.work H d).log.lines = s.log.lines ++ [e.line S] := by
    rw [hlog]
    exact hlines
  have htotal : (s.work H d).total = s.total := by
    rw [total, hinflight', hlines', record_lines_append hne,
      is_record_line_entry hS hsealed, if_pos rfl, total, hinflight, length_cons]
    show _ + _ + s.reserved.length = _ + _ + s.reserved.length
    omega
  refine ⟨h.of_line hne hlines' ?_ ?_ htotal ?_ ?_ ?_ rfl rfl, htotal⟩
  · intro w hheads hroot
    refine ⟨_, Walk.line_entry hS hsealed (hprev.trans (hheads _).symm), ?_, ?_⟩
    · intro i
      rw [hwritten]
      by_cases hi : i = e.shard
      · subst hi
        simp [Walk.head]
      · simp only [Walk.head, Function.update_of_ne hi]
        exact hheads i
    · intro hanch
      rw [hlog]
      exact (hroot hanch).trans hsame.prev_root.symm
  · intro i
    rw [inflight_of, hinflight', hwritten, hlog]
    show Linked H S key i _ _ (log'.shards i).last_hash
    rw [hsame.shards]
    by_cases hi : i = e.shard
    · subst hi
      rw [Function.update_self]
      exact hrest
    · rw [Function.update_of_ne hi]
      have := h.chain i
      rwa [inflight_of, hinflight, filter_cons_of_neg (by
        simpa using fun h => hi h.symm)] at this
  · rw [hlog]
    exact hsame.global_seq
  · -- the count written is the one that came off the queue with the entry
    have hin : event_count ∈ s.log.counts := by
      simp [ImmutableAuditLog.counts, hqueue, count?]
    intro m hm
    rw [hlog] at hm
    rcases counts_goto_wrote hm with rfl | hm
    · exact hin
    · rcases hcounts m hm with rfl | hm
      · exact hin
      · exact counts_of_queue hqueue hm
  · intro _ _ hanchoring
    rw [hlog] at hanchoring
    cases hanchoring

theorem Honest.write_anchor (hS : S.Lawful) {heads : List Text}
    (hphase : s.log.worker.phase = .anchoring event_count heads)
    (hlen : ¬ heads.length < AUDIT_SHARDS) :
    Honest H S key n (s.work H d) ∧ (s.work H d).total = s.total := by
  obtain ⟨htake, hanchored⟩ := h.heads event_count heads hphase
  have hofn : heads = ofFn s.written := by
    rw [htake, take_of_length_le]
    rw [length_ofFn]
    exact Nat.le_of_not_lt hlen
  have hfree : s.anchored = false := by
    apply hanchored
    rintro rfl
    exact hlen (by decide)
  obtain ⟨hsame, hlines, hcounts⟩ := write_entry_spec
    { s.log with anchor_epoch := s.log.anchor_epoch + 1 }
    (S.anchor_line (s.log.build_anchor H heads event_count d.2)) event_count d.1
  have hwork : s.work H d = { s with log := s.log.write_anchor H heads event_count d.1 d.2 } := by
    simp only [AuditRun.work, ImmutableAuditLog.work, hphase, dif_neg hlen]
  rw [ImmutableAuditLog.write_anchor] at hwork
  generalize ha : s.log.build_anchor H heads event_count d.2 = a at *
  generalize ({ s.log with anchor_epoch := s.log.anchor_epoch + 1 } :
    ImmutableAuditLog S).write_entry (S.anchor_line a) event_count d.1 = log' at *
  have hne := anchor_line_ne_nil hS a
  have hinflight : (s.work H d).inflight = s.inflight := by
    rw [hwork]
    show log'.queue.filterMap entry? ++ s.unsent.map snd = _
    rw [hsame.queue]
    rfl
  have hlog : (s.work H d).log = log'.anchor_written (heads_root H heads) := by rw [hwork]
  have hlines' : (s.work H d).log.lines = s.log.lines ++ [S.anchor_line a] := by
    rw [hlog]
    exact hlines
  have htotal : (s.work H d).total = s.total := by
    rw [total, hinflight, hlines', record_lines_append hne, is_record_line_anchor hS, hwork]
    rfl
  refine ⟨h.of_line hne hlines' ?_ ?_ htotal ?_ ?_ ?_ (by rw [hwork]) (by rw [hwork]), htotal⟩
  · intro w hheads hroot
    have hstep : w.line H S key (S.anchor_line a) =
        some { w with expected_prev_root := heads_root H heads } := by
      subst ha
      refine Walk.line_anchor hS ?_ rfl (hroot hfree).symm
      exact hofn.trans (congrArg ofFn (funext hheads).symm)
    refine ⟨_, hstep, ?_, ?_⟩
    · rw [hwork]
      exact hheads
    · intro _
      rw [hlog]
      rfl
  · intro i
    rw [inflight_of, hinflight, hwork]
    show Linked H S key i _ _ (log'.shards i).last_hash
    rw [hsame.shards]
    exact h.chain i
  · rw [hlog]
    exact hsame.global_seq
  · intro m hm
    rw [hlog] at hm
    rcases hcounts m (counts_anchor_written hm) with rfl | hm
    · simp [ImmutableAuditLog.counts, hphase, WorkerPhase.count?]
    · exact hm
  · intro _ _ hanchoring
    rw [hlog] at hanchoring
    cases hanchoring

theorem Honest.read_head {heads : List Text}
    (hphase : s.log.worker.phase = .anchoring event_count heads)
    (hlt : heads.length < AUDIT_SHARDS) (hok : (in_order n).daemon_ok d s) :
    Honest H S key n (s.work H d) ∧ (s.work H d).total = s.total := by
  have hwork : s.work H d = { s with log := s.log.goto (.anchoring event_count
      (heads ++ [s.log.shard_heads ⟨heads.length, hlt⟩])) } := by
    simp only [AuditRun.work, ImmutableAuditLog.work, hphase, dif_pos hlt]
  obtain ⟨hfree, hhead⟩ : s.anchored = false ∧
      s.log.shard_heads ⟨heads.length, hlt⟩ = s.written ⟨heads.length, hlt⟩ := by
    simp only [in_order, hphase] at hok
    exact hok hlt
  rw [hwork]
  refine h.of_same_lines rfl rfl rfl rfl rfl ?_ ?_
  · intro m hm
    simpa [ImmutableAuditLog.counts, ImmutableAuditLog.goto, WorkerPhase.count?, hphase] using hm
  · intro ec heads' hanch
    obtain ⟨-, rfl⟩ := WorkerPhase.anchoring.inj hanch
    refine ⟨?_, fun _ => hfree⟩
    have hget : (ofFn s.written)[heads.length]? = some (s.written ⟨heads.length, hlt⟩) := by
      rw [List.getElem?_ofFn, dif_pos hlt]
    rw [length_append, length_singleton, take_add_one, hget, hhead, toList_some]
    exact congrArg (· ++ _) (h.heads event_count heads hphase).1

theorem Honest.flush {queue : List WalMessage} (hphase : s.log.worker.phase = .receiving)
    (hqueue : s.log.queue = .Flush :: queue) :
    Honest H S key n (s.work H d) ∧ (s.work H d).total = s.total := by
  have hwork : s.work H d =
      { s with log := ({ s.log with queue } : ImmutableAuditLog S).flush_and_sync } := by
    simp only [AuditRun.work, ImmutableAuditLog.work, hphase, hqueue]
  rw [hwork]
  refine h.of_same_lines (lines_flush_and_sync _) rfl rfl rfl ?_ ?_ ?_
  · rw [hqueue]
    rfl
  · intro m hm
    exact counts_of_queue hqueue (counts_flush_and_sync hm)
  · exact h.heads

/-- **Every step of the worker** keeps the invariant. -/
theorem Honest.work (hS : S.Lawful) (hok : (in_order n).daemon_ok d s) :
    Honest H S key n (s.work H d) ∧ (s.work H d).total = s.total := by
  rcases hphase : s.log.worker.phase with _ | _ | event_count | ⟨event_count, heads⟩
  · -- the file is created if need be; no line changes
    have hwork : s.work H d = { s with log := s.log.work H d.1 d.2 } := by
      simp only [AuditRun.work, hphase]
    rw [hwork, ImmutableAuditLog.work, hphase]
    refine h.of_same_lines rfl rfl rfl rfl rfl ?_ (fun _ _ hanch => nomatch hanch)
    intro m hm
    simpa [ImmutableAuditLog.counts, open_file, ImmutableAuditLog.goto,
      WorkerPhase.count?, hphase] using hm
  · rcases hqueue : s.log.queue with _ | ⟨_ | _, queue⟩
    · have hwork : s.work H d = s := by
        simp only [AuditRun.work, ImmutableAuditLog.work, hphase, hqueue]
      rw [hwork]
      exact ⟨h, rfl⟩
    · exact h.write d hS hphase hqueue
    · exact h.flush d hphase hqueue
  · -- after a line the worker decides whether an anchor is due, and has read no head yet
    have hwork : s.work H d = { s with log := s.log.work H d.1 d.2 } := by
      simp only [AuditRun.work, hphase]
    rw [hwork, ImmutableAuditLog.work, hphase]
    dsimp only
    split
    · refine h.of_same_lines rfl rfl rfl rfl rfl ?_ ?_
      · intro m hm
        simpa [ImmutableAuditLog.counts, ImmutableAuditLog.goto, WorkerPhase.count?, hphase]
          using hm
      · intro ec heads hanch
        obtain ⟨-, rfl⟩ := WorkerPhase.anchoring.inj hanch
        exact ⟨rfl, fun hne => absurd rfl hne⟩
    · refine h.of_same_lines rfl rfl rfl rfl rfl ?_ (fun _ _ hanch => nomatch hanch)
      intro m hm
      simp only [ImmutableAuditLog.counts, ImmutableAuditLog.goto, WorkerPhase.count?, hphase,
        toList_none, toList_some, mem_cons, mem_append,
        not_mem_nil, or_false] at hm ⊢
      grind
  · by_cases hlt : heads.length < AUDIT_SHARDS
    · exact h.read_head d hphase hlt hok
    · exact h.write_anchor d hS hphase hlt

omit h

/-! ## Programs -/

section

variable {n tid : ℕ} {α : Type} {post : α → AuditRun S → Prop}

theorem stable_mine (m : ℕ × List AuditLogEntry) :
    (audit_protocol H S key n).Stable tid fun s => s.mine tid = m :=
  fun _ _ hrely hmine => hrely.1.trans hmine

def Idle (tid : ℕ) (s : AuditRun S) : Prop := s.mine tid = (0, [])

section

variable (H key)

theorem mine_seal_self (hmine : s.mine tid = (1, [])) (i : ShardIdx)
    (ev : AuditEvent) (epoch seq : UInt64) (now : F64) :
    (s.exec H key tid (.seal i ev epoch seq) now).1.mine tid =
      (0, [(s.exec H key tid (.seal i ev epoch seq) now).2]) := by
  obtain ⟨hres, hunsent⟩ := mk.inj hmine
  rw [map_eq_nil_iff] at hunsent
  simp [mine, exec, filter_append, hunsent, hres]

theorem mine_send_self {m : ℕ} {es : List AuditLogEntry}
    (hmine : s.mine tid = (m, es)) (e : AuditLogEntry) (event_count : UInt64) (now : F64) :
    (s.exec H key tid (.send e event_count) now).1.mine tid = (m, []) := by
  obtain ⟨hres, -⟩ := mk.inj hmine
  simp [mine, exec, List.filter_filter, hres]

theorem mine_send_other {j : ℕ} (hj : j ≠ tid) (e : AuditLogEntry) (event_count : UInt64)
    (now : F64) : (s.exec H key tid (.send e event_count) now).1.mine j = s.mine j := by
  have : (s.unsent.filter fun u => u.1 != tid).filter (fun u => u.1 == j) =
      s.unsent.filter fun u => u.1 == j := by
    rw [List.filter_filter]
    apply filter_congr
    intro u _
    by_cases hu : u.1 = j
    · simp [hu, hj]
    · simp [hu]
  simp [mine, exec, this]

end

/-- **One append**: reserve, seal, publish, send. -/
theorem append_event_inner_safe (htid : tid < n) (i : ShardIdx) (ev : AuditEvent)
    (hs : Idle tid s) :
    (append_event_inner i ev).Safe (audit_sections H key) (in_order n)
      (audit_protocol H S key n) tid (fun _ => Idle tid) s := by
  refine Prog.Safe.step_to (fun _ => Idle tid) (stable_mine _) ?_ ?_ hs
  · intro s' _ hinv hidle _
    exact ⟨hinv, fun j _ => ⟨rfl, Nat.le_refl _⟩, hidle⟩
  intro epoch s₁ hs₁
  refine Prog.Safe.step_to (fun _ s => s.mine tid = (1, [])) (stable_mine _) ?_ ?_ hs₁
  · intro s' now hinv hidle _
    obtain ⟨hinv', htotal⟩ := Honest.reserve hinv htid now
    refine ⟨hinv', fun j hj => ⟨?_, (Nat.le_succ _).trans htotal.ge⟩, ?_⟩
    · show ((tid :: s'.reserved).count j, _) = _
      rw [count_cons_of_ne (Ne.symm hj)]
      rfl
    · obtain ⟨hres, hunsent⟩ := mk.inj hidle
      show ((tid :: s'.reserved).count tid, _) = _
      rw [count_cons_self, hres]
      exact congrArg _ hunsent
  intro seq s₂ hs₂
  refine Prog.Safe.step_to (fun e s => s.mine tid = (0, [e])) (stable_mine _) ?_ ?_ hs₂
  · intro s' now hinv hmine _
    have hres : tid ∈ s'.reserved := by
      rw [← count_pos_iff, (mk.inj hmine).1]
      exact Nat.one_pos
    obtain ⟨hinv', htotal⟩ := Honest.seal hinv hres i ev epoch seq now
    refine ⟨hinv', fun j hj => ⟨?_, htotal.ge⟩, ?_⟩
    · simp [mine, audit_sections, exec, filter_append, count_erase_of_ne hj, Ne.symm hj]
    · exact mine_seal_self H key hmine i ev epoch seq now
  intro e s₃ hs₃
  refine Prog.Safe.step_to (fun _ s => s.mine tid = (0, [e])) (stable_mine _) ?_ ?_ hs₃
  · intro s' now hinv hmine _
    exact ⟨Honest.publish hinv tid i e.chain_hash now, fun j _ => ⟨rfl, Nat.le_refl _⟩, hmine⟩
  intro _ s₄ hs₄
  refine Prog.Safe.step_to
    (fun event_count s => s.mine tid = (0, [e]) ∧ event_count.toNat ≤ s.total)
    (stable_mine _) ?_ ?_ hs₄
  · intro s' now hinv hmine _
    refine ⟨hinv, fun j _ => ⟨rfl, Nat.le_refl _⟩, hmine, ?_⟩
    exact hinv.count
  intro event_count s₅ hs₅
  have hstable : (audit_protocol H S key n).Stable tid fun s =>
      s.mine tid = (0, [e]) ∧ event_count.toNat ≤ s.total :=
    fun _ _ hrely hK => ⟨hrely.1.trans hK.1, hK.2.trans hrely.2⟩
  refine Prog.Safe.step_to (fun _ => Idle tid) hstable ?_ ?_ hs₅
  · intro s' now hinv hK hok
    obtain ⟨hroom, hok⟩ := hok
    obtain ⟨hinv', htotal⟩ := Honest.send hinv (congrArg snd hK.1) hK.2 hroom hok now
    refine ⟨hinv', fun j hj => ⟨?_, htotal.ge⟩, ?_⟩
    · exact mine_send_other H key hj e event_count now
    · exact mine_send_self H key hK.1 e event_count now
  intro _ s₆ hs₆
  exact Prog.Safe.ret_of_stable (stable_mine _) (fun _ h => h) hs₆

theorem flush_safe (i : ShardIdx) (hs : Idle tid s) :
    (AuditCall.prog i .flush).Safe (audit_sections H key) (in_order n)
      (audit_protocol H S key n) tid (fun _ => Idle tid) s := by
  refine Prog.Safe.step_to (fun _ => Idle tid) (stable_mine _) ?_ ?_ hs
  · intro s' now hinv hidle _
    obtain ⟨hinv', htotal⟩ := Honest.send_flush hinv tid now
    exact ⟨hinv', fun j _ => ⟨rfl, htotal.ge⟩, hidle⟩
  intro _ s' hs'
  exact Prog.Safe.ret_of_stable (stable_mine _) (fun _ h => h) hs'

theorem Appender.prog_safe (htid : tid < n) (a : Appender) (hs : Idle tid s) :
    a.prog.Safe (audit_sections H key) (in_order n)
      (audit_protocol H S key n) tid (fun _ => Idle tid) s := by
  obtain ⟨i, calls⟩ := a
  simp only [Appender.prog]
  induction calls generalizing s with
  | nil => exact Prog.Safe.ret_of_stable (stable_mine _) (fun _ h => h) hs
  | cons call calls ih =>
    have hcall : (call.prog i).Safe (audit_sections H key) (in_order n)
        (audit_protocol H S key n) tid (fun _ => Idle tid) s := by
      cases call with
      | append ev => exact append_event_inner_safe htid i ev hs
      | flush => exact flush_safe i hs
    refine hcall.bind fun _ t _ ht => (ih ht).bind fun _ t' _ ht' => ?_
    exact Prog.Safe.ret_of_stable (stable_mine _) (fun _ h => h) ht'

end

/-! ## Whole runs -/

def AuditRun.fresh (H : Hashes) (S : SerdeJson) : AuditRun S :=
  .start (.new H S ⟨none, none⟩) false

theorem honest_fresh (n : ℕ) : Honest H S key n (.fresh H S) := by
  constructor
  · exact ⟨Walk.start, rfl, fun _ => rfl, fun _ => rfl⟩
  · intro i
    rfl
  · rfl
  · intro m hm
    obtain rfl : m = 0 := mem_singleton.mp hm
    exact Nat.zero_le _
  · intro _ _ hanch
    cases hanch
  · exact ⟨fun _ h => (nomatch h), fun _ h => (nomatch h)⟩

theorem Honest.verified (h : Honest H S key n s)
    (hidle : ∀ tid < n, Idle tid s) (hdrained : s.log.drained = true) :
    s.log.disk.Sound H key ∧ verify_chain_disk H S key s.log.disk s.log.global_seq = true := by
  have hreserved : s.reserved = [] := by
    rw [eq_nil_iff_forall_not_mem]
    intro j hj
    have := (mk.inj (hidle j (h.owners.1 j hj))).1
    exact absurd (count_pos_iff.mpr hj) (by omega)
  have hunsent : s.unsent = [] := by
    rw [eq_nil_iff_forall_not_mem]
    intro u hu
    have hnil := (mk.inj (hidle u.1 (h.owners.2 u hu))).2
    rw [map_eq_nil_iff, filter_eq_nil_iff] at hnil
    exact hnil u hu (by simp)
  simp only [drained, Bool.and_eq_true, List.isEmpty_iff] at hdrained
  obtain ⟨⟨hqueue, hbuffer⟩, -⟩ := hdrained
  have hlines : s.log.lines = s.log.disk.log.getD [] := by
    rw [lines, hbuffer, List.append_nil]
  have htotal : s.total = record_lines S (s.log.disk.log.getD []) := by
    simp [total, inflight, hreserved, hunsent, hqueue, hlines]
  have hsound : s.log.disk.Sound H key := by
    obtain ⟨w, hreplay, -⟩ := h.walk
    refine ⟨⟨w, hlines ▸ hreplay⟩, ?_⟩
    intro m hm
    rw [← htotal]
    exact h.counts m (by simp [ImmutableAuditLog.counts, hm])
  refine ⟨hsound, hsound.verify ?_⟩
  intro hnone
  -- no file: nothing was ever written, and no number handed out
  have hcount := h.count
  rw [htotal, hnone] at hcount
  exact UInt64.toNat_inj.mp (Nat.le_zero.mp hcount)

section

variable (hS : S.Lawful) (appenders : List Appender)
  (hstart : Honest H S key appenders.length s) (hidle : ∀ tid, Idle tid s)
  (ticks : List AuditTick)
  (hok : (audit_pool appenders s).Respects (audit_sections H key) (work H)
    (in_order appenders.length) ticks)
include hS hstart hidle hok

theorem honest_run : (audit_run H key appenders s ticks).Safe (audit_sections H key)
      (in_order appenders.length) (audit_protocol H S key appenders.length)
      (fun tid _ => Idle tid) := by
  have hdaemon : DaemonSafe (work H) (in_order appenders.length)
      (audit_protocol H S key appenders.length) := by
    intro d t hinv hok
    obtain ⟨hinv', htotal⟩ := Honest.work hinv d hS hok
    exact ⟨hinv', fun j => ⟨rfl, htotal.ge⟩⟩
  have hthreads : (audit_pool appenders s).Safe (audit_sections H key)
      (in_order appenders.length) (audit_protocol H S key appenders.length)
      (fun tid _ => Idle tid) := by
    refine ⟨hstart, ?_⟩
    intro i q hq
    rw [audit_pool, getElem?_map, map_eq_some_iff] at hq
    obtain ⟨a, ha, rfl⟩ := hq
    exact a.prog_safe (List.getElem?_eq_some_iff.mp ha).1 (hidle i)
  exact hthreads.run hdaemon ticks hok

theorem honest_run_verified
    (hdone : (audit_run H key appenders s ticks).returned = true)
    (hdrained : (audit_run H key appenders s ticks).state.log.drained = true) :
    let log := (audit_run H key appenders s ticks).state.log
    log.disk.Sound H key ∧ verify_chain_disk H S key log.disk log.global_seq = true := by
  have hsafe := honest_run hS appenders hstart hidle ticks hok
  refine hsafe.inv.verified ?_ hdrained
  intro tid htid
  obtain ⟨a, ha⟩ := Pool.ret_of_returned hdone (i := tid) (by
    simpa [audit_run, audit_pool] using htid)
  exact hsafe.post_of_ret ha

end

/-- **An honest log verifies**, in every run in which nothing is dropped, lines are sent in
the order they were sealed on each shard, and anchors are built over written heads: once all
appenders have returned and the queue has drained and been flushed, `verify_chain_disk`
answers `true`. -/
theorem honest_log_verifies (hS : S.Lawful) (appenders : List Appender)
    (ticks : List AuditTick)
    (hok : (audit_pool appenders (.fresh H S)).Respects (audit_sections H key)
      (AuditRun.work H) (in_order appenders.length) ticks)
    (hdone : (audit_run H key appenders (.fresh H S) ticks).returned = true)
    (hdrained : (audit_run H key appenders (.fresh H S) ticks).state.log.drained = true) :
    verify_chain_disk H S key (audit_run H key appenders (.fresh H S) ticks).state.log.disk
      (audit_run H key appenders (.fresh H S) ticks).state.log.global_seq = true := by
  exact (honest_run_verified hS appenders (honest_fresh _) (fun _ => rfl) ticks hok hdone
    hdrained).2

/-! ## Two threads on one shard -/

def sampleAppender : Appender where
  shard_idx := 0
  calls := [.append ⟨ascii "agent-a", ascii "agent-b", ascii "sig", ascii "ping", ascii "tp"⟩]

def sampleIssuerSecret : List UInt8 := List.replicate 32 2

def sampleThread (tid : ℕ) : AuditTick := .thread tid (integral_f64 1700000000)
def sampleWorker (timer : Bool) : AuditTick := .daemon (timer, integral_f64 1700000000)

def sampleInTurn : List AuditTick :=
  List.replicate 6 (sampleThread 0) ++ List.replicate 6 (sampleThread 1) ++
    List.replicate 4 (sampleWorker false) ++ List.replicate 18 (sampleWorker true)

theorem honest_log_verifies_in_turn :
    let log := (audit_run sampleHashes sampleIssuerSecret [sampleAppender, sampleAppender]
      (.fresh sampleHashes sampleJson) sampleInTurn).state.log
    verify_chain_disk sampleHashes sampleJson sampleIssuerSecret log.disk log.global_seq = true :=
  honest_log_verifies sampleJson_lawful _ _ (by decide +kernel) (by decide +kernel)
    (by decide +kernel)

/-- The first thread seals its record and is overtaken by the second one. -/
def sampleOvertaken : List AuditTick :=
  List.replicate 3 (sampleThread 0) ++ List.replicate 6 (sampleThread 1) ++
    List.replicate 3 (sampleThread 0) ++ List.replicate 3 (sampleWorker false) ++
    [sampleWorker true, sampleWorker false]

/-- The lines reach the file in the wrong order and the log does not verify, though nothing
was dropped and everything was flushed. -/
theorem overtaken_log_fails :
    let q := audit_run sampleHashes sampleIssuerSecret [sampleAppender, sampleAppender]
      (.fresh sampleHashes sampleJson) sampleOvertaken
    q.returned = true ∧ q.state.log.drained = true ∧ q.state.log.dropped_audits = 0 ∧
      verify_chain_disk sampleHashes sampleJson sampleIssuerSecret q.state.log.disk
        q.state.log.global_seq = false := by
  decide +kernel

/-! ## The sentinel -/

/-- Every count in the queue is covered by the records written when its line is. -/
def Covered (S : SerdeJson) : List S.Line → List WalMessage → Prop
  | _, [] => True
  | lines, .Flush :: queue => Covered S lines queue
  | lines, .Entry e event_count :: queue =>
    event_count.toNat ≤ record_lines S (lines ++ [e.line S]) ∧
      Covered S (lines ++ [e.line S]) queue

/-- The lines written once the worker has come to the end of the queue. -/
def ImmutableAuditLog.queued_lines (log : ImmutableAuditLog S) : List S.Line :=
  log.lines ++ (log.queue.filterMap WalMessage.entry?).map (AuditLogEntry.line S)

/-- **The condition.** A line that is queued carries a count of at most the records written or
queued by then, its own included: no number is handed out whose line is dropped or comes later. -/
def not_ahead : Condition AuditSection F64 (AuditRun S) (Bool × F64) where
  section_ok _ _ act _ s :=
    match act with
    | .send entry event_count => s.log.queue.length < AUDIT_WAL_QUEUE_CAPACITY →
        event_count.toNat ≤ record_lines S (s.log.queued_lines ++ [entry.line S])
    | _ => True
  daemon_ok _ _ := True

variable {lines : List S.Line} {queue : List WalMessage}

theorem Covered.mono {lines' : List S.Line} (hle : record_lines S lines ≤ record_lines S lines')
    (h : Covered S lines queue) : Covered S lines' queue := by
  induction queue generalizing lines lines' with
  | nil => trivial
  | cons msg queue ih =>
    cases msg with
    | Flush => exact ih hle h
    | Entry e event_count =>
      have hle' : record_lines S (lines ++ [e.line S]) ≤ record_lines S (lines' ++ [e.line S]) := by
        rw [record_lines_add, record_lines_add]
        exact Nat.add_le_add_right hle _
      exact ⟨h.1.trans hle', ih hle' h.2⟩

theorem Covered.concat {msg : WalMessage} (h : Covered S lines queue)
    (hmsg : Covered S (lines ++ (queue.filterMap WalMessage.entry?).map (AuditLogEntry.line S))
      [msg]) : Covered S lines (queue ++ [msg]) := by
  induction queue generalizing lines with
  | nil => simpa using hmsg
  | cons first queue ih =>
    cases first with
    | Flush => exact ih h hmsg
    | Entry e event_count =>
      exact ⟨h.1, ih h.2 (by simpa [ entry?] using hmsg)⟩

/-- **The invariant**: counts on their way are covered when their line is written, those in the
worker's hands by what it has written, and the sentinel by what is on the disk. -/
structure SentinelKept (log : ImmutableAuditLog S) : Prop where
  covered : Covered S log.lines log.queue
  pending : log.worker.wal.pending_event_count.toNat ≤ record_lines S log.lines
  phase : ∀ m, log.worker.phase.count? = some m → m.toNat ≤ record_lines S log.lines
  sentinel : ∀ m, log.disk.sentinel = some m → m.toNat ≤ record_lines S (log.disk.log.getD [])

namespace SentinelKept

theorem flush_and_sync (h : SentinelKept log) : SentinelKept log.flush_and_sync := by
  have hlines := log.lines_flush_and_sync
  refine ⟨hlines ▸ h.covered, hlines ▸ h.pending, hlines ▸ h.phase, ?_⟩
  intro m hm
  obtain rfl := Option.some.inj hm
  exact h.pending

theorem write_entry (h : SentinelKept log) {line : S.Line} {queue : List WalMessage} (timer : Bool)
    (hcovered : Covered S (log.lines ++ [line]) queue)
    (hcount : event_count.toNat ≤ record_lines S (log.lines ++ [line])) :
    SentinelKept
      (({ log with queue } : ImmutableAuditLog S).write_entry line event_count timer) := by
  have hlines : (({ log with queue } : ImmutableAuditLog S).write_line line event_count).lines =
      log.lines ++ [line] := by
    simp [lines, write_line]
  have hwritten : SentinelKept
      (({ log with queue } : ImmutableAuditLog S).write_line line event_count) := by
    refine ⟨hlines ▸ hcovered, hlines ▸ hcount, ?_, h.sentinel⟩
    intro m hm
    rw [hlines, record_lines_add]
    exact Nat.le_add_right_of_le (h.phase m hm)
  unfold ImmutableAuditLog.write_entry
  split
  · exact hwritten.flush_and_sync
  · exact hwritten

theorem write_anchor (h : SentinelKept log) {heads : List Text} (timer : Bool) (now : F64)
    (hcount : event_count.toNat ≤ record_lines S log.lines) :
    SentinelKept (log.write_anchor H heads event_count timer now) := by
  have hle : record_lines S log.lines ≤ record_lines S (log.lines ++
      [S.anchor_line (log.build_anchor H heads event_count now)]) := by
    rw [record_lines_add]
    exact Nat.le_add_right _ _
  have hnext : SentinelKept { log with anchor_epoch := log.anchor_epoch + 1 } :=
    ⟨h.covered, h.pending, h.phase, h.sentinel⟩
  have hwritten := hnext.write_entry timer (h.covered.mono hle) (hcount.trans hle)
  exact ⟨hwritten.covered, hwritten.pending, fun _ hm => (nomatch hm), hwritten.sentinel⟩

/-- **One step of the worker.** -/
theorem work (h : SentinelKept log) (timer : Bool) (now : F64) :
    SentinelKept (log.work H timer now) := by
  unfold ImmutableAuditLog.work
  split
  · exact ⟨h.covered, h.pending, fun _ hm => (nomatch hm), h.sentinel⟩
  · have hcovered := h.covered
    split
    · exact h
    · rename_i e event_count queue hqueue
      rw [hqueue] at hcovered
      have hwritten := h.write_entry timer hcovered.2 hcovered.1
      refine ⟨hwritten.covered, hwritten.pending, ?_, hwritten.sentinel⟩
      intro m hm
      obtain rfl := Option.some.inj hm
      exact (write_entry_spec { log with queue } _ _ timer).2.1 ▸ hcovered.1
    · rename_i queue hqueue
      rw [hqueue] at hcovered
      exact flush_and_sync ⟨hcovered, h.pending, h.phase, h.sentinel⟩
  · rename_i event_count hphase
    have hcount := h.phase event_count (by rw [hphase]; rfl)
    dsimp only
    split
    · exact ⟨h.covered, h.pending, fun m hm => Option.some.inj hm ▸ hcount, h.sentinel⟩
    · exact ⟨h.covered, h.pending, fun _ hm => (nomatch hm), h.sentinel⟩
  · rename_i event_count heads hphase
    have hcount := h.phase event_count (by rw [hphase]; rfl)
    split
    · exact ⟨h.covered, h.pending, fun m hm => Option.some.inj hm ▸ hcount, h.sentinel⟩
    · exact h.write_anchor timer now hcount

/-- **One section of an appender.** -/
theorem exec (H : Hashes) (key : List UInt8) {s : AuditRun S} (h : SentinelKept s.log) (tid : ℕ)
    {γ : Type} (act : AuditSection γ) (now : F64) (hsend : not_ahead.section_ok tid act now s) :
    SentinelKept (s.exec H key tid act now).1.log := by
  cases act
  case send entry event_count =>
    show SentinelKept (s.log.enqueue_wal_line entry event_count)
    unfold enqueue_wal_line
    split_ifs with hroom
    · exact ⟨h.covered.concat ⟨hsend hroom, trivial⟩, h.pending, h.phase, h.sentinel⟩
    · exact ⟨h.covered, h.pending, h.phase, h.sentinel⟩
  case send_flush => exact ⟨h.covered.concat trivial, h.pending, h.phase, h.sentinel⟩
  all_goals exact ⟨h.covered, h.pending, h.phase, h.sentinel⟩

end SentinelKept

instance (tid : ℕ) {β : Type} (act : AuditSection β) (now : F64) (s : AuditRun S) :
    Decidable (not_ahead.section_ok tid act now s) :=
  match act with
  | .load_epoch | .reserve | .seal .. | .publish .. | .load_count | .send_flush => isTrue trivial
  | .send .. => inferInstanceAs (Decidable (_ → _ ≤ _))

instance (d : Bool × F64) (s : AuditRun S) : Decidable (not_ahead.daemon_ok d s) := isTrue trivial

end Saacp
