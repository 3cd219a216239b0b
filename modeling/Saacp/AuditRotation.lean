/-
**Rotation of the log file**, and what it does to verification.

`WalWriter::maybe_rotate` stands before every line: a file that has grown past its bound is renamed,
and the line goes into a new, empty one. The shard heads, the root of the last anchor and the event
count go on from where they were, while the verification reads the new file from genesis.

A `RotatingRun` adds the size the writer keeps and the files that have been renamed. As long as
nothing has been renamed it is the run without rotation (`unrotated_run`); `Counted` is the
invariant for the other case. A run is one thread and the worker.
-/
import Saacp.AuditRestart

set_option autoImplicit false

open ByteCodec Atomic

namespace Saacp

open ImmutableAuditLog List AuditRun WalMessage Pool Bool Option Nat Prod Phase

def AUDIT_MAX_LOG_SIZE : ℕ := 50000000

def file_size (S : SerdeJson) (lines : List S.Line) : ℕ :=
  (lines.map fun line => (S.as_bytes line).length + 1).sum

/-- A run of the log, the size its writer has counted, and the files that were renamed. -/
structure RotatingRun (S : SerdeJson) where
  run : AuditRun S
  size : ℕ
  archived : List (List S.Line)

section

variable (H : Hashes) {S : SerdeJson} (key : List UInt8)

namespace RotatingRun

/-- `WalWriter::maybe_rotate`. The buffer goes to the old file; the sentinel is not written. -/
def maybe_rotate (s : RotatingRun S) : RotatingRun S :=
  if s.size ≤ AUDIT_MAX_LOG_SIZE then s
  else
    { run :=
        { s.run with
          log :=
            { s.run.log with
              disk := { s.run.log.disk with log := some [] }
              worker :=
                { s.run.log.worker with wal := { s.run.log.worker.wal with buffer := [] } } } }
      size := 0
      archived := s.archived ++ [s.run.log.lines] }

/-- The line the worker writes in its next step, if it writes one. -/
def next_line (s : RotatingRun S) (now : F64) : Option S.Line :=
  match s.run.log.worker.phase with
  | .receiving =>
    match s.run.log.queue with
    | .Entry entry _ :: _ => some (entry.line S)
    | _ => none
  | .anchoring event_count heads =>
    if heads.length < AUDIT_SHARDS then none
    else some (S.anchor_line (s.run.log.build_anchor H heads event_count now))
  | _ => none

/-- A step of the worker that does not write a line; opening the file takes its size. -/
def work_quietly (d : Bool × F64) (s : RotatingRun S) : RotatingRun S :=
  { s with
    run := s.run.work H d
    size :=
      match s.run.log.worker.phase with
      | .opening => file_size S (s.run.log.disk.log.getD [])
      | _ => s.size }

def work_writing (d : Bool × F64) (line : S.Line) (s : RotatingRun S) : RotatingRun S :=
  { s with
    run := s.run.work H d
    size := s.size + ((S.as_bytes line).length + 1) }

def work (d : Bool × F64) (s : RotatingRun S) : RotatingRun S :=
  match s.next_line H d.2 with
  | some line => s.maybe_rotate.work_writing H d line
  | none => s.work_quietly H d

end RotatingRun

def rotating_sections : Semantics AuditSection F64 (RotatingRun S) where
  exec tid _ act now s :=
    ({ s with run := (s.run.exec H key tid act now).1 },
      (s.run.exec H key tid act now).2)

/-- Nothing is dropped, and every head read for an anchor is the head written, on a file without
older anchors. -/
def rotating_in_order : Condition AuditSection F64 (RotatingRun S) (Bool × F64) where
  section_ok tid _ act now s := (in_order 1).section_ok tid act now s.run
  daemon_ok d s := (in_order 1).daemon_ok d s.run

instance rotating_section_ok (tid : ℕ) {β : Type} (act : AuditSection β) (now : F64)
    (s : RotatingRun S) : Decidable (rotating_in_order.section_ok tid act now s) :=
  inferInstanceAs (Decidable ((in_order 1).section_ok tid act now s.run))

instance rotating_daemon_ok (d : Bool × F64) (s : RotatingRun S) :
    Decidable (rotating_in_order.daemon_ok d s) :=
  inferInstanceAs (Decidable ((in_order 1).daemon_ok d s.run))

abbrev RotatingPool (S : SerdeJson) := Pool AuditSection (RotatingRun S) (List Unit)

def Phase.rotating_pool (p : Phase) (disk : Disk S) : RotatingPool S :=
  ⟨[p.appender.prog], p.start H key disk,
    if p.opened then file_size S (disk.log.getD []) else 0, []⟩

def Phase.rotating_run (p : Phase) (disk : Disk S) : RotatingPool S :=
  (p.rotating_pool H key disk).run (rotating_sections H key)
    (RotatingRun.work H) p.ticks

end

variable {H : Hashes} {S : SerdeJson} {key : List UInt8}

variable (line : S.Line)

namespace ImmutableAuditLog

variable (log : ImmutableAuditLog S)

def following (archived : List S.Line) : ImmutableAuditLog S :=
  { log with disk := { log.disk with log := some (archived ++ log.disk.log.getD []) } }

variable (archived : List S.Line)

theorem lines_following : (log.following archived).lines = archived ++ log.lines := by
  rw [lines, lines, ← append_assoc]
  rfl

theorem following_flush :
    (log.following archived).flush_and_sync = log.flush_and_sync.following archived := by
  simp [following, flush_and_sync]

theorem following_write_entry (line : S.Line) (event_count : UInt64) (timer : Bool) :
    (log.following archived).write_entry line event_count timer =
      (log.write_entry line event_count timer).following archived := by
  have hworker : (log.following archived).worker = log.worker := rfl
  unfold write_entry
  rw [hworker]
  by_cases hflush : (AUDIT_WAL_FLUSH_EVERY_N_ENTRIES ≤ log.worker.wal.entries_since_flush + 1 ||
      timer) = true
  · rw [if_pos hflush, if_pos hflush, ← following_flush]
    rfl
  · rw [if_neg hflush, if_neg hflush]
    rfl

theorem following_work (timer : Bool) (now : F64) :
    (log.following archived).work H timer now = (log.work H timer now).following archived := by
  have hworker : (log.following archived).worker = log.worker := rfl
  have hqueue : (log.following archived).queue = log.queue := rfl
  unfold work
  rw [hworker]
  rcases log.worker.phase with _ | _ | event_count | ⟨event_count, heads⟩
  · rfl
  · simp only [hqueue]
    rcases log.queue with _ | ⟨entry, queue⟩
    · rfl
    · cases entry with
      | Entry entry event_count =>
        exact congrArg (fun log => log.goto (.wrote event_count))
          (following_write_entry { log with queue } archived (entry.line S) event_count timer)
      | Flush => exact following_flush { log with queue } archived
  · by_cases hdue : (AUDIT_ANCHOR_EVERY_N_EVENTS ≤ log.worker.events_since_anchor + 1 ||
        timer) = true
    · simp only [hdue, if_true]
      rfl
    · simp only [hdue, false_eq_true, if_false]
      rfl
  · by_cases hlt : heads.length < AUDIT_SHARDS
    · simp only [dif_pos hlt]
      rfl
    · simp only [dif_neg hlt]
      exact congrArg (fun log => log.anchor_written (heads_root H heads))
        (following_write_entry { log with anchor_epoch := log.anchor_epoch + 1 } archived _
          event_count timer)

end ImmutableAuditLog

namespace RotatingRun

/-! ## Without rotation -/

variable (d : Bool × F64) (s : RotatingRun S)

theorem work_cases : ((s.work H d).archived = s.archived ∧ (s.work H d).run = s.run.work H d) ∨
      (AUDIT_MAX_LOG_SIZE < s.size ∧ (s.work H d).archived = s.archived ++ [s.run.log.lines]) := by
  unfold work
  cases s.next_line H d.2 with
  | none => exact .inl ⟨rfl, rfl⟩
  | some line =>
    by_cases hsize : s.size ≤ AUDIT_MAX_LOG_SIZE
    · simp only [maybe_rotate, if_pos hsize]
      exact .inl ⟨rfl, rfl⟩
    · simp only [maybe_rotate, if_neg hsize]
      exact .inr ⟨Nat.lt_of_not_le hsize, rfl⟩

variable (q : RotatingPool S)

theorem archived_tick (t : AuditTick)
    (h : (q.tick (rotating_sections H key) (work H) t).state.archived = []) :
    q.state.archived = [] := by
  cases t with
  | daemon d =>
    obtain ⟨hsame, -⟩ | ⟨-, hmore⟩ := work_cases (H := H) d q.state
    · exact hsame.symm.trans h
    · exact absurd (hmore.symm.trans h) (by simp)
  | thread i now =>
    obtain hsame | ⟨γ, act, k, -, hmoved⟩ :=
      tick_thread_cases (rotating_sections H key) (work H) q i now
    · rwa [hsame] at h
    · rwa [hmoved] at h

variable (ticks : List AuditTick)

theorem archived_run (h : (q.run (rotating_sections H key) (work H) ticks).state.archived = []) :
    q.state.archived = [] := by
  induction ticks generalizing q with
  | nil => exact h
  | cons t ticks ih => exact archived_tick q t (ih _ h)

/-- **A run in which nothing was renamed is the run without rotation**, and meets the same
condition. -/
theorem unrotated_run (h : (q.run (rotating_sections H key) (work H) ticks).state.archived = []) :
    let plain (q : RotatingPool S) := Pool.mk q.threads q.state.run
    (plain q).run (audit_sections H key) (AuditRun.work H) ticks =
        plain (q.run (rotating_sections H key) (work H) ticks) ∧
      (q.Respects (rotating_sections H key) (work H) rotating_in_order ticks →
        (plain q).Respects (audit_sections H key) (AuditRun.work H) (in_order 1) ticks) := by
  intro plain
  induction ticks generalizing q with
  | nil => exact ⟨rfl, fun _ => trivial⟩
  | cons t ticks ih =>
    obtain ⟨hrun, hrespects⟩ := ih _ h
    -- the first step renames nothing, since what is renamed stays so
    have hkept := archived_run _ ticks h
    have htick : (plain q).tick (audit_sections H key) (AuditRun.work H) t =
        plain (q.tick (rotating_sections H key) (work H) t) := by
      cases t with
      | daemon d =>
        obtain ⟨-, hsame⟩ | ⟨-, hmore⟩ := work_cases (H := H) d q.state
        · simp only [tick, plain, hsame]
        · exact absurd (hmore.symm.trans hkept) (by simp)
      | thread i now =>
        rcases hi : q.threads[i]? with _ | ⟨a | ⟨act, k⟩⟩
        · simp only [tick, plain, hi]
        · simp only [tick, plain, hi]
        · simp only [tick, plain, hi]
          rfl
    have hallows : q.Allows rotating_in_order t → (plain q).Allows (in_order 1) t := by
      intro hok
      cases t with
      | daemon d => exact hok
      | thread i now =>
        unfold Pool.Allows at hok ⊢
        rcases hi : q.threads[i]? with _ | ⟨a | ⟨act, k⟩⟩
        · simp only [plain, hi]
        · simp only [plain, hi]
        · simp only [plain, hi] at hok ⊢
          exact hok
    constructor
    · show Pool.run _ _ (Pool.tick _ _ _ t) ticks = _
      rw [htick]
      exact hrun
    · intro hok
      refine ⟨hallows hok.1, ?_⟩
      rw [htick]
      exact hrespects hok.2

/-! ## All files together -/

def whole : AuditRun S :=
  { s.run with log := s.run.log.following s.archived.flatten }

def records : ℕ := record_lines S s.whole.log.lines

theorem whole_exec (tid : ℕ) {β : Type} (act : AuditSection β) (now : F64) (s : RotatingRun S) :
    s.whole.exec H key tid act now = (whole ((rotating_sections H key).exec tid act now s).1,
        ((rotating_sections H key).exec tid act now s).2) := by
  cases act with
  | send entry event_count =>
    have hqueue : s.whole.log.queue = s.run.log.queue := rfl
    simp only [rotating_sections, exec, enqueue_wal_line, hqueue]
    by_cases hroom : s.run.log.queue.length < AUDIT_WAL_QUEUE_CAPACITY
    · simp only [if_pos hroom]
      rfl
    · simp only [if_neg hroom]
      rfl
  | load_epoch | reserve | «seal» | publish | load_count | send_flush => rfl

theorem whole_work : s.whole.work H d = whole { s with run := s.run.work H d } := by
  simp only [whole, AuditRun.work, s.run.log.following_work]
  rfl

theorem lines_maybe_rotate : s.maybe_rotate.whole.log.lines = s.whole.log.lines := by
  unfold maybe_rotate
  split
  · rfl
  · simp only [whole, lines_following]
    simp [lines]

theorem maybe_rotate_same : let run := s.maybe_rotate.run
    run.log.queue = s.run.log.queue ∧ run.log.worker.phase = s.run.log.worker.phase ∧
      run.log.global_seq = s.run.log.global_seq ∧ run.written = s.run.written ∧
      run.mine = s.run.mine := by
  unfold maybe_rotate
  split
  · exact ⟨rfl, rfl, rfl, rfl, rfl⟩
  · exact ⟨rfl, rfl, rfl, rfl, rfl⟩

variable {s : RotatingRun S} {run : AuditRun S} {event_count : UInt64} {e : AuditLogEntry}
    {queue : List WalMessage} {disk : Disk S}

theorem honest_maybe_rotate (h : Honest H S key 1 s.whole) : Honest H S key 1 s.maybe_rotate.whole ∧
      s.maybe_rotate.whole.total = s.whole.total := by
  have hlines := s.lines_maybe_rotate
  unfold maybe_rotate at hlines ⊢
  split
  · exact ⟨h, rfl⟩
  · rename_i hsize
    rw [if_neg hsize] at hlines
    refine h.of_same_lines hlines rfl rfl rfl rfl (fun m hm => hm) ?_
    exact h.heads

theorem whole_work_cases (s : RotatingRun S) :
    (s.work H d).whole = s.whole.work H d ∨ (s.work H d).whole = s.maybe_rotate.whole.work H d := by
  unfold work
  cases s.next_line H d.2 with
  | none => exact .inl (whole_work d s).symm
  | some line => exact .inr (whole_work d s.maybe_rotate).symm

theorem honest_work (hS : S.Lawful) (h : Honest H S key 1 s.whole)
    (d : Bool × F64) (hok : rotating_in_order.daemon_ok d s) :
    Honest H S key 1 (s.work H d).whole ∧ (s.work H d).whole.total = s.whole.total := by
  obtain hwork | hwork := whole_work_cases (H := H) d s
  · rw [hwork]
    exact h.work d hS hok
  · obtain ⟨hrotated, htotal⟩ := honest_maybe_rotate h
    have hok' : (in_order 1).daemon_ok d s.maybe_rotate.whole := by
      unfold maybe_rotate
      split
      · exact hok
      · exact hok
    rw [hwork, ← htotal]
    exact hrotated.work d hS hok'

/-! ## The sentinel -/

/-- `not_ahead`, counted over all files. -/
def rotating_not_ahead : Condition AuditSection F64 (RotatingRun S) (Bool × F64) where
  section_ok tid _ act now s := not_ahead.section_ok tid act now s.whole
  daemon_ok _ _ := True

instance (tid : ℕ) {β : Type} (act : AuditSection β) (now : F64) (s : RotatingRun S) :
    Decidable (rotating_not_ahead.section_ok tid act now s) :=
  inferInstanceAs (Decidable (not_ahead.section_ok tid act now s.whole))

instance (d : Bool × F64) (s : RotatingRun S) : Decidable (rotating_not_ahead.daemon_ok d s) :=
  isTrue trivial

theorem sentinelKept_maybe_rotate (h : SentinelKept s.whole.log) :
    SentinelKept s.maybe_rotate.whole.log := by
  have hlines := s.lines_maybe_rotate
  unfold maybe_rotate at hlines ⊢
  split
  · exact h
  · rename_i hsize
    rw [if_neg hsize] at hlines
    refine ⟨hlines ▸ h.covered, hlines ▸ h.pending, hlines ▸ h.phase, fun m hm => ?_⟩
    -- what was in the buffer is on file now
    refine (h.sentinel m hm).trans ?_
    simp [whole, following, lines, record_lines_add]

/-- The log of any number of appenders, without files. -/
def rotating_appenders (H : Hashes) (S : SerdeJson) (appenders : List Appender) : RotatingPool S :=
  ⟨appenders.map Appender.prog, .fresh H S, 0, []⟩

/-! ## What the sentinel counts -/

/-- **The counts.** No event count on its way to the sentinel is below the records written by then.
-/
structure Counted (s : RotatingRun S) : Prop where
  queued : ∀ before entry event_count rest,
    s.run.log.queue = before ++ .Entry entry event_count :: rest →
      s.records + (before.filterMap WalMessage.entry?).length < event_count.toNat
  held : ∀ event_count, s.run.log.worker.phase.count? = some event_count →
    0 < s.records ∧ s.records ≤ event_count.toNat
  pending : s.run.log.worker.wal.buffer ≠ [] ∨ s.archived ≠ [] →
    s.records ≤ s.run.log.worker.wal.pending_event_count.toNat
  sentinel : s.archived ≠ [] → s.run.log.worker.wal.buffer = [] →
    s.run.log.disk.sentinel = some s.run.log.worker.wal.pending_event_count
  size : s.run.log.worker.phase ≠ .opening → s.size = file_size S s.run.log.lines
  first : s.whole.log.lines ≠ [] → 0 < s.records
  gone : s.archived ≠ [] → 0 < record_lines S s.archived.flatten
  opening : s.run.log.worker.phase = .opening →
    s.run.log.worker.wal.buffer = [] ∧ s.archived = []
  live : s.run.log.worker.phase ≠ .opening → s.run.log.disk.log.isSome = true

theorem maybe_rotate_spec (h : s.Counted) (hopen : s.run.log.worker.phase ≠ .opening) :
    s.maybe_rotate.size = file_size S s.maybe_rotate.run.log.lines ∧
      s.maybe_rotate.run.log.disk.log.isSome = true ∧
      (s.maybe_rotate.archived ≠ [] → 0 < record_lines S s.maybe_rotate.archived.flatten) := by
  unfold maybe_rotate
  split
  · exact ⟨h.size hopen, h.live hopen, h.gone⟩
  · rename_i hsize
    refine ⟨rfl, rfl, fun _ => ?_⟩
    have hlines : s.run.log.lines ≠ [] := by
      intro hnil
      rw [h.size hopen, hnil] at hsize
      exact hsize (zero_le _)
    have hwhole : s.archived.flatten ++ s.run.log.lines = s.whole.log.lines := by
      rw [whole, lines_following]
    have hne : s.whole.log.lines ≠ [] := by
      rw [← hwhole]
      exact append_ne_nil_of_right_ne_nil _ hlines
    have hpos := h.first hne
    rw [flatten_append, flatten_singleton, hwhole]
    exact hpos

open RotatingRun

theorem write_entry_wal (log : ImmutableAuditLog S) (line : S.Line) (event_count : UInt64)
    (timer : Bool) :
    let written := log.write_entry line event_count timer
    written.worker.wal.pending_event_count = event_count ∧
      (written.worker.wal.buffer = [] → written.disk.sentinel = some event_count) ∧
      (log.disk.log.isSome = true → written.disk.log.isSome = true) := by
  unfold write_entry
  split
  · exact ⟨rfl, fun _ => rfl, fun _ => rfl⟩
  · refine ⟨rfl, ?_, fun hsome => hsome⟩
    intro hbuffer
    exact absurd hbuffer (concat_ne_nil line _)

theorem Counted.write (h : s.Counted) (hopen : s.run.log.worker.phase ≠ .opening) {line : S.Line}
    (log : ImmutableAuditLog S) (timer : Bool) (hbefore : log.lines = s.maybe_rotate.run.log.lines)
    (hlog : log.disk = s.maybe_rotate.run.log.disk)
    (hdisk : run.log.disk = (log.write_entry line event_count timer).disk)
    (hwal : run.log.worker.wal = (log.write_entry line event_count timer).worker.wal)
    (hpos : 0 < record_lines S (s.whole.log.lines ++ [line]))
    (hcount : record_lines S (s.whole.log.lines ++ [line]) ≤ event_count.toNat)
    (hphase : run.log.worker.phase ≠ .opening)
    (hheld : ∀ c, run.log.worker.phase.count? = some c → c = event_count)
    (hqueue : ∀ before entry c rest, run.log.queue = before ++ .Entry entry c :: rest →
      record_lines S (s.whole.log.lines ++ [line]) + (before.filterMap entry?).length < c.toNat) :
    Counted ⟨run, s.maybe_rotate.size + ((S.as_bytes line).length + 1),
      s.maybe_rotate.archived⟩ := by
  obtain ⟨hsize, hsome, hgone⟩ := maybe_rotate_spec h hopen
  have hlines : run.log.lines = s.maybe_rotate.run.log.lines ++ [line] := by
    rw [lines, hdisk, hwal, ← hbefore]
    exact (write_entry_spec log line event_count timer).2.1
  obtain ⟨hpending, hflushed, hlive⟩ := write_entry_wal log line event_count timer
  rw [← hwal] at hpending
  rw [← hwal, ← hdisk] at hflushed
  rw [hlog, ← hdisk] at hlive
  have hrecords : records ⟨run, s.maybe_rotate.size + ((S.as_bytes line).length + 1),
      s.maybe_rotate.archived⟩ = record_lines S (s.whole.log.lines ++ [line]) := by
    rw [records, ← lines_maybe_rotate s]
    simp only [whole, lines_following, hlines, append_assoc]
  constructor
  · rw [hrecords]
    exact hqueue
  · intro c hc
    rw [hrecords, hheld c hc]
    exact ⟨hpos, hcount⟩
  · intro _
    rw [hrecords, hpending]
    exact hcount
  · intro _ hbuffer
    rw [hpending]
    exact hflushed hbuffer
  · intro _
    rw [hlines, hsize]
    simp [file_size]
  · intro _
    rw [hrecords]
    exact hpos
  · exact hgone
  · intro hopening
    exact absurd hopening hphase
  · exact fun _ => hlive hsome

theorem records_entry (hS : S.Lawful) (hhonest : Honest H S key 1 s.whole)
    (hqueue : s.run.log.queue = .Entry e event_count :: queue) :
    record_lines S (s.whole.log.lines ++ [e.line S]) = s.records + 1 := by
  have hinflight : s.whole.inflight = e :: (queue.filterMap entry? ++ s.whole.unsent.map snd) := by
    have hwhole : s.whole.log.queue = .Entry e event_count :: queue := hqueue
    rw [inflight, hwhole]
    rfl
  have hlink := hhonest.chain e.shard
  rw [inflight_of, hinflight, filter_cons_of_pos (by simp)] at hlink
  rw [record_lines_append (entry_line_ne_nil hS e), is_record_line_entry hS hlink.1, if_pos rfl]
  rfl

theorem records_anchor (hS : S.Lawful) (s : RotatingRun S) (a : MerkleAnchor) :
    record_lines S (s.whole.log.lines ++ [S.anchor_line a]) = s.records := by
  rw [record_lines_append (anchor_line_ne_nil hS a), is_record_line_anchor hS a]
  rfl

variable (h : s.Counted)
include h

theorem Counted.of_quiet (hlines : run.log.lines = s.run.log.lines)
    (hqueue : ∀ before entry event_count rest,
      run.log.queue = before ++ .Entry entry event_count :: rest →
        s.records + (before.filterMap entry?).length < event_count.toNat)
    (hheld : ∀ c, run.log.worker.phase.count? = some c → s.run.log.worker.phase.count? = some c)
    (hpending : run.log.worker.wal.pending_event_count = s.run.log.worker.wal.pending_event_count)
    (hbuffer : run.log.worker.wal.buffer ≠ [] → s.run.log.worker.wal.buffer ≠ [])
    (hsentinel : s.archived ≠ [] → run.log.worker.wal.buffer = [] →
      run.log.disk.sentinel = some run.log.worker.wal.pending_event_count) {size : ℕ}
    (hopening : run.log.worker.phase = .opening → run.log.worker.wal.buffer = [] ∧ s.archived = [])
    (hopen : run.log.worker.phase ≠ .opening →
      run.log.disk.log.isSome = true ∧ size = file_size S s.run.log.lines) :
    Counted ⟨run, size, s.archived⟩ := by
  have hwhole : (whole ⟨run, size, s.archived⟩).log.lines = s.whole.log.lines := by
    simp only [whole, lines_following, hlines]
  have hrecords : records ⟨run, size, s.archived⟩ = s.records := by
    rw [records, records, hwhole]
  constructor
  · rw [hrecords]
    exact hqueue
  · rw [hrecords]
    exact fun c hc => h.held c (hheld c hc)
  · rw [hrecords, hpending]
    exact fun hsome => h.pending (hsome.imp_left hbuffer)
  · exact hsentinel
  · rw [hlines]
    exact fun hphase => (hopen hphase).2
  · rw [hrecords, hwhole]
    exact h.first
  · exact h.gone
  · exact hopening
  · exact fun hphase => (hopen hphase).1

theorem Counted.of_queue (hworker : run.log.worker = s.run.log.worker)
    (hdisk : run.log.disk = s.run.log.disk) (hqueue : ∀ before entry event_count rest,
      run.log.queue = before ++ .Entry entry event_count :: rest →
        s.records + (before.filterMap entry?).length < event_count.toNat) :
    Counted { s with run } := by
  refine h.of_quiet ?_ hqueue ?_ ?_ ?_ ?_ ?_ ?_
  · rw [lines, lines, hworker, hdisk]
  all_goals rw [hworker]
  · exact fun _ hc => hc
  · exact fun hne => hne
  · rw [hdisk]
    exact h.sentinel
  · exact h.opening
  · rw [hdisk]
    exact fun hphase => ⟨h.live hphase, h.size hphase⟩

theorem Counted.of_goto (hopen : s.run.log.worker.phase ≠ .opening) {worker : WalWorker S}
    {phase : WorkerPhase}
    (hlog : run.log = ({ s.run.log with worker } : ImmutableAuditLog S).goto phase)
    (hwal : worker.wal = s.run.log.worker.wal) (hphase : phase ≠ .opening)
    (hheld : ∀ c, phase.count? = some c → s.run.log.worker.phase.count? = some c) :
    Counted ⟨run, s.size, s.archived⟩ := by
  have hwal' : run.log.worker.wal = s.run.log.worker.wal := by
    rw [hlog]
    exact hwal
  have hdisk : run.log.disk = s.run.log.disk := by
    rw [hlog]
    rfl
  refine h.of_quiet ?_ ?_ ?_ ?_ ?_ ?_ ?_ fun _ => ⟨hdisk ▸ h.live hopen, h.size hopen⟩
  · rw [lines, lines, hdisk, hwal']
  · rw [hlog]
    exact h.queued
  · rw [hlog]
    exact hheld
  · rw [hwal']
  · rw [hwal']
    exact fun hne => hne
  · rw [hwal', hdisk]
    exact h.sentinel
  · rw [hlog]
    exact fun hopening => absurd hopening hphase

omit h

theorem Counted.work_entry (hS : S.Lawful) (h : s.Counted)
    (hhonest : Honest H S key 1 s.whole) (hphase : s.run.log.worker.phase = .receiving)
    (hqueue : s.run.log.queue = .Entry e event_count :: queue) (d : Bool × F64) :
    (s.work H d).Counted := by
  obtain ⟨hqueue', hphase', -, -, -⟩ := s.maybe_rotate_same
  rw [hqueue] at hqueue'
  rw [hphase] at hphase'
  have hwork : s.work H d = s.maybe_rotate.work_writing H d (e.line S) := by
    simp only [work, next_line, hphase, hqueue]
  have hlog : (s.maybe_rotate.run.work H d).log =
      (({ s.maybe_rotate.run.log with queue } : ImmutableAuditLog S).write_entry (e.line S)
        event_count d.1).goto (.wrote event_count) := by
    simp only [AuditRun.work, ImmutableAuditLog.work, hphase', hqueue']
  have hrecords := records_entry hS hhonest hqueue
  have hfront := h.queued [] e event_count queue hqueue
  have hcount : record_lines S (s.whole.log.lines ++ [e.line S]) ≤ event_count.toNat := by
    rw [hrecords]
    exact hfront
  have hopen : s.run.log.worker.phase ≠ .opening := by
    rw [hphase]
    rintro ⟨⟩
  rw [hwork]
  refine h.write hopen { s.maybe_rotate.run.log with queue } d.1 rfl rfl ?_ ?_
    (by rw [hrecords]; exact succ_pos _) hcount ?_ ?_ ?_
  all_goals rw [hlog]
  · rfl
  · rfl
  · rintro ⟨⟩
  · exact fun c hc => (some.inj hc).symm
  · -- the rest of the queue has moved up by one
    intro before entry c rest hrest
    have hrest' : queue = before ++ .Entry entry c :: rest :=
      (write_entry_spec ..).1.queue.symm.trans hrest
    have hlater := h.queued (.Entry e event_count :: before) entry c rest
      (by rw [hqueue, hrest']; rfl)
    have hlen : ((WalMessage.Entry e event_count :: before).filterMap entry?).length =
        (before.filterMap entry?).length + 1 := rfl
    rw [hlen] at hlater
    rw [hrecords]
    omega

theorem Counted.work_anchor (hS : S.Lawful) (h : s.Counted) {heads : List Text}
    (hphase : s.run.log.worker.phase = .anchoring event_count heads)
    (hlt : ¬ heads.length < AUDIT_SHARDS) (d : Bool × F64) : (s.work H d).Counted := by
  obtain ⟨hqueue', hphase', -, -, -⟩ := s.maybe_rotate_same
  rw [hphase] at hphase'
  have hanchor : s.maybe_rotate.run.log.build_anchor H heads event_count d.2 =
      s.run.log.build_anchor H heads event_count d.2 := by
    unfold maybe_rotate
    split
    · rfl
    · rfl
  have hwork : s.work H d = s.maybe_rotate.work_writing H d
      (S.anchor_line (s.run.log.build_anchor H heads event_count d.2)) := by
    simp only [work, next_line, hphase, if_neg hlt]
  generalize s.run.log.build_anchor H heads event_count d.2 = anchor at hanchor hwork
  let log : ImmutableAuditLog S :=
    { s.maybe_rotate.run.log with anchor_epoch := s.maybe_rotate.run.log.anchor_epoch + 1 }
  have hlog : (s.maybe_rotate.run.work H d).log =
      (log.write_entry (S.anchor_line anchor) event_count d.1).anchor_written
        (heads_root H heads) := by
    simp only [AuditRun.work, ImmutableAuditLog.work, hphase', dif_neg hlt, write_anchor, hanchor,
      log]
  have hrecords := records_anchor hS s anchor
  have hheld := h.held event_count (by rw [hphase]; rfl)
  have hopen : s.run.log.worker.phase ≠ .opening := by
    rw [hphase]
    rintro ⟨⟩
  rw [hwork]
  refine h.write hopen log d.1 rfl rfl ?_ ?_ (by rw [hrecords]; exact hheld.1)
    (by rw [hrecords]; exact hheld.2) ?_ ?_ ?_
  all_goals rw [hlog]
  · rfl
  · rfl
  · rintro ⟨⟩
  · rintro _ ⟨⟩
  · intro before entry c rest hrest
    rw [hrecords]
    exact h.queued before entry c rest
      (hqueue'.symm.trans ((write_entry_spec log _ _ _).1.queue.symm.trans hrest))

/-- A step in which no line is written. -/
theorem Counted.work_quiet (h : s.Counted) (hnext : s.next_line H d.2 = none) :
    (s.work H d).Counted := by
  have hwork : s.work H d = s.work_quietly H d := by rw [work, hnext]
  rw [hwork, work_quietly]
  rcases hphase : s.run.log.worker.phase with _ | _ | event_count | ⟨event_count, heads⟩
  · obtain ⟨hbuffer, hnone⟩ := h.opening hphase
    have hlog : (s.run.work H d).log = s.run.log.open_file := by
      simp only [AuditRun.work, ImmutableAuditLog.work, hphase]
    refine h.of_quiet ?_ ?_ ?_ ?_ ?_ ?_ ?_ ?_
    all_goals rw [hlog]
    · rfl
    · exact h.queued
    · rintro _ ⟨⟩
    · rfl
    · exact fun hne => hne
    · exact fun hsome => absurd hnone hsome
    · rintro ⟨⟩
    · rw [lines, hbuffer, append_nil]
      exact fun _ => ⟨rfl, rfl⟩
  · have hsize := h.size (by rw [hphase]; rintro ⟨⟩)
    rcases hqueue : s.run.log.queue with _ | ⟨_ | _, queue⟩
    · have hrun : s.run.work H d = s.run := by
        simp only [AuditRun.work, ImmutableAuditLog.work, hphase, hqueue]
      rw [hrun]
      exact h
    · simp only [next_line, hphase, hqueue] at hnext
      cases hnext
    · have hlog : (s.run.work H d).log =
          ({ s.run.log with queue } : ImmutableAuditLog S).flush_and_sync := by
        simp only [AuditRun.work, ImmutableAuditLog.work, hphase, hqueue]
      refine h.of_quiet ?_ ?_ ?_ ?_ ?_ ?_ ?_ fun _ => ⟨?_, hsize⟩
      all_goals rw [hlog]
      · exact lines_flush_and_sync _
      · intro before entry c rest hrest
        have hrest' : queue = before ++ .Entry entry c :: rest := hrest
        exact h.queued (.Flush :: before) entry c rest (by rw [hqueue, hrest']; rfl)
      · exact fun c hc => hc
      · rfl
      · exact fun hne => absurd rfl hne
      · exact fun _ _ => rfl
      · intro hopening
        cases hphase.symm.trans hopening
      · rfl
  · obtain ⟨phase, hlog, hnew⟩ : ∃ phase, (s.run.work H d).log = ({ s.run.log with
        worker := { s.run.log.worker with
          events_since_anchor := s.run.log.worker.events_since_anchor + 1 } } :
        ImmutableAuditLog S).goto phase ∧
          (phase = .anchoring event_count [] ∨ phase = .receiving) := by
      simp only [AuditRun.work, ImmutableAuditLog.work, hphase]
      split
      · exact ⟨_, rfl, .inl rfl⟩
      · exact ⟨_, rfl, .inr rfl⟩
    have hopen : s.run.log.worker.phase ≠ .opening := by
      rw [hphase]
      rintro ⟨⟩
    obtain rfl | rfl := hnew
    · refine h.of_goto hopen hlog rfl (by rintro ⟨⟩) ?_
      rw [hphase]
      exact fun c hc => hc
    · exact h.of_goto hopen hlog rfl (by rintro ⟨⟩) (by rintro _ ⟨⟩)
  · have hlt : heads.length < AUDIT_SHARDS := by
      by_contra hnot
      simp only [next_line, hphase, if_neg hnot] at hnext
      cases hnext
    have hlog : (s.run.work H d).log = s.run.log.goto
        (.anchoring event_count (heads ++ [s.run.log.shard_heads ⟨heads.length, hlt⟩])) := by
      simp only [AuditRun.work, ImmutableAuditLog.work, hphase, dif_pos hlt]
    refine h.of_goto (by rw [hphase]; rintro ⟨⟩) hlog rfl (by rintro ⟨⟩) ?_
    rw [hphase]
    exact fun c hc => hc

theorem Counted.work (hS : S.Lawful) (h : s.Counted) (hhonest : Honest H S key 1 s.whole)
    (d : Bool × F64) : (s.work H d).Counted := by
  cases hnext : s.next_line H d.2 with
  | none => exact h.work_quiet d hnext
  | some line =>
    unfold next_line at hnext
    split at hnext
    · rename_i hphase
      split at hnext
      · rename_i hqueue
        exact h.work_entry hS hhonest hphase hqueue d
      · cases hnext
    · rename_i hphase
      split_ifs at hnext with hlt
      exact h.work_anchor hS hphase hlt d
    · cases hnext

/-! ## The appender -/

/-- What the thread has under way is its own, and the number of events is what it has made it. -/
def counting_protocol (H : Hashes) (S : SerdeJson) (issuer_secret : List UInt8) :
    Protocol (RotatingRun S) where
  inv s := Honest H S issuer_secret 1 s.whole ∧ s.Counted
  rely i s s' := i = 0 → s'.run.mine 0 = s.run.mine 0 ∧ s'.whole.total = s.whole.total ∧
    s'.run.log.global_seq = s.run.log.global_seq
  rely_refl _ _ _ := ⟨rfl, rfl, rfl⟩
  rely_trans h h' hi :=
    ⟨(h' hi).1.trans (h hi).1, (h' hi).2.1.trans (h hi).2.1, (h' hi).2.2.trans (h hi).2.2⟩

/-- The number of events is the number of records written, on their way, or reserved. -/
def Knows (mine : ℕ × List AuditLogEntry) (m : ℕ) (s : RotatingRun S) : Prop :=
  s.run.mine 0 = mine ∧ s.whole.total = m ∧ s.run.log.global_seq.toNat = m

theorem stable_knows (mine : ℕ × List AuditLogEntry) (m : ℕ) :
    (counting_protocol H S key).Stable 0 (Knows mine m) := by
  intro s s' hrely hknows
  obtain ⟨hmine, htotal, hseq⟩ := hrely rfl
  obtain ⟨hmine', htotal', hseq'⟩ := hknows
  refine ⟨hmine.trans hmine', htotal.trans htotal', ?_⟩
  rw [hseq, hseq']

theorem mem_concat {α : Type} {l before rest : List α} {x y : α}
    (h : l ++ [x] = before ++ y :: rest) :
    (before = l ∧ y = x) ∨ ∃ rest', l = before ++ y :: rest' := by
  rcases eq_nil_or_concat rest with rfl | ⟨rest', z, rfl⟩
  · obtain ⟨hbefore, hlast⟩ := append_inj' h rfl
    exact .inl ⟨hbefore.symm, (singleton_inj.mp hlast).symm⟩
  · rw [concat_eq_append, ← cons_append, ← append_assoc] at h
    exact .inr ⟨rest', (append_inj' h rfl).1⟩

theorem Counted.send (h : s.Counted)
    (hunsent : 0 < s.run.unsent.length) (hcount : event_count.toNat = s.whole.total)
    (hlog : run.log = { s.run.log with queue := s.run.log.queue ++ [.Entry e event_count] }) :
    Counted { s with run } := by
  refine h.of_queue (by rw [hlog]) (by rw [hlog]) ?_
  intro before entry c rest hqueue
  rw [hlog] at hqueue
  obtain ⟨rfl, hlast⟩ | ⟨rest', hrest⟩ := mem_concat hqueue
  · obtain ⟨-, rfl⟩ := WalMessage.Entry.inj hlast
    have hparts : s.whole.total = s.records + ((s.run.log.queue.filterMap entry?) ++
          s.run.unsent.map snd).length + s.run.reserved.length := rfl
    rw [length_append, length_map] at hparts
    omega
  · exact h.queued before entry c rest' hrest

def Counts {α : Type} (H : Hashes) (issuer_secret : List UInt8) (post : RotatingRun S → Prop)
    (p : Prog AuditSection α) (s : RotatingRun S) : Prop :=
  p.Safe (rotating_sections H issuer_secret) rotating_in_order
    (counting_protocol H S issuer_secret) 0 (fun _ => post) s

variable (i : ShardIdx)

theorem append_counts (ev : AuditEvent) {m : ℕ} (hm : m + 1 < 2 ^ 64) (hs : Knows (0, []) m s) :
    Counts H key (Knows (0, []) (m + 1)) (append_event_inner i ev) s := by
  refine Prog.Safe.step_to (fun _ => Knows (0, []) m) (stable_knows _ _) ?_ ?_ hs
  · intro s' _ hinv hknows _
    exact ⟨hinv, fun j hj h0 => absurd h0 hj, hknows⟩
  intro epoch s₁ hs₁
  refine Prog.Safe.step_to (fun _ => Knows (1, []) (m + 1)) (stable_knows _ _) ?_ ?_ hs₁
  · intro s' now ⟨hhonest, hcounted⟩ ⟨hmine, htotal, hseq⟩ _
    have hreserve := hhonest.reserve one_pos now
    rw [whole_exec] at hreserve
    refine ⟨⟨hreserve.1, hcounted.of_queue rfl rfl hcounted.queued⟩,
      fun j hj h0 => absurd h0 hj, ?_, ?_, ?_⟩
    · obtain ⟨hres, hunsent⟩ := Prod.mk.inj hmine
      show ((0 :: s'.run.reserved).count 0, _) = _
      rw [count_cons_self, hres]
      exact congrArg _ hunsent
    · rw [hreserve.2, htotal]
    · show (s'.run.log.global_seq + 1).toNat = m + 1
      rw [UInt64.toNat_add, hseq]
      exact mod_eq_of_lt hm
  intro seq s₂ hs₂
  refine Prog.Safe.step_to (fun e => Knows (0, [e]) (m + 1)) (stable_knows _ _) ?_ ?_ hs₂
  · intro s' now ⟨hhonest, hcounted⟩ ⟨hmine, htotal, hseq⟩ _
    have hres : 0 ∈ s'.whole.reserved := by
      show 0 ∈ s'.run.reserved
      rw [← count_pos_iff, (Prod.mk.inj hmine).1]
      exact one_pos
    have hsealed := hhonest.seal hres i ev epoch seq now
    rw [whole_exec] at hsealed
    refine ⟨⟨hsealed.1, hcounted.of_queue rfl rfl hcounted.queued⟩,
      fun j hj h0 => absurd h0 hj, ?_, hsealed.2.trans htotal, hseq⟩
    exact mine_seal_self H key hmine i ev epoch seq now
  intro e s₃ hs₃
  refine Prog.Safe.step_to (fun _ => Knows (0, [e]) (m + 1)) (stable_knows _ _) ?_ ?_ hs₃
  · intro s' now ⟨hhonest, hcounted⟩ hknows _
    have hpublished := hhonest.publish 0 i e.chain_hash now
    rw [whole_exec] at hpublished
    exact ⟨⟨hpublished, hcounted.of_queue rfl rfl hcounted.queued⟩,
      fun j hj h0 => absurd h0 hj, hknows⟩
  intro _ s₄ hs₄
  refine Prog.Safe.step_to
    (fun event_count s => Knows (0, [e]) (m + 1) s ∧ event_count.toNat = m + 1)
    (stable_knows _ _) ?_ ?_ hs₄
  · intro s' now hinv hknows _
    exact ⟨hinv, fun j hj h0 => absurd h0 hj, hknows, hknows.2.2⟩
  intro event_count s₅ ⟨hs₅, hcount⟩
  refine Prog.Safe.step_to (fun _ => Knows (0, []) (m + 1)) (stable_knows _ _) ?_ ?_ hs₅
  · intro s' now ⟨hhonest, hcounted⟩ ⟨hmine, htotal, hseq⟩ hok
    have hle : event_count.toNat ≤ s'.whole.total := by rw [htotal, hcount]
    have hsent := hhonest.send (congrArg snd hmine) hle hok.1 (.inl (le_refl 1)) now
    rw [whole_exec] at hsent
    have hlog : (s'.run.exec H key 0 (.send e event_count) now).1.log =
        { s'.run.log with queue := s'.run.log.queue ++ [.Entry e event_count] } := if_pos hok.1
    have hunsent : 0 < s'.run.unsent.length := by
      obtain ⟨l₁, l₂, hl, -, -⟩ := split_unsent (congrArg snd hmine)
      rw [hl, length_append, length_cons]
      omega
    refine ⟨⟨hsent.1, hcounted.send hunsent (hcount.trans htotal.symm) hlog⟩,
      fun j hj h0 => absurd h0 hj, ?_, hsent.2.trans htotal, ?_⟩
    · exact mine_send_self H key hmine e event_count now
    · show (s'.run.exec H key 0 (.send e event_count) now).1.log.global_seq.toNat = _
      rw [hlog]
      exact hseq
  intro _ s₆ hs₆
  exact Prog.Safe.ret_of_stable (stable_knows _ _) (fun _ h => h) hs₆

theorem flush_counts {m : ℕ} (hs : Knows (0, []) m s) :
    Counts H key (Knows (0, []) m) (AuditCall.prog i .flush) s := by
  refine Prog.Safe.step_to (fun _ => Knows (0, []) m) (stable_knows _ _) ?_ ?_ hs
  · intro s' now ⟨hhonest, hcounted⟩ ⟨hmine, htotal, hseq⟩ _
    have hsent := hhonest.send_flush 0 now
    rw [whole_exec] at hsent
    refine ⟨⟨hsent.1, hcounted.of_queue rfl rfl ?_⟩, fun j hj h0 => absurd h0 hj,
      hmine, hsent.2.trans htotal, hseq⟩
    intro before entry c rest hqueue
    obtain ⟨-, hlast⟩ | ⟨rest', hrest⟩ := mem_concat hqueue
    · cases hlast
    · exact hcounted.queued before entry c rest' hrest
  intro _ s₁ hs₁
  exact Prog.Safe.ret_of_stable (stable_knows _ _) (fun _ h => h) hs₁

theorem appender_counts (a : Appender) {m : ℕ} (hm : m + a.calls.length < 2 ^ 64)
    (hs : Knows (0, []) m s) : Counts H key (fun _ => True) a.prog s := by
  obtain ⟨i, calls⟩ := a
  simp only [Appender.prog]
  induction calls generalizing m s with
  | nil => exact fun _ _ _ => trivial
  | cons call calls ih =>
    have hnext : m + 1 + calls.length < 2 ^ 64 := by
      rw [length_cons] at hm
      omega
    have hsame : m + calls.length < 2 ^ 64 := by omega
    cases call with
    | append ev =>
      refine Prog.Safe.bind (append_counts i ev (by omega) hs) fun _ t _ ht => ?_
      refine Prog.Safe.bind (ih ht hnext) fun _ t' _ _ => ?_
      exact fun _ _ _ => trivial
    | flush =>
      refine Prog.Safe.bind (flush_counts i hs) fun _ t _ ht => ?_
      refine Prog.Safe.bind (ih ht hsame) fun _ t' _ _ => ?_
      exact fun _ _ _ => trivial

/-! ## Whole runs -/

/-- **A log that has been rotated does not verify**, once it has drained. -/
theorem Counted.fails (h : s.Counted) (hdrained : s.run.log.drained = true)
    (hgone : s.archived ≠ []) :
    s.run.log.disk.log.isSome = true ∧ ∀ global_seq,
      verify_chain_disk H S key s.run.log.disk global_seq = false := by
  simp only [drained, and_eq_true, List.isEmpty_iff] at hdrained
  obtain ⟨⟨-, hbuffer⟩, -⟩ := hdrained
  have hlive : s.run.log.disk.log.isSome = true := by
    apply h.live
    intro hopening
    exact hgone (h.opening hopening).2
  refine ⟨hlive, ?_⟩
  obtain ⟨content, hcontent⟩ := isSome_iff_exists.mp hlive
  have hsentinel := h.sentinel hgone hbuffer
  have hcount := h.pending (.inr hgone)
  have hold := h.gone hgone
  have hrecords : s.records = record_lines S s.archived.flatten + record_lines S content := by
    rw [records, whole, lines_following, lines, hbuffer,
      List.append_nil, hcontent, getD_some, record_lines_add]
  intro global_seq
  rw [← not_eq_true]
  intro hverify
  have hdisk : s.run.log.disk = ⟨some content, some s.run.log.worker.wal.pending_event_count⟩ := by
    rw [← hcontent, ← hsentinel]
  rw [hdisk] at hverify
  have hlow := ((verify_chain_disk_iff _ _ _).mp hverify).2 _ rfl
  omega

theorem initialized_ne_ok (hlive : disk.log.isSome = true)
    (hfails : ∀ global_seq, verify_chain_disk H S key disk global_seq = false)
    (next : Phase) : (next.initialized H key disk).2 ≠ .ok () := by
  have hboot : (boot H S next.opened disk).disk = disk := by
    obtain ⟨content, hcontent⟩ := isSome_iff_exists.mp hlive
    cases next.opened with
    | false => rfl
    | true =>
      show ({ disk with log := some (disk.log.getD []) } : Disk S) = disk
      rw [hcontent, getD_some, ← hcontent]
  have hnext : ¬ verify_chain_disk H S key (boot H S next.opened disk).disk
      (boot H S next.opened disk).global_seq = true := by
    rw [hboot, not_eq_true]
    exact hfails _
  rw [initialized, ImmutableAuditLog.initialize_chain, if_neg hnext]
  rintro ⟨⟩

theorem initialize_chain_rest (H : Hashes) (key : List UInt8) (log : ImmutableAuditLog S) :
    let log' := (log.initialize_chain H S key).1
    log'.queue = log.queue ∧ log'.worker = log.worker ∧ log'.disk = log.disk ∧
      log'.dropped_audits = log.dropped_audits ∧
      (log.disk.log.getD [] = [] → log.global_seq = 0 → log'.global_seq = 0) := by
  unfold ImmutableAuditLog.initialize_chain
  split
  · cases hlog : log.disk.log with
    | none => exact ⟨rfl, rfl, rfl, rfl, fun _ hzero => hzero⟩
    | some content =>
      refine ⟨rfl, rfl, rfl, rfl, ?_⟩
      rintro rfl _
      rfl
  · exact ⟨rfl, rfl, rfl, rfl, fun _ _ => rfl⟩

theorem counted_start (H : Hashes) (key : List UInt8) (hempty : disk.log.getD [] = []) (p : Phase) :
    (p.rotating_pool H key disk).state.Counted ∧
      Knows (0, []) 0 (p.rotating_pool H key disk).state := by
  obtain ⟨hqueue, hworker, hdisk, -, hseq⟩ := initialize_chain_rest H key (boot H S p.opened disk)
  obtain ⟨hzero, hnoqueue, hwal, hcount, -⟩ := boot_rest (H := H) p.opened disk
  have hfile := (boot_disk (H := H) p.opened disk).1.trans hempty
  generalize hlog : (p.initialized H key disk).1 = log
  rw [← initialized, hlog] at hqueue hworker hdisk hseq
  rw [hnoqueue] at hqueue
  have hstate : (p.rotating_pool H key disk).state = ⟨.start log disk.anchored, 0, []⟩ := by
    have hsize : (if p.opened then file_size S (disk.log.getD []) else 0) = 0 := by
      rw [hempty]
      exact ite_self 0
    rw [Phase.rotating_pool, Phase.start, hlog, hsize]
  have hlines : log.lines = [] := by
    rw [lines, hworker, hdisk, hwal, hfile]
    rfl
  have hwhole : (whole ⟨.start log disk.anchored, 0, []⟩).log.lines = [] := by
    rw [whole, lines_following]
    exact hlines
  have hrecords : records ⟨.start log disk.anchored, 0, []⟩ = 0 := by
    rw [records, hwhole]
    rfl
  rw [hstate]
  refine ⟨?_, rfl, ?_, ?_⟩
  · constructor
    · intro before entry event_count rest hsplit
      exact absurd (hqueue.symm.trans hsplit) (by simp)
    · intro event_count hheld
      rw [show (start log disk.anchored).log.worker = _ from hworker, hcount] at hheld
      cases hheld
    · rintro (hbuffer | hgone)
      · rw [show (start log disk.anchored).log.worker = _ from hworker, hwal] at hbuffer
        exact absurd rfl hbuffer
      · exact absurd rfl hgone
    · exact fun hgone => absurd rfl hgone
    · intro _
      show 0 = file_size S log.lines
      rw [hlines]
      rfl
    · exact fun hne => absurd hwhole hne
    · exact fun hgone => absurd rfl hgone
    · intro _
      show log.worker.wal.buffer = [] ∧ _
      rw [hworker, hwal]
      exact ⟨rfl, rfl⟩
    · intro hphase
      change log.worker.phase ≠ _ at hphase
      show log.disk.log.isSome = true
      rw [hworker] at hphase
      rw [hdisk]
      cases hopened : p.opened with
      | true => rfl
      | false =>
        rw [hopened] at hphase
        exact absurd rfl hphase
  · have hparts : (whole ⟨.start log disk.anchored, 0, []⟩).total =
        records ⟨.start log disk.anchored, 0, []⟩ +
          (log.queue.filterMap entry? ++ []).length + 0 := rfl
    rw [hparts, hrecords, hqueue]
    rfl
  · show log.global_seq.toNat = 0
    rw [hseq hfile hzero]
    rfl

theorem work_rest (s : RotatingRun S) : (s.work H d).run.mine = s.run.mine ∧
      (s.work H d).run.log.global_seq = s.run.log.global_seq := by
  have hplain : ∀ run : AuditRun S, (run.work H d).mine = run.mine ∧
      (run.work H d).log.global_seq = run.log.global_seq :=
    fun run => ⟨rfl, (run.log.work_chains d.1 d.2).2⟩
  obtain ⟨-, -, hseq, -, hmine⟩ := s.maybe_rotate_same
  unfold work
  cases s.next_line H d.2 with
  | none => exact hplain s.run
  | some line =>
    obtain ⟨hmine', hseq'⟩ := hplain s.maybe_rotate.run
    exact ⟨hmine'.trans hmine, hseq'.trans hseq⟩

theorem counted_run (hS : S.Lawful) (hsound : disk.Sound H key)
    (hempty : disk.log.getD [] = []) (p : Phase) (hfew : p.appender.calls.length < 2 ^ 64)
    (hok : (p.rotating_pool H key disk).Respects (rotating_sections H key)
      (work H) rotating_in_order p.ticks) :
    (p.rotating_run H key disk).state.Counted := by
  obtain ⟨hcounted, hknows⟩ := counted_start H key hempty p
  have hdaemon : DaemonSafe (work H) rotating_in_order (counting_protocol H S key) := by
    intro d s ⟨hhonest, hs⟩ hd
    obtain ⟨hhonest', htotal⟩ := honest_work hS hhonest d hd
    obtain ⟨hmine, hseq⟩ := work_rest (H := H) d s
    exact ⟨⟨hhonest', hs.work hS hhonest d⟩, fun j _ => ⟨by rw [hmine], htotal, hseq⟩⟩
  have hstart : (p.rotating_pool H key disk).Safe (rotating_sections H key)
      rotating_in_order (counting_protocol H S key) (fun _ _ _ => True) := by
    have hhonest := honest_start hsound p
    have hwhole : Honest H S key 1 { p.start H key disk with
        log := (p.start H key disk).log.following [] } :=
      (hhonest.of_same_lines (lines_following _ []) rfl rfl rfl rfl
        (fun m hm => hm) hhonest.heads).1
    refine ⟨⟨hwhole, hcounted⟩, ?_⟩
    · intro i q hq
      cases i with
      | zero =>
        obtain rfl := some.inj hq
        exact appender_counts p.appender (by rwa [zero_add]) hknows
      | succ i => cases hq
  exact (hstart.run hdaemon p.ticks hok).inv.2

end RotatingRun

open RotatingRun

/-- Two appenders under a schedule. -/
def sampleSentinel (ticks : List AuditTick) : RotatingPool sampleJson :=
  (rotating_appenders sampleHashes sampleJson [sampleAppender, sampleAppender]).run
    (rotating_sections sampleHashes sampleIssuerSecret) (RotatingRun.work sampleHashes) ticks

/-- **Verification and rotation.** A phase on files that verify, run to its end with nothing
dropped and every anchor over heads that are written. If no file was renamed, the log verifies
and the next initialisation succeeds. If the phase began with an empty log and a file was renamed,
the log on the live path does not verify and no initialisation succeeds. -/
theorem log_verifies_unless_rotated (hS : S.Lawful) (disk : Disk S)
    (hfile : disk.log.isSome ∨ disk.sentinel = none)
    (hverify : verify_chain_disk H S key disk 0 = true) (p : Phase)
    {q : RotatingPool S} (hq : q = p.rotating_run H key disk)
    (hok : (p.rotating_pool H key disk).Respects (rotating_sections H key)
      (RotatingRun.work H) rotating_in_order p.ticks) (hdone : q.returned = true)
    (hdrained : q.state.run.log.drained = true) :
    (q.state.archived = [] → verify_chain_disk H S key q.state.run.log.disk
          q.state.run.log.global_seq = true ∧
        ∀ next : Phase, (next.initialized H key q.state.run.log.disk).2 = .ok ()) ∧
    (disk.log.getD [] = [] → p.appender.calls.length < 2 ^ 64 → q.state.archived ≠ [] →
      verify_chain_disk H S key q.state.run.log.disk q.state.run.log.global_seq = false ∧
        ∀ next : Phase, (next.initialized H key q.state.run.log.disk).2 ≠ .ok ()) := by
  subst hq
  have hsound := Disk.sound_of_verify hfile hverify
  constructor
  · intro hnone
    obtain ⟨hrun, hrespects⟩ := RotatingRun.unrotated_run (p.rotating_pool H key disk) p.ticks hnone
    have hplain : p.run H key disk = ⟨(p.rotating_run H key disk).threads,
          (p.rotating_run H key disk).state.run⟩ := hrun
    obtain ⟨hsound', hverify'⟩ := honest_run_verified hS [p.appender] (honest_start hsound p)
      (fun _ => rfl) p.ticks (hrespects hok)
      (by
        show (p.run H key disk).returned = true
        rw [hplain]
        exact hdone)
      (by
        show (p.run H key disk).state.log.drained = true
        rw [hplain]
        exact hdrained)
    have hstate : (p.run H key disk).state = (p.rotating_run H key disk).state.run := by rw [hplain]
    change (p.run H key disk).state.log.disk.Sound H key at hsound'
    change verify_chain_disk H S key (p.run H key disk).state.log.disk
      (p.run H key disk).state.log.global_seq = true at hverify'
    rw [hstate] at hsound' hverify'
    exact ⟨hverify', initialize_chain_ok hsound'⟩
  · intro hempty hfew hgone
    have hcounted := RotatingRun.counted_run hS hsound hempty p hfew hok
    obtain ⟨hlive, hfails⟩ := hcounted.fails hdrained hgone
    exact ⟨hfails _, RotatingRun.initialized_ne_ok hlive hfails⟩

def sampleUnrotated : RotatingPool sampleJson :=
  samplePlain.rotating_run sampleHashes sampleIssuerSecret .empty

theorem log_verifies_unless_rotated_sample :
    verify_chain_disk sampleHashes sampleJson sampleIssuerSecret
        sampleUnrotated.state.run.log.disk sampleUnrotated.state.run.log.global_seq = true ∧
      ∀ next : Phase, (next.initialized sampleHashes sampleIssuerSecret
        sampleUnrotated.state.run.log.disk).2 = .ok () :=
  (log_verifies_unless_rotated sampleJson_lawful .empty (.inr rfl) (by decide +kernel) samplePlain
    rfl (by decide +kernel) (by decide +kernel) (by decide +kernel)).1 rfl

/-! ## An event of fifty megabytes -/

theorem intent_le_line (e : AuditLogEntry) :
    e.record.intent.length ≤ (sampleJson.as_bytes (e.line sampleJson)).length := by
  have hrecord : e.record.intent.length ≤ (sampleJson.as_bytes (sampleJson.to_string
      (CanonicalAuditRecord.from_record e.record).to_value)).length := by
    apply Json.length_le_compact integral_text "intent"
    simp [CanonicalAuditRecord.from_record]
  have hline : sampleJson.as_bytes (e.line sampleJson) = _ :=
    sampleJson_lawful.as_bytes_format_entry _ _
  rw [hline]
  simp only [length_append]
  omega

variable {s : RotatingRun S}

variable (now : F64)

/-- One event is appended, and the worker makes two steps. -/
theorem append_ticks (H : Hashes) (key : List UInt8) (s : RotatingRun S) (ev : AuditEvent)
    (f : Unit → Prog AuditSection (List Unit)) (timer : Bool) (hqueue : s.run.log.queue = []) :
    ∃ (e : AuditLogEntry) (s' : RotatingRun S),
      (Pool.mk [(append_event_inner 0 ev).bind f] s).run (rotating_sections H key)
        (RotatingRun.work H) (List.replicate 6 (.thread 0 now) ++
          [.daemon (timer, now), .daemon (false, now)]) =
        ⟨[f ()], (s'.work H (timer, now)).work H (false, now)⟩ ∧
      e.record.intent = ev.intent ∧
      s'.run.log.queue = [.Entry e (s.run.log.global_seq + 1)] ∧
      s'.run.log.worker = s.run.log.worker ∧
      s'.run.log.global_seq = s.run.log.global_seq + 1 ∧
      s'.run.log.dropped_audits = s.run.log.dropped_audits ∧ s'.size = s.size := by
  -- the five sections before the line is sent
  let counted : ImmutableAuditLog S := { s.run.log with global_seq := s.run.log.global_seq + 1 }
  let e := counted.sealed_entry H key 0 ev s.run.log.anchor_epoch s.run.log.global_seq now
  let published : ImmutableAuditLog S := { counted.advance 0 e.chain_hash with
    shard_heads := Function.update s.run.log.shard_heads 0 e.chain_hash }
  refine ⟨e, ⟨⟨published.enqueue_wal_line e (s.run.log.global_seq + 1), _, _, _, _⟩, _, _⟩, rfl,
    rfl, ?_⟩
  have hlog : published.enqueue_wal_line e (s.run.log.global_seq + 1) =
      { published with queue := s.run.log.queue ++ [.Entry e (s.run.log.global_seq + 1)] } := by
    refine if_pos ?_
    show s.run.log.queue.length < _
    rw [hqueue]
    decide
  rw [hlog, hqueue]
  exact ⟨rfl, rfl, rfl, rfl, rfl⟩

theorem wrote_tick {c : UInt64} (hphase : s.run.log.worker.phase = .wrote c)
    (hanchor : s.run.log.worker.events_since_anchor + 1 < AUDIT_ANCHOR_EVERY_N_EVENTS) :
    s.work H (false, now) =
      { s with run := { s.run with log := { s.run.log with worker := { s.run.log.worker with
        phase := .receiving
        events_since_anchor := s.run.log.worker.events_since_anchor + 1 } } } } := by
  have hnone : ¬ (AUDIT_ANCHOR_EVERY_N_EVENTS ≤
      s.run.log.worker.events_since_anchor + 1 || false) = true := by
    simp only [Bool.or_false, decide_eq_true_eq, not_le]
    exact hanchor
  simp only [RotatingRun.work, RotatingRun.next_line, RotatingRun.work_quietly, hphase,
    AuditRun.work, ImmutableAuditLog.work, hnone, Bool.false_eq_true, if_false]
  rfl

theorem write_tick {e : AuditLogEntry} {c : UInt64} (hphase : s.run.log.worker.phase = .receiving)
    (hqueue : s.run.log.queue = [.Entry e c]) (hsize : s.size ≤ AUDIT_MAX_LOG_SIZE)
    (hflush : s.run.log.worker.wal.entries_since_flush + 1 < AUDIT_WAL_FLUSH_EVERY_N_ENTRIES) :
    s.work H (false, now) =
      { run := { s.run with
          log := (({ s.run.log with queue := [] } : ImmutableAuditLog S).write_line (e.line S)
            c).goto (.wrote c)
          written := Function.update s.run.written e.shard e.chain_hash }
        size := s.size + ((S.as_bytes (e.line S)).length + 1)
        archived := s.archived } := by
  have hnone : ¬ (AUDIT_WAL_FLUSH_EVERY_N_ENTRIES ≤
      s.run.log.worker.wal.entries_since_flush + 1 || false) = true := by
    simp only [Bool.or_false, decide_eq_true_eq, not_le]
    exact hflush
  simp only [RotatingRun.work, RotatingRun.next_line, hphase, hqueue, RotatingRun.maybe_rotate,
    if_pos hsize, RotatingRun.work_writing, AuditRun.work, ImmutableAuditLog.work,
    write_entry, hnone, Bool.false_eq_true, if_false]

theorem rotate_tick {e : AuditLogEntry} {c : UInt64} (hphase : s.run.log.worker.phase = .receiving)
    (hqueue : s.run.log.queue = [.Entry e c]) (hsize : AUDIT_MAX_LOG_SIZE < s.size) :
    s.work H (true, now) =
      { run := { s.run with
          log := { s.run.log with
            queue := []
            disk := ⟨some [e.line S], some c⟩
            worker := { s.run.log.worker with phase := .wrote c, wal := ⟨[], 0, c⟩ } }
          written := Function.update s.run.written e.shard e.chain_hash }
        size := 0 + ((S.as_bytes (e.line S)).length + 1)
        archived := s.archived ++ [s.run.log.lines] } := by
  simp only [RotatingRun.work, RotatingRun.next_line, hphase, hqueue, RotatingRun.maybe_rotate,
    if_neg (Nat.not_le_of_lt hsize), RotatingRun.work_writing, AuditRun.work,
    ImmutableAuditLog.work, write_entry, Bool.or_true, if_true]
  rfl

theorem one_of_two_fails (global_seq : UInt64) :
    verify_chain_disk H S key ⟨some [line], some 2⟩ global_seq = false := by
  have hle : record_lines S [line] ≤ 1 := (countP_le_length).trans (length_filter_le _ [line])
  rw [← not_eq_true]
  intro hverify
  have hlow : 2 ≤ record_lines S [line] := ((verify_chain_disk_iff _ _ _).mp hverify).2 2 rfl
  omega

def twice (ev : AuditEvent) : Phase where
  opened := true
  appender := ⟨0, [.append ev, .append ev]⟩
  ticks := (List.replicate 6 (sampleThread 0) ++ [sampleWorker false, sampleWorker false]) ++
    (List.replicate 6 (sampleThread 0) ++ [sampleWorker true, sampleWorker false])

theorem twice_rotates (H : Hashes) (key : List UInt8) (ev : AuditEvent)
    (hbig : AUDIT_MAX_LOG_SIZE ≤ ev.intent.length)
    {q : RotatingPool sampleJson}
    (hq : q = (twice ev).rotating_run H key .empty) :
    q.returned = true ∧ q.state.run.log.drained = true ∧ q.state.archived ≠ [] ∧
      q.state.run.log.dropped_audits = 0 ∧
      ∃ line, q.state.run.log.disk = ⟨some [line], some 2⟩ := by
  let now := integral_f64 1700000000
  obtain ⟨hqueue₀, hworker₀, -, hdropped₀, hseq₀⟩ := RotatingRun.initialize_chain_rest H
    key (boot H sampleJson true .empty)
  obtain ⟨e₁, s₁, hrun₁, hintent, hqueue₁, hworker₁, hseq₁, hdropped₁, hsize₁⟩ :=
    append_ticks now H key ((twice ev).rotating_pool H key (.empty : Disk sampleJson)).state ev
      (fun a => (append_event_inner 0 ev).bind fun b => .ret [a, b]) false hqueue₀
  replace hworker₁ := hworker₁.trans hworker₀
  replace hseq₁ := hseq₁.trans (congrArg (· + 1) (hseq₀ rfl rfl))
  replace hsize₁ : s₁.size = 0 := hsize₁
  have hflush : s₁.run.log.worker.wal.entries_since_flush = 0 := by rw [hworker₁]; rfl
  have hevents : s₁.run.log.worker.events_since_anchor = 0 := by rw [hworker₁]; rfl
  -- the first line is written
  have hwrite := write_tick (H := H) now (by rw [hworker₁]; rfl) hqueue₁
    (by rw [hsize₁]; decide) (by rw [hflush]; decide)
  have hwrote := wrote_tick (H := H) (s := s₁.work H (false, now)) now (by rw [hwrite]; rfl) (by
      rw [hwrite]
      show s₁.run.log.worker.events_since_anchor + 1 < _
      rw [hevents]
      decide)
  generalize (s₁.work H (false, now)).work H (false, now) = t₁ at hrun₁ hwrote
  rw [hwrite] at hwrote
  have hlong := intent_le_line e₁
  rw [hintent] at hlong
  have hsize : AUDIT_MAX_LOG_SIZE < t₁.size := by
    rw [hwrote]
    show _ < s₁.size + _
    omega
  obtain ⟨e₂, s₂, hrun₂, -, hqueue₂, hworker₂, -, hdropped₂, hsize₂⟩ :=
    append_ticks now H key t₁ ev (fun b => .ret [(), b]) true (by rw [hwrote]; rfl)
  have hcount : t₁.run.log.global_seq + 1 = 2 := by
    rw [hwrote]
    show s₁.run.log.global_seq + 1 = 2
    rw [hseq₁]
    rfl
  rw [hcount] at hqueue₂
  -- and the second one into a new file
  have hrotate := rotate_tick (H := H) now (by rw [hworker₂, hwrote]) hqueue₂
    (by rw [hsize₂]; exact hsize)
  have hlast := wrote_tick (H := H) (s := s₂.work H (true, now)) now (by rw [hrotate]) (by
      rw [hrotate]
      show s₂.run.log.worker.events_since_anchor + 1 < _
      rw [hworker₂, hwrote]
      show s₁.run.log.worker.events_since_anchor + 1 + 1 < _
      rw [hevents]
      decide)
  have hfinal : q = ⟨[.ret [(), ()]], (s₂.work H (true, now)).work H (false, now)⟩ := by
    rw [hq, Phase.rotating_run, twice, Pool.run_append]
    exact (congrArg (fun p => Pool.run _ _ p _) hrun₁).trans hrun₂
  rw [hfinal, hlast, hrotate]
  refine ⟨rfl, rfl, by simp, ?_, e₂.line sampleJson, rfl⟩
  show s₂.run.log.dropped_audits = 0
  rw [hdropped₂, hwrote]
  exact hdropped₁.trans hdropped₀

def sampleLongEvent : AuditEvent :=
  ⟨ascii "agent-a", ascii "agent-b", ascii "sig", List.replicate 50000000 97, ascii "tp"⟩

def sampleRenamed : RotatingPool sampleJson :=
  (twice sampleLongEvent).rotating_run sampleHashes sampleIssuerSecret .empty

/-- Both calls have returned, both lines are on disk and none was dropped; but the live file does
not verify any more, and the log is refused at every later start. -/
theorem rotated_log_fails :
    sampleRenamed.returned = true ∧ sampleRenamed.state.run.log.drained = true ∧
      sampleRenamed.state.run.log.dropped_audits = 0 ∧ sampleRenamed.state.archived ≠ [] ∧
      verify_chain_disk sampleHashes sampleJson sampleIssuerSecret
        sampleRenamed.state.run.log.disk sampleRenamed.state.run.log.global_seq = false ∧
      ∀ next : Phase, (next.initialized sampleHashes sampleIssuerSecret
        sampleRenamed.state.run.log.disk).2 ≠ .ok () := by
  have hbig : AUDIT_MAX_LOG_SIZE ≤ sampleLongEvent.intent.length := by
    rw [sampleLongEvent, length_replicate]
    decide
  obtain ⟨hdone, hdrained, hgone, hdropped, line, hdisk⟩ :=
    twice_rotates sampleHashes sampleIssuerSecret sampleLongEvent hbig (q := sampleRenamed) rfl
  refine ⟨hdone, hdrained, hdropped, hgone, ?_, ?_⟩
  · rw [hdisk]
    exact one_of_two_fails line _
  · rw [hdisk]
    exact RotatingRun.initialized_ne_ok rfl (one_of_two_fails line)

end Saacp
