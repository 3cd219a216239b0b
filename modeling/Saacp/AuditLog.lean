/-
**The audit log at work**: appenders, the queue, and the worker that owns the files.

`append_event_inner` is a program of atomic sections; `run_wal_worker` is the daemon, which takes
lines from the queue, and after an entry may build a Merkle anchor, reading one published head at a
time. Its timers may fire at any point, so whether they did is an input of the step.

An `AuditRun` adds what the code does not keep: who has reserved a number and not sealed its record,
which sealed entries have not been sent, which head of each shard has been written, and whether the
file had an anchor when the log was opened. Failing writes and the reset for tests are left out.
-/
import Saacp.Atomic
import Saacp.AuditVerify

set_option autoImplicit false

open ByteCodec Atomic

namespace Saacp

def AUDIT_WAL_QUEUE_CAPACITY : ℕ := 100000
def AUDIT_WAL_FLUSH_EVERY_N_ENTRIES : ℕ := 200
def AUDIT_ANCHOR_EVERY_N_EVENTS : ℕ := 4096

structure ShardInner where
  last_hash : Text
  shard_seq : UInt64

/-- `WalMessage`. The line of an entry is a function of the entry, which is what is kept. -/
inductive WalMessage
  | Entry (entry : AuditLogEntry) (event_count : UInt64)
  | Flush

/-- `WalWriter`, with the lines that have not been flushed. -/
structure WalWriter (S : SerdeJson) where
  buffer : List S.Line
  entries_since_flush : ℕ
  pending_event_count : UInt64

inductive WorkerPhase
  | opening
  | receiving
  | wrote (event_count : UInt64)
  | anchoring (event_count : UInt64) (heads : List Text)

structure WalWorker (S : SerdeJson) where
  phase : WorkerPhase
  wal : WalWriter S
  events_since_anchor : ℕ
  prev_root : Text

/-- `ImmutableAuditLog` with its worker, its queue and its files. -/
structure ImmutableAuditLog (S : SerdeJson) where
  shards : ShardIdx → ShardInner
  shard_heads : ShardIdx → Text
  global_seq : UInt64
  anchor_epoch : UInt64
  dropped_audits : UInt64
  queue : List WalMessage
  worker : WalWorker S
  disk : Disk S

section

variable (H : Hashes) (S : SerdeJson) (issuer_secret : List UInt8)

/-- `ImmutableAuditLog::with_paths`. The worker has not opened the log file yet. -/
def ImmutableAuditLog.new (disk : Disk S) : ImmutableAuditLog S where
  shards i := ⟨shard_genesis_hash H i, 0⟩
  shard_heads i := shard_genesis_hash H i
  global_seq := 0
  anchor_epoch := 0
  dropped_audits := 0
  queue := []
  worker := ⟨.opening, ⟨[], 0, 0⟩, 0, ANCHOR_GENESIS_ROOT⟩
  disk := disk

def ImmutableAuditLog.reset_chain_state_to_genesis (log : ImmutableAuditLog S) :
    ImmutableAuditLog S :=
  { log with
    global_seq := 0
    anchor_epoch := 0
    shards := fun i => ⟨shard_genesis_hash H i, 0⟩
    shard_heads := fun i => shard_genesis_hash H i }

def Scan.restored (sc : Scan) (i : ShardIdx) : Text × UInt64 :=
  (sc.heads i).getD (migration_seed_hash H i sc.final_v1_hash, 0)

/-- `initialize_chain`: the file is verified before anything is taken from it. -/
def ImmutableAuditLog.initialize_chain (log : ImmutableAuditLog S) :
    ImmutableAuditLog S × Except String Unit :=
  if verify_chain_disk H S issuer_secret log.disk log.global_seq then
    match log.disk.log with
    | none => (log, .ok ())
    | some content =>
      -- the root that the next anchor chains to is not among what is restored
      let sc := scan S content
      ({ log with
          global_seq := sc.record_count
          anchor_epoch := sc.max_anchor_epoch
          shards := fun i => ⟨(sc.restored H i).1, (sc.restored H i).2⟩
          shard_heads := fun i => (sc.restored H i).1 }, .ok ())
  else
    (log.reset_chain_state_to_genesis H S,
      .error "audit chain integrity verification failed on load — chain reset to genesis")

/-! ## Appenders -/

structure AuditEvent where
  source_agent : Text
  target_agent : Text
  token_signature : Text
  intent : Text
  traceparent : Text

inductive AuditSection : Type → Type
  | load_epoch : AuditSection UInt64
  | reserve : AuditSection UInt64
  | seal (shard_idx : ShardIdx) (ev : AuditEvent) (anchor_epoch seq : UInt64) :
      AuditSection AuditLogEntry
  | publish (shard_idx : ShardIdx) (hash : Text) : AuditSection Unit
  | load_count : AuditSection UInt64
  | send (entry : AuditLogEntry) (event_count : UInt64) : AuditSection Unit
  | send_flush : AuditSection Unit

/-- `append_event_inner`, on the shard of the calling thread. -/
def append_event_inner (shard_idx : ShardIdx) (ev : AuditEvent) : Prog AuditSection Unit :=
  .step .load_epoch fun anchor_epoch =>
  .step .reserve fun seq =>
  .step (.seal shard_idx ev anchor_epoch seq) fun entry =>
  -- the lock of the shard is released; from here on the thread can be overtaken
  .step (.publish shard_idx entry.chain_hash) fun _ =>
  .step .load_count fun event_count =>
  .step (.send entry event_count) fun _ => .ret ()

inductive AuditCall
  | append (ev : AuditEvent)
  | flush

def AuditCall.prog (shard_idx : ShardIdx) : AuditCall → Prog AuditSection Unit
  | append ev => append_event_inner shard_idx ev
  | flush => .step .send_flush fun _ => .ret ()

structure Appender where
  shard_idx : ShardIdx
  calls : List AuditCall

def Appender.prog (a : Appender) : Prog AuditSection (List Unit) :=
  Prog.all (a.calls.map (AuditCall.prog a.shard_idx))

namespace ImmutableAuditLog

variable {S}

variable (log : ImmutableAuditLog S)

def sealed_entry (shard_idx : ShardIdx) (ev : AuditEvent)
    (anchor_epoch seq : UInt64) (timestamp : F64) : AuditLogEntry :=
  let record : AuditRecord :=
    { timestamp
      source := ev.source_agent
      target := ev.target_agent
      intent := ev.intent
      token_signature := ev.token_signature
      traceparent := ev.traceparent
      prev_hash := (log.shards shard_idx).last_hash
      seq
      shard_id := some (UInt16.ofNat shard_idx)
      shard_seq := some (log.shards shard_idx).shard_seq
      anchor_epoch := some anchor_epoch }
  ⟨record, (CanonicalAuditRecord.from_record record).chain_hash H S issuer_secret⟩

def advance (shard_idx : ShardIdx) (hash : Text) : ImmutableAuditLog S :=
  { log with
    shards :=
      Function.update log.shards shard_idx ⟨hash, (log.shards shard_idx).shard_seq + 1⟩ }

/-- `enqueue_wal_line` after the count has been loaded: a full queue drops the line. -/
def enqueue_wal_line (entry : AuditLogEntry) (event_count : UInt64) : ImmutableAuditLog S :=
  if log.queue.length < AUDIT_WAL_QUEUE_CAPACITY then
    { log with queue := log.queue ++ [.Entry entry event_count] }
  else { log with dropped_audits := log.dropped_audits + 1 }

/-! ## The worker -/

def flush_and_sync : ImmutableAuditLog S :=
  { log with
    disk :=
      { log := some (log.disk.log.getD [] ++ log.worker.wal.buffer)
        sentinel := some log.worker.wal.pending_event_count }
    worker := { log.worker with wal := ⟨[], 0, log.worker.wal.pending_event_count⟩ } }

def write_line (line : S.Line) (event_count : UInt64) : ImmutableAuditLog S :=
  { log with
    worker :=
      { log.worker with
        wal :=
          { buffer := log.worker.wal.buffer ++ [line]
            entries_since_flush := log.worker.wal.entries_since_flush + 1
            pending_event_count := event_count } } }

/-- `WalWriter::write_entry`; `timer` says whether the flush interval has passed. -/
def write_entry (line : S.Line) (event_count : UInt64) (timer : Bool) : ImmutableAuditLog S :=
  if AUDIT_WAL_FLUSH_EVERY_N_ENTRIES ≤ log.worker.wal.entries_since_flush + 1 || timer then
    (log.write_line line event_count).flush_and_sync
  else log.write_line line event_count

/-- `build_anchor_line` over the heads that have been read. -/
def build_anchor (heads : List Text) (event_count : UInt64) (timestamp : F64) : MerkleAnchor where
  epoch := log.anchor_epoch
  heads := heads
  root := heads_root H heads
  prev_root := log.worker.prev_root
  event_count := event_count
  timestamp := timestamp

def goto (phase : WorkerPhase) : ImmutableAuditLog S :=
  { log with worker := { log.worker with phase } }

def anchor_written (root : Text) : ImmutableAuditLog S :=
  { log with
    worker :=
      { log.worker with
        phase := .receiving
        events_since_anchor := 0
        prev_root := root } }

def write_anchor (heads : List Text) (event_count : UInt64)
    (timer : Bool) (timestamp : F64) : ImmutableAuditLog S :=
  ({ log with anchor_epoch := log.anchor_epoch + 1 }.write_entry
    (S.anchor_line (log.build_anchor H heads event_count timestamp)) event_count
    timer).anchor_written (heads_root H heads)

def open_file : ImmutableAuditLog S :=
  { log with disk := { log.disk with log := some (log.disk.log.getD []) } }.goto .receiving

/-- One step of `run_wal_worker`. `timer` says whether the timer that matters here has fired. -/
def work (timer : Bool) (now : F64) : ImmutableAuditLog S :=
  match log.worker.phase with
  | .opening => log.open_file
  | .receiving =>
    match log.queue with
    | [] => log
    | .Entry entry event_count :: queue =>
      ({ log with queue }.write_entry (entry.line S) event_count timer).goto (.wrote event_count)
    | .Flush :: queue => { log with queue }.flush_and_sync
  | .wrote event_count =>
    let events := log.worker.events_since_anchor + 1
    let log := { log with worker := { log.worker with events_since_anchor := events } }
    -- an anchor is due by number of events, or by time
    if AUDIT_ANCHOR_EVERY_N_EVENTS ≤ events || timer then log.goto (.anchoring event_count [])
    else log.goto .receiving
  | .anchoring event_count heads =>
    -- one head a step: appenders publish in between
    if hlt : heads.length < AUDIT_SHARDS then
      log.goto (.anchoring event_count (heads ++ [log.shard_heads ⟨heads.length, hlt⟩]))
    else log.write_anchor H heads event_count timer now

def drained : Bool :=
  log.queue.isEmpty && log.worker.wal.buffer.isEmpty &&
    match log.worker.phase with
    | .receiving => true
    | _ => false

end ImmutableAuditLog

/-! ## Runs -/

def AuditLogEntry.shard (e : AuditLogEntry) : ShardIdx :=
  Fin.ofNat AUDIT_SHARDS (e.record.shard_id.getD 0).toNat

variable {S}

/-- The log, with what the code does not keep. -/
structure AuditRun (S : SerdeJson) where
  log : ImmutableAuditLog S
  reserved : List ℕ
  unsent : List (ℕ × AuditLogEntry)
  written : ShardIdx → Text
  anchored : Bool

def AuditRun.start (log : ImmutableAuditLog S) (anchored : Bool) : AuditRun S :=
  ⟨log, [], [], log.shard_heads, anchored⟩

def AuditRun.exec (tid : ℕ) {β : Type} (act : AuditSection β) (now : F64) (s : AuditRun S) :
    AuditRun S × β :=
  match act with
  | .load_epoch => (s, s.log.anchor_epoch)
  | .reserve =>
    ({ s with
        log := { s.log with global_seq := s.log.global_seq + 1 }
        reserved := tid :: s.reserved }, s.log.global_seq)
  | .seal shard_idx ev anchor_epoch seq =>
    -- the whole lock scope: record, hash, new head and position of the shard
    let entry := s.log.sealed_entry H issuer_secret shard_idx ev anchor_epoch seq now
    ({ s with
        log := s.log.advance shard_idx entry.chain_hash
        reserved := s.reserved.erase tid
        unsent := s.unsent ++ [(tid, entry)] }, entry)
  | .publish shard_idx hash =>
    ({ s with
        log := { s.log with shard_heads := Function.update s.log.shard_heads shard_idx hash } },
      ())
  | .load_count => (s, s.log.global_seq)
  | .send entry event_count =>
    ({ s with
        log := s.log.enqueue_wal_line entry event_count
        unsent := s.unsent.filter fun u => u.1 != tid }, ())
  | .send_flush => ({ s with log := { s.log with queue := s.log.queue ++ [.Flush] } }, ())

/-- What a step of the worker does: an entry it writes becomes the written head. -/
def AuditRun.work (d : Bool × F64) (s : AuditRun S) : AuditRun S :=
  { s with
    log := s.log.work H d.1 d.2
    written :=
      match s.log.worker.phase, s.log.queue with
      | .receiving, .Entry entry _ :: _ =>
        Function.update s.written entry.shard entry.chain_hash
      | _, _ => s.written }

/-- A section of a thread, or a step of the worker: whether its timer is due, and its clock. -/
abbrev AuditTick := Tick F64 (Bool × F64)

def audit_sections : Semantics AuditSection F64 (AuditRun S) where
  exec tid _ act now s := s.exec H issuer_secret tid act now

def audit_pool (appenders : List Appender) (s : AuditRun S) :
    Pool AuditSection (AuditRun S) (List Unit) :=
  ⟨appenders.map Appender.prog, s⟩

def audit_run (appenders : List Appender) (s : AuditRun S) (ticks : List AuditTick) :
    Pool AuditSection (AuditRun S) (List Unit) :=
  (audit_pool appenders s).run (audit_sections H issuer_secret) (AuditRun.work H) ticks

end

end Saacp
