/-
**Restarts.** A phase constructs the log on the files the last phase left, initialises the chain
from them, appends from one thread, and ends when everything has been flushed.

The heads and positions of the shards, the number of records and the anchor epoch are restored from
the file. The root the next anchor has to chain to is not: every process starts with the first root.
-/
import Saacp.AuditRaces

set_option autoImplicit false

open ByteCodec Atomic

namespace Saacp

variable {H : Hashes} {S : SerdeJson} {key : List UInt8}

section

variable (H : Hashes) (S : SerdeJson) (key : List UInt8)

/-- The worker may or may not have opened its file before the chain is initialised. -/
def boot (opened : Bool) (disk : Disk S) : ImmutableAuditLog S :=
  if opened then (ImmutableAuditLog.new H S disk).open_file else .new H S disk

variable {S}

def Disk.anchored (disk : Disk S) : Bool := (disk.log.getD []).any (is_anchor S)

structure Phase where
  opened : Bool
  appender : Appender
  ticks : List AuditTick

def Phase.initialized (p : Phase) (disk : Disk S) : ImmutableAuditLog S × Except String Unit :=
  (boot H S p.opened disk).initialize_chain H S key

def Phase.start (p : Phase) (disk : Disk S) : AuditRun S :=
  .start (p.initialized H key disk).1 disk.anchored

def Phase.run (p : Phase) (disk : Disk S) : Pool AuditSection (AuditRun S) (List Unit) :=
  audit_run H key [p.appender] (p.start H key disk) p.ticks

/-- Nothing is dropped, and every head read for an anchor is the head written, on a file without
older anchors. -/
def UndisturbedPhases : Disk S → List Phase → Prop
  | _, [] => True
  | disk, p :: phases =>
    (audit_pool [p.appender] (p.start H key disk)).Respects
        (audit_sections H key) (AuditRun.work H) (in_order 1) p.ticks ∧
      (p.run H key disk).returned = true ∧
      (p.run H key disk).state.log.drained = true ∧
      UndisturbedPhases (p.run H key disk).state.log.disk phases

/-- Every phase initialises its chain and verifies at its end, and so does what comes after. -/
def Survives : Disk S → List Phase → Prop
  | disk, [] => ∀ next : Phase, (next.initialized H key disk).2 = .ok ()
  | disk, p :: phases =>
    (p.initialized H key disk).2 = .ok () ∧
      verify_chain_disk H S key (p.run H key disk).state.log.disk
        (p.run H key disk).state.log.global_seq = true ∧
      Survives (p.run H key disk).state.log.disk phases

end

/-! ## Initialisation -/

theorem boot_disk (opened : Bool) (disk : Disk S) :
    (boot H S opened disk).disk.log.getD [] = disk.log.getD [] ∧
      (boot H S opened disk).disk.sentinel = disk.sentinel := by
  cases opened with
  | false | true => exact ⟨rfl, rfl⟩

theorem boot_rest (opened : Bool) (disk : Disk S) :
    let log := boot H S opened disk
    log.global_seq = 0 ∧ log.queue = [] ∧ log.worker.wal = ⟨[], 0, 0⟩ ∧
      log.worker.phase.count? = none ∧ log.worker.prev_root = ANCHOR_GENESIS_ROOT ∧
      (∀ i, log.shards i = ⟨shard_genesis_hash H i, 0⟩) ∧
      ∀ i, log.shard_heads i = shard_genesis_hash H i := by
  cases opened with
  | false | true => exact ⟨rfl, rfl, rfl, rfl, rfl, fun _ => rfl, fun _ => rfl⟩

theorem boot_sound {disk : Disk S} (h : disk.Sound H key) (opened : Bool) :
    (boot H S opened disk).disk.Sound H key := by
  obtain ⟨hlog, hsentinel⟩ := boot_disk (H := H) opened disk
  constructor
  · rw [hlog]
    exact h.replays
  · rw [hlog, hsentinel]
    exact h.sentinel

theorem initialize_chain_ok {disk : Disk S} (h : disk.Sound H key) (p : Phase) :
    (p.initialized H key disk).2 = .ok () := by
  have hverify := (boot_sound h p.opened).verify
    (fun _ => (boot_rest (H := H) p.opened disk).1)
  rw [Phase.initialized, ImmutableAuditLog.initialize_chain, if_pos hverify]
  split
  · rfl
  · rfl

theorem Scan.Agrees.restored {sc : Scan} {w : Walk} (h : sc.Agrees w) (i : ShardIdx) :
    (sc.restored H i).1 = w.head H i := by
  have hheads := h.heads i
  rw [Scan.restored, Walk.head, ← hheads, h.final_v1_hash]
  cases sc.heads i with
  | none => rfl
  | some head => rfl

theorem honest_at_rest (log : ImmutableAuditLog S) {w : Walk} (n : ℕ)
    (hreplay : replay H S key (log.disk.log.getD []) = some w)
    (hheads : ∀ i, log.shard_heads i = w.head H i)
    (hshards : ∀ i, (log.shards i).last_hash = w.head H i)
    (hcount : log.global_seq.toNat ≤ record_lines S (log.disk.log.getD []))
    (hsentinel : ∀ m, log.disk.sentinel = some m → m.toNat ≤ record_lines S (log.disk.log.getD []))
    (hqueue : log.queue = []) (hwal : log.worker.wal = ⟨[], 0, 0⟩)
    (hphase : log.worker.phase.count? = none) (hroot : log.worker.prev_root = ANCHOR_GENESIS_ROOT) :
    Honest H S key n (.start log log.disk.anchored) := by
  have hlines : log.lines = log.disk.log.getD [] := by
    rw [ImmutableAuditLog.lines, hwal, List.append_nil]
  have htotal : (AuditRun.start log log.disk.anchored).total =
      record_lines S (log.disk.log.getD []) := by
    simp [AuditRun.total, AuditRun.inflight, AuditRun.start, hqueue, hlines]
  constructor
  · refine ⟨w, hlines ▸ hreplay, fun i => (hheads i).symm, ?_⟩
    intro hnone
    exact (prev_root_of_no_anchor hnone hreplay).trans hroot.symm
  · intro i
    have hnil : (AuditRun.start log log.disk.anchored).inflight_of i = [] := by
      simp [AuditRun.inflight_of, AuditRun.inflight, AuditRun.start, hqueue]
    rw [hnil]
    exact (hheads i).trans (hshards i).symm
  · rw [htotal]
    exact hcount
  · intro m hm
    rw [htotal]
    simp only [ImmutableAuditLog.counts, AuditRun.start, hqueue, hwal, hphase, Option.toList_none,
      List.append_nil, List.filterMap_nil, List.mem_cons, Option.mem_toList] at hm
    rcases hm with rfl | hm
    · exact Nat.zero_le _
    · exact hsentinel m hm
  · intro event_count heads hanch
    have hanch' : log.worker.phase = .anchoring event_count heads := hanch
    rw [hanch'] at hphase
    cases hphase
  · exact ⟨fun _ h => absurd h List.not_mem_nil, fun _ h => absurd h List.not_mem_nil⟩

/-- **A phase starts honest**: the heads it continues from are the heads on file. -/
theorem honest_start {disk : Disk S} (h : disk.Sound H key) (p : Phase) :
    Honest H S key 1 (p.start H key disk) := by
  obtain ⟨hlog, -⟩ := boot_disk (H := H) p.opened disk
  obtain ⟨hseq, hqueue, hwal, hphase, hroot, hshards, hheads⟩ := boot_rest (H := H) p.opened disk
  have hsound := boot_sound h p.opened
  have hverify := hsound.verify (fun _ => hseq)
  have hanch : disk.anchored = (boot H S p.opened disk).disk.anchored := by
    rw [Disk.anchored, Disk.anchored, hlog]
  rw [Phase.start, Phase.initialized, ImmutableAuditLog.initialize_chain, if_pos hverify, hanch]
  generalize boot H S p.opened disk = log at *
  obtain ⟨w, hw⟩ := hsound.replays
  rcases hfile : log.disk.log with _ | content
  · -- there is no file: nothing is restored, and nothing needs to be
    obtain rfl : Walk.start = w := by
      rw [hfile] at hw
      exact Option.some.inj hw
    refine honest_at_rest log 1 hw (fun i => ?_) (fun i => ?_) ?_ hsound.sentinel hqueue hwal hphase
      hroot
    · rw [hheads]
      rfl
    · rw [hshards]
      rfl
    · rw [hseq]
      exact Nat.zero_le _
  · rw [hfile] at hw
    obtain ⟨hagrees, hcount⟩ := scan_agrees hw
    refine honest_at_rest _ 1 (w := w) ?_ hagrees.restored hagrees.restored ?_ hsound.sentinel
      hqueue hwal hphase hroot
    · rw [hfile]
      exact hw
    · rw [hfile]
      exact hcount

/-- **The log survives restarts.** From files that verify, every sequence of phases that run
to their end, drop nothing, and read a head for an anchor only while it is the head written,
on a file without an anchor of an earlier phase: every phase initialises its chain and ends
with a log that verifies, and the next initialisation succeeds. -/
theorem log_survives_restarts (hS : S.Lawful) (disk : Disk S)
    (hfile : disk.log.isSome ∨ disk.sentinel = none)
    (hverify : verify_chain_disk H S key disk 0 = true) (phases : List Phase)
    (hok : UndisturbedPhases H key disk phases) : Survives H key disk phases := by
  have hrun : ∀ (phases : List Phase) (disk : Disk S), disk.Sound H key →
      UndisturbedPhases H key disk phases → Survives H key disk phases := by
    intro phases
    induction phases with
    | nil => exact fun disk hsound _ next => initialize_chain_ok hsound next
    | cons p phases ih =>
      intro disk hsound hok
      obtain ⟨hticks, hdone, hdrained, hrest⟩ := hok
      obtain ⟨hsound', hverified⟩ := honest_run_verified hS [p.appender] (honest_start hsound p)
        (fun _ => rfl) p.ticks hticks hdone hdrained
      exact ⟨initialize_chain_ok hsound p, hverified, ih _ hsound' hrest⟩
  exact hrun phases disk (Disk.sound_of_verify hfile hverify) hok

/-! ## A phase with an anchor -/

instance decideUndisturbedPhases (disk : Disk S) (phases : List Phase) :
    Decidable (UndisturbedPhases H key disk phases) :=
  match phases with
  | [] => isTrue trivial
  | p :: phases =>
    have := decideUndisturbedPhases (p.run H key disk).state.log.disk phases
    inferInstanceAs (Decidable (_ ∧ _ ∧ _ ∧ _))

def Disk.empty : Disk S := ⟨none, none⟩

def sampleAnchored : Phase where
  opened := true
  appender := sampleAppender
  ticks := List.replicate 6 (sampleThread 0) ++ List.replicate 19 (sampleWorker true)

def samplePlain : Phase where
  opened := true
  appender := sampleAppender
  ticks := List.replicate 6 (sampleThread 0) ++ [sampleWorker true, sampleWorker false]

theorem log_survives_restarts_sample :
    Survives sampleHashes sampleIssuerSecret (.empty : Disk sampleJson)
      [sampleAnchored, samplePlain] :=
  log_survives_restarts sampleJson_lawful _ (.inr rfl) (by decide +kernel) _ (by decide +kernel)

def sampleOnceAnchored : Disk sampleJson :=
  (sampleAnchored.run sampleHashes sampleIssuerSecret .empty).state.log.disk

def sampleTwiceAnchored : Pool AuditSection (AuditRun sampleJson) (List Unit) :=
  sampleAnchored.run sampleHashes sampleIssuerSecret sampleOnceAnchored

/-- The second anchor chains to the first root again, so that at the end of the second phase
the log does not verify and the next phase cannot initialise its chain. -/
theorem anchored_restart_fails :
    (sampleAnchored.initialized sampleHashes sampleIssuerSecret sampleOnceAnchored).2.toBool =
      true ∧
    sampleTwiceAnchored.returned = true ∧ sampleTwiceAnchored.state.log.drained = true ∧
    sampleTwiceAnchored.state.log.dropped_audits = 0 ∧
    verify_chain_disk sampleHashes sampleJson sampleIssuerSecret
      sampleTwiceAnchored.state.log.disk sampleTwiceAnchored.state.log.global_seq = false ∧
    (sampleAnchored.initialized sampleHashes sampleIssuerSecret
      sampleTwiceAnchored.state.log.disk).2.toBool = false := by
  decide +kernel

end Saacp
