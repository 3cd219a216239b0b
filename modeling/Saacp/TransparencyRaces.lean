/-
**The transparency log under concurrent appends.**

What goes in and what comes out of the log is kept track of in four lists: the entries as they were
linked, as they were stored, as they were evicted, and as the floor was set to them. How far the
lists are apart is how many threads are between the sections in question (`ledger`). For the
verification the lists also have to be in the same order, and nothing in `append` sees to that.
-/
import Saacp.Delegation
import Saacp.Execution
import Saacp.TransparencyLog

set_option autoImplicit false

open Atomic ByteCodec

namespace Saacp

open CapabilityTransparencyLog List

open TransparencyLogEntry TransparencyLogBackend

/-! ## Sections -/

/-- What `append` and `verify_chain_integrity` do under one lock, or in one atomic operation. -/
inductive LogSection : Type → Type
  | link (ev : LogEvent) : LogSection TransparencyLogEntry
  | store (entry : TransparencyLogEntry) : LogSection (Option TransparencyLogEntry)
  | set_floor (evicted : TransparencyLogEntry) : LogSection Unit
  | count_pruned : LogSection Unit
  | bump : LogSection Unit
  | load_generation : LogSection UInt64
  | read_cached : LogSection (Option (UInt64 × Bool))
  | get_all : LogSection (List TransparencyLogEntry)
  | read_floor : LogSection Text
  | write_cached (generation : UInt64) (result : Bool) : LogSection Unit

/-- A log in memory, and its entries as they were linked, stored, evicted and made the floor. -/
structure LogRun where
  log : CapabilityTransparencyLog Factf.InMemoryBackend
  linked : List TransparencyLogEntry
  stored : List TransparencyLogEntry
  evicted : List TransparencyLogEntry
  floored : List TransparencyLogEntry
  counted : ℕ
  bumps : ℕ

namespace LogRun

def new (max_entries : ℕ) : LogRun := ⟨.with_capacity max_entries, [], [], [], [], 0, 0⟩

def entries (r : LogRun) : List TransparencyLogEntry := r.log.backend.entries

def exec (H : Hashes) (C : LogCrates) {γ : Type} : LogSection γ → ℚ → LogRun → LogRun × γ
  | .link ev, _, r =>
    let (log, entry) := r.log.link H C ev
    ({ r with log, linked := r.linked ++ [entry] }, entry)
  | .store entry, now, r =>
    let (log, evicted) := r.log.store now entry
    ({ r with log, stored := r.stored ++ [entry], evicted := r.evicted ++ evicted.toList }, evicted)
  | .set_floor old, _, r =>
    ({ r with log := r.log.set_floor old, floored := r.floored ++ [old] }, ())
  | .count_pruned, _, r => ({ r with log := r.log.count_pruned, counted := r.counted + 1 }, ())
  | .bump, _, r => ({ r with log := r.log.bump, bumps := r.bumps + 1 }, ())
  | .load_generation, _, r => (r, r.log.generation)
  | .read_cached, _, r => (r, r.log.cached_verification)
  | .get_all, _, r => (r, TransparencyLogBackend.get_all r.log.backend)
  | .read_floor, _, r => (r, r.log.chain_floor_hash)
  | .write_cached generation result, _, r =>
    ({ r with log := { r.log with cached_verification := some (generation, result) } }, ())

end LogRun

def log_sections (H : Hashes) (C : LogCrates) : Semantics LogSection ℚ LogRun where
  exec _ _ act now r := r.exec H C act now

/-! ## Calls -/

/-- The rest of `append` once the entry is stored. -/
def settle (entry : TransparencyLogEntry) : Option TransparencyLogEntry → Prog LogSection Text
  | none => .step .bump fun _ => .ret entry.chain_hash
  | some evicted =>
    .step (.set_floor evicted) fun _ =>
      .step .count_pruned fun _ => .step .bump fun _ => .ret entry.chain_hash

def append_sections (ev : LogEvent) : Prog LogSection Text :=
  .step (.link ev) fun entry => .step (.store entry) fun evicted => settle entry evicted

/-- The rest of `verify_chain_integrity` once the cached verdict is read. -/
def recheck (H : Hashes) (C : LogCrates) (generation_at_start : UInt64)
    (cached : Option (UInt64 × Bool)) : Prog LogSection Bool :=
  match cached.filter fun c => c.1 = generation_at_start with
  | some c => .ret c.2
  | none =>
    .step .get_all fun entries =>
      .step .read_floor fun prev_hash =>
        .step (.write_cached generation_at_start (verify_from H C prev_hash entries)) fun _ =>
          .ret (verify_from H C prev_hash entries)

def verify_sections (H : Hashes) (C : LogCrates) : Prog LogSection Bool :=
  .step .load_generation fun generation_at_start =>
    .step .read_cached fun cached => recheck H C generation_at_start cached

inductive LogCall
  | append (ev : LogEvent)
  | verify_chain_integrity

inductive LogAnswer
  | chain_hash (hash : Text)
  | verdict (result : Bool)
  deriving DecidableEq

def LogCall.prog (H : Hashes) (C : LogCrates) : LogCall → Prog LogSection LogAnswer
  | .append ev => (append_sections ev).map .chain_hash
  | .verify_chain_integrity => (verify_sections H C).map .verdict

open LogRun

theorem run_append_sections (H : Hashes) (C : LogCrates) (ev : LogEvent) (now : ℚ) (r : LogRun) :
    let after := (append_sections ev).run (log_sections H C) (fun _ => now) r
    (after.2.1.log, after.2.2) = r.log.append H C now ev := by
  simp only [append_sections, Prog.run_step, log_sections, LogRun.exec,
    CapabilityTransparencyLog.append]
  cases ((r.log.link H C ev).1.store now (r.log.link H C ev).2).2 <;> rfl

theorem run_verify_sections (H : Hashes) (C : LogCrates) (inp : ℕ → ℚ) (r : LogRun) :
    let after := (verify_sections H C).run (log_sections H C) inp r
    (after.2.1.log, after.2.2) = r.log.verify_chain_integrity H C := by
  simp only [verify_sections, Prog.run_step]
  show (Prod.map log id
    ((recheck H C r.log.generation r.log.cached_verification).run (log_sections H C) _ r).2) = _
  rw [recheck, verify_chain_integrity]
  cases r.log.cached_verification.filter fun c => c.1 = r.log.generation <;> rfl

inductive AppendStage
  | idle
  | storing
  | flooring
  | counting
  | bumping
  | returned
  deriving DecidableEq

def AppendStage.in_progress : AppendStage → Bool
  | .idle => false
  | .returned => false
  | _ => true

def LogSection.stage {γ : Type} : LogSection γ → AppendStage
  | .store _ => .storing
  | .set_floor _ => .flooring
  | .count_pruned => .counting
  | .bump => .bumping
  | _ => .idle

def LogSection.writes_cache {γ : Type} : LogSection γ → Bool
  | .write_cached _ _ => true
  | _ => false

theorem append_only (H : Hashes) (C : LogCrates) (ev : LogEvent) :
    (LogCall.prog H C (.append ev)).Only fun act => act.writes_cache = false := by
  refine Prog.Only.map _ ⟨rfl, fun entry => ⟨rfl, fun evicted => ?_⟩⟩
  cases evicted with
  | none => exact ⟨rfl, fun _ => trivial⟩
  | some old => exact ⟨rfl, fun _ => ⟨rfl, fun _ => ⟨rfl, fun _ => trivial⟩⟩⟩

def stage : Prog LogSection LogAnswer → AppendStage
  | .ret (.chain_hash _) => .returned
  | .ret (.verdict _) => .idle
  | .step act _ => act.stage

/-! ## Runs -/

structure LogSchedule (H : Hashes) (C : LogCrates) where
  calls : List LogCall
  max_entries : ℕ
  ticks : List (Tick ℚ Empty)

variable {H : Hashes} {C : LogCrates}

namespace LogSchedule

variable (r : LogSchedule H C)

def run : Execution LogSection ℚ LogRun Empty LogAnswer where
  sem := log_sections H C
  act d := d.elim
  start := ⟨r.calls.map (·.prog H C), .new r.max_entries⟩
  ticks := r.ticks

def Quiet (n : ℕ) : Prop :=
  ∀ q ∈ (r.run.pool n).threads, (stage q).in_progress = false

instance quiet_decidable (n : ℕ) : Decidable (r.Quiet n) :=
  inferInstanceAs (Decidable (∀ q ∈ (r.run.pool n).threads, (stage q).in_progress = false))

def appended (n : ℕ) : ℕ :=
  (r.run.pool n).threads.countP fun q => stage q = .returned

end LogSchedule

/-! ## What every section keeps -/

namespace LogRun

/-- What holds of a log and its lists whatever the order of the sections. -/
structure Kept (H : Hashes) (C : LogCrates) (max_entries : ℕ) (r : LogRun) : Prop where
  chain : verify_from H C GENESIS_CHAIN_HASH r.linked = true
  last : r.log.last_hash = HashChain.head chain_hash GENESIS_CHAIN_HASH r.linked
  capacity : r.log.backend.max_entries = max_entries
  window : r.stored = r.evicted ++ r.entries
  retained : r.entries.length = min (max 1 max_entries) r.stored.length
  floor : r.log.chain_floor_hash = HashChain.head chain_hash GENESIS_CHAIN_HASH r.floored
  generation : r.log.generation = UInt64.ofNat r.bumps
  pruned : r.log.pruned_count = UInt64.ofNat r.counted

section

variable {max_entries : ℕ} {r : LogRun}

theorem kept_new : Kept H C max_entries (new max_entries) where
  chain := rfl
  last := rfl
  capacity := rfl
  window := rfl
  retained := by simp [new, entries, with_capacity, Factf.InMemoryBackend.with_capacity]
  floor := rfl
  generation := rfl
  pruned := rfl

theorem kept_link (h : Kept H C max_entries r) (ev : LogEvent) (now : ℚ) :
    Kept H C max_entries (r.exec H C (.link ev) now).1 := by
  refine { h with chain := ?_, last := ?_ }
  · show verify_from H C _ (r.linked ++ [ev.linked H C r.log.last_hash]) = true
    rw [h.last]
    exact verify_from_concat h.chain ev
  · exact (HashChain.head_concat chain_hash _ r.linked _).symm

theorem exec_store (r : LogRun) (entry : TransparencyLogEntry) (now : ℚ) :
    r.exec H C (.store entry) now = ({ r with
          log := { r.log with backend := (r.log.backend.append entry).1 }
          stored := r.stored ++ [entry]
          evicted := r.evicted ++ (r.log.backend.append entry).2.toList },
        (r.log.backend.append entry).2) := rfl

theorem kept_store (h : Kept H C max_entries r) (entry : TransparencyLogEntry) (now : ℚ) :
    Kept H C max_entries (r.exec H C (.store entry) now).1 := by
  have hlength := congrArg List.length h.window
  have hretained := h.retained
  rw [length_append] at hlength
  rw [exec_store]
  refine { h with capacity := ?_, window := ?_, retained := ?_ }
  · exact (r.log.backend.max_entries_append entry).trans h.capacity
  · show r.stored ++ [entry] = r.evicted ++ (r.log.backend.append entry).2.toList ++
      (r.log.backend.append entry).1.entries
    rw [append_assoc, r.log.backend.evicted_append_entries, ← append_assoc, h.window, entries]
  · show (r.log.backend.append entry).1.entries.length =
      min (max 1 max_entries) (r.stored ++ [entry]).length
    rw [entries] at hretained hlength
    rw [Factf.InMemoryBackend.length_entries_append (by rw [h.capacity]; omega), h.capacity,
      length_append, length_singleton]
    omega

theorem kept_exec (h : Kept H C max_entries r) {γ : Type} (act : LogSection γ) (now : ℚ) :
    Kept H C max_entries (r.exec H C act now).1 := by
  cases act with
  | link ev => exact kept_link h ev now
  | store entry => exact kept_store h entry now
  | set_floor old =>
    refine { h with floor := ?_ }
    exact (HashChain.head_concat chain_hash _ r.floored old).symm
  | count_pruned =>
    refine { h with pruned := ?_ }
    show r.log.pruned_count + 1 = UInt64.ofNat (r.counted + 1)
    rw [h.pruned, UInt64.ofNat_add]
    rfl
  | bump =>
    refine { h with generation := ?_ }
    show r.log.generation + 1 = UInt64.ofNat (r.bumps + 1)
    rw [h.generation, UInt64.ofNat_add]
    rfl
  | load_generation | read_cached | get_all | read_floor => exact h
  | write_cached generation result => exact { h with }

end

structure Later (r r' : LogRun) : Prop where
  linked : r.linked.length ≤ r'.linked.length
  stored : r.stored <+: r'.stored
  floored : r.floored <+: r'.floored
  bumps : r.bumps ≤ r'.bumps

theorem Later.refl (r : LogRun) : Later r r :=
  ⟨le_refl _, prefix_rfl, prefix_rfl, le_refl _⟩

theorem Later.trans {a b c : LogRun} (h : Later a b) (h' : Later b c) : Later a c :=
  ⟨h.linked.trans h'.linked, h.stored.trans h'.stored, h.floored.trans h'.floored,
    h.bumps.trans h'.bumps⟩

theorem later_exec {H : Hashes} {C : LogCrates} (r : LogRun) {γ : Type} (act : LogSection γ)
    (now : ℚ) : Later r (r.exec H C act now).1 := by
  cases act with
  | link ev => exact { Later.refl r with linked := by simp [exec] }
  | store entry => exact { Later.refl r with stored := prefix_append _ _ }
  | set_floor old => exact { Later.refl r with floored := prefix_append _ _ }
  | bump => exact { Later.refl r with bumps := Nat.le_succ _ }
  | _ => exact { Later.refl r with }

end LogRun

/-! ## The ledger -/

inductive Tally
  | under_way
  | unstored
  | unfloored
  | uncounted
  | returned

namespace Tally

def recorded : Tally → LogRun → ℤ
  | .under_way, r => r.bumps - r.linked.length
  | .unstored, r => r.stored.length - r.linked.length
  | .unfloored, r => r.floored.length - r.evicted.length
  | .uncounted, r => r.counted - r.floored.length
  | .returned, r => -r.bumps

def pending : Tally → AppendStage → Bool
  | .under_way, st => st.in_progress
  | .unstored, st => st = .storing
  | .unfloored, st => st = .flooring
  | .uncounted, st => st = .counting
  | .returned, st => st = .returned

variable (H C) (t : Tally)

variable (ev : LogEvent)

/-- The stages before and after a section that has only one to lead on to. -/
def leads {γ : Type} : LogSection γ → Option (AppendStage × AppendStage)
  | .link _ => some (.idle, .storing)
  | .set_floor _ => some (.flooring, .counting)
  | .count_pruned => some (.counting, .bumping)
  | .bump => some (.bumping, .returned)
  | _ => none

theorem recorded_of_leads {γ : Type} {act : LogSection γ} {before after : AppendStage}
    (h : leads act = some (before, after)) (now : ℚ) (r : LogRun) :
    t.recorded (r.exec H C act now).1 + (t.pending after).toNat =
      t.recorded r + (t.pending before).toNat := by
  cases act with
  | link | set_floor | count_pruned | bump =>
    cases h
    cases t <;> simp [recorded, pending, AppendStage.in_progress, LogRun.exec] <;> omega
  | _ => cases h

variable (entry : TransparencyLogEntry)

theorem recorded_store (now : ℚ) (r : LogRun) :
    t.recorded (r.exec H C (.store entry) now).1 + (t.pending
          (if (r.exec H C (.store entry) now).2.isSome then .flooring else .bumping)).toNat =
      t.recorded r + (t.pending .storing).toNat := by
  rw [exec_store]
  cases (r.log.backend.append entry).2 with
  | none =>
    cases t <;> simp [recorded, pending, AppendStage.in_progress]
    omega
  | some old => cases t <;> simp [recorded, pending, AppendStage.in_progress] <;> omega

def Balances {γ : Type} (act : LogSection γ) (k : γ → Prog LogSection LogAnswer) : Prop :=
  Execution.Balanced t.recorded (fun q => t.pending (stage q)) (log_sections H C) act k

variable (evicted : Option TransparencyLogEntry)

theorem stage_settle :
    stage ((settle entry evicted).map .chain_hash) =
      if evicted.isSome then .flooring else .bumping := by
  cases evicted <;> rfl

theorem settle_balances :
    ((settle entry evicted).map LogAnswer.chain_hash).Steps (Balances H C t) := by
  cases evicted with
  | none => exact ⟨fun _ => recorded_of_leads H C t rfl, fun _ => trivial⟩
  | some old =>
    exact ⟨fun _ => recorded_of_leads H C t rfl, fun _ =>
      ⟨fun _ => recorded_of_leads H C t rfl, fun _ =>
        ⟨fun _ => recorded_of_leads H C t rfl, fun _ => trivial⟩⟩⟩

theorem append_balances : (LogCall.prog H C (.append ev)).Steps (Balances H C t) := by
  refine ⟨fun _ => recorded_of_leads H C t rfl, fun entry => ⟨?_, settle_balances H C t entry⟩⟩
  intro i now r
  have hstore := recorded_store H C t entry now r
  rw [← stage_settle entry] at hstore
  exact hstore

theorem stage_recheck (generation : UInt64) (cached : Option (UInt64 × Bool)) :
    stage ((recheck H C generation cached).map .verdict) = .idle := by
  rw [recheck]
  split <;> rfl

theorem verify_balances : (LogCall.prog H C .verify_chain_integrity).Steps (Balances H C t) := by
  refine ⟨fun _ _ _ => rfl, fun generation => ⟨?_, ?_⟩⟩
  · intro i now r
    have hstage := stage_recheck H C generation r.log.cached_verification
    exact congrArg (fun st => t.recorded r + ((t.pending st).toNat : ℤ)) hstage
  · intro cached
    show ((recheck H C generation cached).map LogAnswer.verdict).Steps (Balances H C t)
    rw [recheck]
    split
    · trivial
    · refine ⟨fun _ _ _ => rfl, fun entries => ⟨fun _ _ _ => rfl, fun prev_hash => ⟨?_, fun _ =>
        trivial⟩⟩⟩
      intro i now r
      cases t <;> rfl

end Tally

/-! ## What holds at every moment of a run -/

variable {r : LogSchedule H C} {n m x l : ℕ}

namespace LogSchedule

variable {i : ℕ} {result : Bool} {generation : UInt64}

theorem prog_zero {c : LogCall} (h : r.calls[i]? = some c) : r.run.prog 0 i = some (c.prog H C) :=
  Execution.prog_zero_of_call rfl h

theorem kept (r : LogSchedule H C) (n : ℕ) : (r.run.state n).Kept H C r.max_entries := by
  refine Pool.run_inv ?_ ?_ kept_new _ (Pool.respects_any _ _ _ _)
  · intro tid γ act now s _ hs
    exact kept_exec hs act now
  · intro d
    exact d.elim

theorem later (r : LogSchedule H C) (h : n ≤ m) : (r.run.state n).Later (r.run.state m) := by
  refine r.run.rel_of_steps LogRun.Later LogRun.Later.refl (fun _ _ _ => LogRun.Later.trans) h ?_
  intro x _ _
  refine r.run.rel_succ LogRun.Later (LogRun.Later.refl _) (fun d => d.elim) ?_
  intro i now γ act _
  exact later_exec _ act now

/-- **What is retained**, at every moment of every schedule: of what was stored the newest entries,
as many as there is room for. What was linked is one unbroken chain, and what comes later only adds
to what was stored. -/
theorem newest_retained (r : LogSchedule H C) (n : ℕ) :
    verify_from H C GENESIS_CHAIN_HASH (r.run.state n).linked = true ∧
      (r.run.state n).entries <:+ (r.run.state n).stored ∧
      (r.run.state n).entries.length = min (max 1 r.max_entries) (r.run.state n).stored.length ∧
      ∀ m ≥ n, (r.run.state n).stored <+: (r.run.state m).stored := by
  have hkept := r.kept n
  exact ⟨hkept.chain, ⟨_, hkept.window.symm⟩, hkept.retained, fun _ hm => (r.later hm).stored⟩

theorem ledger (r : LogSchedule H C) (t : Tally) (n : ℕ) : t.recorded (r.run.state n) +
      (r.run.pool n).threads.countP (fun q => t.pending (stage q)) = 0 := by
  have hsteps : ∀ i p, r.run.prog 0 i = some p → p.Steps (t.Balances H C) := by
    intro i p hp
    obtain ⟨c, hc⟩ := Execution.call_of_prog rfl hp
    obtain rfl : c.prog H C = p := Option.some.inj ((prog_zero hc).symm.trans hp)
    cases c with
    | append ev => exact t.append_balances H C ev
    | verify_chain_integrity => exact t.verify_balances H C
  have hstart : r.run.start.threads.countP (fun q => t.pending (stage q)) = 0 := by
    rw [countP_eq_zero]
    intro q hq
    obtain ⟨c, -, rfl⟩ := mem_map.mp hq
    have hidle : stage (c.prog H C) = .idle := by cases c <;> rfl
    rw [hidle]
    cases t <;> decide
  rw [r.run.ledger (m := t.recorded) (f := fun q => t.pending (stage q)) hsteps fun d => d.elim,
    hstart]
  cases t <;> rfl

/-! ## When no append is in progress -/

theorem appended_eq (r : LogSchedule H C) (n : ℕ) : r.appended n = (r.run.state n).bumps := by
  have h := r.ledger .returned n
  simp only [Tally.recorded, Tally.pending] at h
  rw [appended]
  omega

theorem bumps_le (r : LogSchedule H C) (n : ℕ) :
    (r.run.state n).bumps ≤ (r.run.state n).linked.length := by
  have h := r.ledger .under_way n
  simp only [Tally.recorded] at h
  omega

theorem quiet_iff : r.Quiet n ↔ (r.run.state n).bumps = (r.run.state n).linked.length := by
  have h := r.ledger .under_way n
  have hnone : r.Quiet n ↔
      (r.run.pool n).threads.countP (fun q => Tally.pending .under_way (stage q)) = 0 := by
    rw [countP_eq_zero, Quiet]
    simp only [Tally.pending, Bool.not_eq_true]
  rw [hnone]
  simp only [Tally.recorded] at h
  omega

variable (h : r.Quiet n)
include h

theorem recorded_of_quiet {t : Tally}
    (ht : ∀ st, t.pending st = true → st.in_progress = true) : t.recorded (r.run.state n) = 0 := by
  have hledger := r.ledger t n
  have hnone : (r.run.pool n).threads.countP (fun q => t.pending (stage q)) = 0 := by
    rw [countP_eq_zero]
    intro q hq hpending
    have hidle := h q hq
    rw [ht _ hpending] at hidle
    cases hidle
  omega

theorem stored_of_quiet : (r.run.state n).stored.length = (r.run.state n).linked.length := by
  have hzero := recorded_of_quiet h (t := .unstored) fun st => by cases st <;> decide
  simp only [Tally.recorded] at hzero
  omega

theorem floored_of_quiet : (r.run.state n).floored.length = (r.run.state n).evicted.length := by
  have hzero := recorded_of_quiet h (t := .unfloored) fun st => by cases st <;> decide
  simp only [Tally.recorded] at hzero
  omega

theorem counted_of_quiet : (r.run.state n).counted = (r.run.state n).evicted.length := by
  have hzero := recorded_of_quiet h (t := .uncounted) fun st => by cases st <;> decide
  have hfloored := floored_of_quiet h
  simp only [Tally.recorded] at hzero
  omega

theorem count_add_pruned :
    (r.run.state n).entries.length + (r.run.state n).counted = r.appended n := by
  have hwindow := congrArg List.length (r.kept n).window
  rw [length_append] at hwindow
  have hstored := stored_of_quiet h
  have hcounted := counted_of_quiet h
  have hquiet := quiet_iff.mp h
  have happended := r.appended_eq n
  omega

omit h

/-! ## While the generation stays the same -/

theorem same_of_bumps (hxl : x ≤ l) (hquiet : r.Quiet l)
    (hbumps : (r.run.state x).bumps = (r.run.state l).bumps) :
    (r.run.state x).entries = (r.run.state l).entries ∧
      (r.run.state x).log.chain_floor_hash = (r.run.state l).log.chain_floor_hash := by
  have hlater := r.later hxl
  -- an append that was in progress would have moved the generation on
  have hlinked : (r.run.state x).linked.length = (r.run.state l).linked.length := by
    have hle := r.bumps_le x
    have hall := quiet_iff.mp hquiet
    have := hlater.linked
    omega
  have hquietx : r.Quiet x := by
    rw [quiet_iff, hbumps, hlinked]
    exact quiet_iff.mp hquiet
  have hstored : (r.run.state x).stored = (r.run.state l).stored := by
    apply hlater.stored.eq_of_length
    rw [stored_of_quiet hquietx, stored_of_quiet hquiet, hlinked]
  have hwindow : (r.run.state x).evicted ++ (r.run.state x).entries =
      (r.run.state l).evicted ++ (r.run.state l).entries := by
    rw [← (r.kept x).window, ← (r.kept l).window, hstored]
  have hlength : (r.run.state x).entries.length = (r.run.state l).entries.length := by
    rw [(r.kept x).retained, (r.kept l).retained, hstored]
  obtain ⟨hevicted, hentries⟩ := append_inj' hwindow hlength
  refine ⟨hentries, ?_⟩
  have hfloored : (r.run.state x).floored = (r.run.state l).floored := by
    apply hlater.floored.eq_of_length
    rw [floored_of_quiet hquietx, floored_of_quiet hquiet, hevicted]
  rw [(r.kept x).floor, (r.kept l).floor, hfloored]

theorem bumps_of_quiet (hnl : n ≤ l) (hquiet : ∀ x, n ≤ x → x ≤ l → r.Quiet x) :
    (r.run.state n).bumps = (r.run.state l).bumps := by
  induction l, hnl using Nat.le_induction with
  | base => rfl
  | succ l hnl ih =>
    rw [ih fun x hnx hxl => hquiet x hnx (Nat.le_succ_of_le hxl)]
    have hbefore := quiet_iff.mp (hquiet l hnl (Nat.le_succ l))
    have hafter := quiet_iff.mp (hquiet (l + 1) (Nat.le_succ_of_le hnl) (le_refl _))
    have hone : (r.run.state (l + 1)).linked = (r.run.state l).linked ∨
        (r.run.state (l + 1)).bumps = (r.run.state l).bumps := by
      refine r.run.rel_succ (fun s s' => s'.linked = s.linked ∨ s'.bumps = s.bumps) (.inl rfl)
        (fun d => d.elim) ?_
      intro i now γ act _
      cases act with
      | link ev => exact .inr rfl
      | _ => exact .inl rfl
    rcases hone with hlinked | hbumps
    · rw [hbefore, hafter, hlinked]
    · exact hbumps.symm

/-! ## Verdicts -/

def verdict (r : LogSchedule H C) (n : ℕ) : Bool :=
  verify_from H C (r.run.state n).log.chain_floor_hash (r.run.state n).entries

/-- A verdict that was computed from what two later sections read. -/
def Computed (r : LogSchedule H C) (n l : ℕ) (result : Bool) : Prop :=
  ∃ m x, n ≤ m ∧ m ≤ x ∧ x ≤ l ∧
    result = verify_from H C (r.run.state x).log.chain_floor_hash (r.run.state m).entries

theorem Computed.eq_verdict (h : r.Computed n l result) (hquiet : r.Quiet l)
    (hbumps : (r.run.state n).bumps = (r.run.state l).bumps) : result = r.verdict l := by
  obtain ⟨m, x, hnm, hmx, hxl, rfl⟩ := h
  have hbetween : ∀ y, n ≤ y → y ≤ l → (r.run.state y).bumps = (r.run.state l).bumps := by
    intro y hny hyl
    have hfrom := (r.later hny).bumps
    have hto := (r.later hyl).bumps
    omega
  rw [(same_of_bumps (hmx.trans hxl) hquiet (hbetween m hnm (hmx.trans hxl))).1,
    (same_of_bumps hxl hquiet (hbetween x (hnm.trans hmx) hxl)).2, verdict]

theorem Computed.mono (h : r.Computed n l result) {l' : ℕ} (hl : l ≤ l') :
    r.Computed n l' result := by
  obtain ⟨m, x, hnm, hmx, hxl, hresult⟩ := h
  exact ⟨m, x, hnm, hmx, hxl.trans hl, hresult⟩

theorem recheck_trail {cached : Option (UInt64 × Bool)}
    {q : Prog LogSection Bool} (h : r.run.Trail i (recheck H C generation cached) n q l) :
    (∃ result, q = .ret result ∧ (cached = some (generation, result) ∨ r.Computed n l result)) ∨
      (∃ result, q = .step (.write_cached generation result) (fun _ => .ret result) ∧
        r.Computed n l result) ∨
      q.next LogSection.writes_cache = some false := by
  rw [recheck] at h
  split at h
  · rename_i c hc
    obtain ⟨hsome, hgeneration⟩ := Option.filter_eq_some_iff.mp hc
    refine .inl ⟨c.2, h.of_ret, .inl ?_⟩
    rw [hsome, ← of_decide_eq_true hgeneration]
  · obtain rfl | ⟨m, _, hnm, -, -, -, hfloor⟩ := h.of_step
    · exact .inr (.inr rfl)
    obtain rfl | ⟨x, _, hmx, hxl, -, -, hwrite⟩ := hfloor.of_step
    · exact .inr (.inr rfl)
    have hcomputed : r.Computed n l (verify_from H C (r.run.state x).log.chain_floor_hash
        (r.run.state m).entries) := ⟨m, x, hnm, by omega, hxl.le, rfl⟩
    obtain rfl | ⟨y, _, -, -, -, -, hdone⟩ := hwrite.of_step
    · exact .inr (.inl ⟨_, rfl, hcomputed⟩)
    · exact .inl ⟨_, hdone.of_ret, .inr hcomputed⟩

theorem computed_of_write (h : r.run.Performs l i (.write_cached generation result)) :
    ∃ n ≤ l, generation = (r.run.state n).log.generation ∧ r.Computed n l result := by
  have hprog := h
  obtain ⟨_, _, -, hi⟩ := hprog
  obtain ⟨c, hc⟩ := Execution.call_of_prog rfl hi
  cases c with
  | append ev =>
    have honly := h.only (P := fun act => act.writes_cache = false) (prog_zero hc)
      (append_only H C ev)
    cases honly
  | verify_chain_integrity =>
    obtain ⟨k, -, htrail⟩ := h.trail_map (prog_zero hc)
    obtain hfirst | ⟨n, _, -, hnl, -, -, hcached⟩ := htrail.of_step
    · cases congrArg (Prog.next LogSection.writes_cache) hfirst
    obtain hsecond | ⟨y, _, hny, hyl, -, -, hrecheck⟩ := hcached.of_step
    · cases congrArg (Prog.next LogSection.writes_cache) hsecond
    obtain ⟨result', hret, -⟩ | ⟨result', hwrite, hcomputed⟩ | hreads := recheck_trail hrecheck
    · cases hret
    · cases hwrite
      obtain ⟨m, x, hym, hmx, hxl, hresult⟩ := hcomputed
      exact ⟨n, hnl.le, rfl, m, x, by omega, hmx, hxl, hresult⟩
    · cases hreads

theorem cached_succ :
    (r.run.state (l + 1)).log.cached_verification = (r.run.state l).log.cached_verification ∨
      ∃ i generation result, r.run.Performs l i (.write_cached generation result) ∧
        (r.run.state (l + 1)).log.cached_verification = some (generation, result) := by
  obtain hsame | ⟨d, -⟩ | ⟨i, now, γ, act, k, ht, hi, hmoved⟩ := r.run.pool_succ_cases l
  · exact .inl (congrArg (fun p => p.state.log.cached_verification) hsame)
  · exact d.elim
  · have hstate : r.run.state (l + 1) = ((r.run.state l).exec H C act now).1 :=
      congrArg Pool.state hmoved
    rw [hstate]
    cases act with
    | write_cached generation result => exact .inr ⟨i, generation, result, ⟨now, k, ht, hi⟩, rfl⟩
    | _ => exact .inl rfl

theorem computed_of_cached
    (h : (r.run.state l).log.cached_verification = some (generation, result)) :
    ∃ n ≤ l, generation = (r.run.state n).log.generation ∧ r.Computed n l result := by
  induction l with
  | zero => cases h
  | succ l ih =>
    -- the last step has written the verdict, or has left it as it was
    obtain hsame | hwritten := cached_succ (r := r) (l := l)
    · obtain ⟨n, hnl, hgeneration, hcomputed⟩ := ih (hsame.symm.trans h)
      exact ⟨n, Nat.le_succ_of_le hnl, hgeneration, hcomputed.mono (Nat.le_succ l)⟩
    · obtain ⟨i, generation', result', hwrite, hcached⟩ := hwritten
      cases hcached.symm.trans h
      obtain ⟨n, hnl, hgeneration, hcomputed⟩ := computed_of_write hwrite
      exact ⟨n, Nat.le_succ_of_le hnl, hgeneration, hcomputed.mono (Nat.le_succ l)⟩

theorem verify_trail (h : r.run.Trail i (verify_sections H C) n (.ret result) l) :
    (∃ x y, n ≤ x ∧ x ≤ y ∧ y ≤ l ∧ (r.run.state y).log.cached_verification =
        some ((r.run.state x).log.generation, result)) ∨
      r.Computed n l result := by
  obtain ⟨x, _, hnx, -, -, -, hcached⟩ := h.of_step_ret
  obtain ⟨y, _, hxy, hyl, -, -, hrecheck⟩ := hcached.of_step_ret
  obtain ⟨result', hret, hsource⟩ | ⟨result', hwrite, -⟩ | hreads := recheck_trail hrecheck
  · cases hret
    obtain hsame | ⟨m, z, hym, hmz, hzl, hresult⟩ := hsource
    · exact .inl ⟨x, y, hnx, by omega, hyl.le, hsame⟩
    · exact .inr ⟨m, z, by omega, hmz, hzl, hresult⟩
  · cases hwrite
  · cases hreads

end LogSchedule

/-! ## Sections in order -/

/-- The entries are stored in the order they were linked, and the floor follows the evictions in
order. -/
structure LogRun.InOrder (r : LogRun) : Prop where
  stored : r.stored <+: r.linked
  floored : r.floored <+: r.evicted

namespace LogSchedule

theorem verdict_of_in_order (hquiet : r.Quiet l) (horder : (r.run.state l).InOrder) :
    r.verdict l = true := by
  have hstored : (r.run.state l).stored = (r.run.state l).linked :=
    horder.stored.eq_of_length (stored_of_quiet hquiet)
  have hfloored : (r.run.state l).floored = (r.run.state l).evicted :=
    horder.floored.eq_of_length (floored_of_quiet hquiet)
  have hchain := (r.kept l).chain
  rw [← hstored, (r.kept l).window, ← hfloored] at hchain
  rw [verdict, (r.kept l).floor]
  exact (verify_from_append.mp hchain).2

theorem cached_eq_verdict (hquiet : r.Quiet l) (hwrap : r.appended l < 2 ^ 64)
    (hbumps : (r.run.state x).bumps = (r.run.state l).bumps) {y : ℕ} (hy : y ≤ l) {result : Bool}
    (h : (r.run.state y).log.cached_verification = some ((r.run.state x).log.generation, result)) :
    result = r.verdict l := by
  obtain ⟨n, hny, hgeneration, hcomputed⟩ := computed_of_cached h
  refine (hcomputed.mono hy).eq_verdict hquiet ?_
  -- below the wrap, equal generations are equal numbers of appends
  rw [(r.kept x).generation, (r.kept n).generation] at hgeneration
  have hn := (r.later (hny.trans hy)).bumps
  rw [appended_eq] at hwrap
  have hnat := congrArg UInt64.toNat hgeneration
  rw [UInt64.toNat_ofNat', UInt64.toNat_ofNat', Nat.mod_eq_of_lt (by omega),
    Nat.mod_eq_of_lt (by omega)] at hnat
  omega

/-- **The log under concurrent appends.** When no append is in progress, what is retained and what
was pruned make up the appends. If every section came in its turn, a verification also finds the
chain unbroken: one that is made at that moment, with whatever verdict is cached, and one that has
run among others since no append was in progress. -/
theorem log_verifies (r : LogSchedule H C) (l : ℕ) (hquiet : r.Quiet l)
    (hwrap : r.appended l < 2 ^ 64) :
    (r.run.state l).log.count + (r.run.state l).log.pruned_count.toNat = r.appended l ∧
      ((r.run.state l).InOrder → ((r.run.state l).log.verify_chain_integrity H C).2 = true ∧
        ∀ n v result, n ≤ l → (∀ x, n ≤ x → x ≤ l → r.Quiet x) →
          r.run.prog n v = some (LogCall.verify_chain_integrity.prog H C) →
          r.run.answer l v = some (.verdict result) → result = true) := by
  refine ⟨?_, fun horder => ⟨?_, ?_⟩⟩
  · have hcount := count_add_pruned hquiet
    have hpruned := congrArg UInt64.toNat (r.kept l).pruned
    rw [UInt64.toNat_ofNat', Nat.mod_eq_of_lt (by omega)] at hpruned
    rw [hpruned]
    exact hcount
  · have hverdict := verdict_of_in_order hquiet horder
    rw [verify_chain_integrity]
    cases hcached : (r.run.state l).log.cached_verification.filter
        fun c => c.1 = (r.run.state l).log.generation with
    | none => exact hverdict
    | some c =>
      obtain ⟨hsome, hgeneration⟩ := Option.filter_eq_some_iff.mp hcached
      have hpresent : (r.run.state l).log.cached_verification =
          some ((r.run.state l).log.generation, c.2) := by
        rw [hsome, ← of_decide_eq_true hgeneration]
      exact (cached_eq_verdict hquiet hwrap rfl (le_refl l) hpresent).trans hverdict
  · intro n v result hnl hquiets hprog hanswer
    obtain ⟨q, hq, htrail⟩ := Execution.trail hprog hnl
    obtain rfl : q = .ret (.verdict result) :=
      Option.some.inj (hq.symm.trans (Execution.answer_eq_some.mp hanswer))
    obtain ⟨_, y, hverify, hdone⟩ := htrail.of_bind_ret
    cases hdone.of_ret
    rw [← verdict_of_in_order hquiet horder]
    obtain ⟨x, y, hnx, hxy, hyl, hcached⟩ | hcomputed := verify_trail (hverify.extend hdone.le)
    · refine cached_eq_verdict hquiet hwrap ?_ hyl hcached
      exact bumps_of_quiet (hxy.trans hyl) fun z hxz hzl => hquiets z (hnx.trans hxz) hzl
    · exact hcomputed.eq_verdict hquiet (bumps_of_quiet hnl hquiets)

end LogSchedule

/-! ## Runs out of order

Two or three appends on small logs. The hash has no collisions. -/

def sampleLogCrates : LogCrates where
  toClusterCrates := sampleClusterCrates
  f64_display x := Json.decimal x.bits.toNat

def sampleLogEvent (b : UInt8) : LogEvent where
  event_type := ascii "issued"
  issuer_id := ascii "ca"
  jti := some [b]
  kid := none
  sub := [b]
  aud := []
  actions := []
  delegation_depth := 0
  parent_jti := none
  signing_key := none
  uuid := List.replicate 16 b
  timestamp := wall_0

def sampleLogSchedule (max_entries : ℕ) (calls : List LogCall) (turns : List ℕ) :
    LogSchedule sampleIdeal sampleLogCrates where
  calls := calls
  max_entries := max_entries
  ticks := turns.map fun i => .thread i 0

/-- The first verification reads entries and floor in the middle of the second append. -/
def sampleTorn : LogSchedule sampleIdeal sampleLogCrates :=
  sampleLogSchedule 1
    [.append (sampleLogEvent 97), .verify_chain_integrity, .append (sampleLogEvent 98),
      .verify_chain_integrity]
    [0, 0, 0, 1, 1, 2, 2, 1, 1, 1, 2, 2, 2, 3, 3, 3, 3, 3]

theorem log_verifies_sample : sampleTorn.run.answer 18 1 = some (.verdict false) ∧
      (sampleTorn.run.state 18).log.count + (sampleTorn.run.state 18).log.pruned_count.toNat =
        sampleTorn.appended 18 ∧
      ((sampleTorn.run.state 18).log.verify_chain_integrity sampleIdeal sampleLogCrates).2 =
        true := by
  have hquiet : sampleTorn.Quiet 18 := by decide +kernel
  have hwrap : sampleTorn.appended 18 < 2 ^ 64 := by decide +kernel
  have horder : (sampleTorn.run.state 18).InOrder := ⟨by decide +kernel, by decide +kernel⟩
  obtain ⟨hcount, hverifies⟩ := LogSchedule.log_verifies sampleTorn 18 hquiet hwrap
  exact ⟨by decide +kernel, hcount, (hverifies horder).1⟩

def sampleOvertaking : LogSchedule sampleIdeal sampleLogCrates :=
  sampleLogSchedule 10
    [.append (sampleLogEvent 97), .append (sampleLogEvent 98), .verify_chain_integrity]
    [0, 1, 1, 0, 0, 1, 2, 2, 2, 2, 2]

theorem stored_out_of_order : sampleOvertaking.Quiet 6 ∧ sampleOvertaking.appended 6 = 2 ∧
      ((sampleOvertaking.run.state 6).log.verify_chain_integrity sampleIdeal sampleLogCrates).2 =
        false ∧
      sampleOvertaking.Quiet 11 ∧ sampleOvertaking.run.answer 11 2 = some (.verdict false) := by
  decide +kernel

end Saacp
