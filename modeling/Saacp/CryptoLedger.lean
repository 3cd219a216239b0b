/-
**The ledger of the crypto governance**: `CryptoTransparencyLedger` under concurrent appends.

An append reads the last hash, writes the new one and pushes its entry, each under a lock of its
own. A thread is the entry it appends and how far it has come; a schedule says which thread makes
the next step.
-/
import Saacp.AuditRecord
import Saacp.Credentials
import Saacp.HashChain

set_option autoImplicit false

open ByteCodec

namespace Saacp

open List

structure CryptoLedgerEntry where
  timestamp : Double
  event_type : Text
  suite_name : Text
  session_id : Text
  outcome : Text
  transcript_hash : Text
  details : Text
  entry_hash : Text
  deriving DecidableEq

def Double.finite_or_zero : Double → F64
  | .number x => x
  | _ => ⟨0, F64.finite_zero⟩

namespace CryptoLedgerEntry

def canonical (e : CryptoLedgerEntry) : Json :=
  .obj
    [("details", .str e.details),
      ("event_type", .str e.event_type),
      ("outcome", .str e.outcome),
      ("session_id", .str e.session_id),
      ("suite_name", .str e.suite_name),
      ("timestamp", .float e.timestamp.finite_or_zero),
      ("transcript_hash", .str e.transcript_hash)]

def content (e : CryptoLedgerEntry) : CryptoLedgerEntry := { e with entry_hash := [] }

end CryptoLedgerEntry

structure CryptoTransparencyLedger where
  log : List CryptoLedgerEntry
  last_hash : Text

inductive LedgerStage
  | idle
  | read (prev : Text)
  | written (hash : Text)
  | returned
  deriving DecidableEq

def LedgerStage.in_progress : LedgerStage → Bool
  | .idle => false
  | .returned => false
  | _ => true

structure LedgerRun where
  ledger : CryptoTransparencyLedger
  threads : List (CryptoLedgerEntry × LedgerStage)

section

variable (H : Hashes) (J : Json → Text)

/-- The hash that links an entry to the one before it; `J` is `serde_json::to_string`. -/
def link_hash (prev : Text) (e : CryptoLedgerEntry) : Text :=
  hexText (H.sha256 (prev ++ J e.canonical))

def GENESIS_LEDGER_HASH : Text := List.replicate 64 48

namespace CryptoTransparencyLedger

def new : CryptoTransparencyLedger := ⟨[], GENESIS_LEDGER_HASH⟩

def verify_from (prev_hash : Text) : List CryptoLedgerEntry → Bool
  | [] => true
  | e :: log =>
    constant_time_eq_hex e.entry_hash (link_hash H J prev_hash e) &&
      verify_from e.entry_hash log

def verify_chain (l : CryptoTransparencyLedger) : Bool :=
  verify_from H J GENESIS_LEDGER_HASH l.log

end CryptoTransparencyLedger

namespace LedgerRun

def start (entries : List CryptoLedgerEntry) : LedgerRun :=
  ⟨.new, entries.map fun e => (e, .idle)⟩

/-- What the next step of a thread does to the ledger, and how far it has come then. -/
def advance (l : CryptoTransparencyLedger) (x : CryptoLedgerEntry × LedgerStage) :
    CryptoTransparencyLedger × LedgerStage :=
  match x.2 with
  | .idle => (l, .read l.last_hash)
  | .read prev =>
    let hash := link_hash H J prev x.1
    ({ l with last_hash := hash }, .written hash)
  | .written hash => ({ l with log := l.log ++ [{ x.1 with entry_hash := hash }] }, .returned)
  | .returned => (l, .returned)

def step (s : LedgerRun) (i : ℕ) : LedgerRun :=
  match s.threads[i]? with
  | some x =>
    let (ledger, stage) := advance H J s.ledger x
    ⟨ledger, s.threads.set i (x.1, stage)⟩
  | none => s

def run (s : LedgerRun) (schedule : List ℕ) : LedgerRun :=
  schedule.foldl (step H J) s

def busy (s : LedgerRun) : List (CryptoLedgerEntry × LedgerStage) :=
  s.threads.filter fun x => x.2.in_progress

/-- Appends do not overlap: one begins only when no other is in progress. -/
def apart : LedgerRun → List ℕ → Bool
  | _, [] => true
  | s, i :: schedule =>
    decide (s.threads[i]?.map Prod.snd = some .idle → s.busy = []) &&
      apart (s.step H J i) schedule

end LedgerRun

end

variable {H : Hashes} {J : Json → Text} {s : LedgerRun}

namespace LedgerRun

open CryptoTransparencyLedger LedgerStage

variable {i : ℕ}

theorem step_of_some {x : CryptoLedgerEntry × LedgerStage} (h : s.threads[i]? = some x) :
    s.step H J i = ⟨(advance H J s.ledger x).1,
      s.threads.set i (x.1, (advance H J s.ledger x).2)⟩ := by
  rw [step, h]

theorem filter_set {α : Type} (p : α → Bool) {l : List α} {x : α} (h : l[i]? = some x) :
    ∃ l₁ l₂, l.filter p = l₁ ++ [x].filter p ++ l₂ ∧
      ∀ y, (l.set i y).filter p = l₁ ++ [y].filter p ++ l₂ := by
  obtain ⟨hi, rfl⟩ := List.getElem?_eq_some_iff.mp h
  refine ⟨(l.take i).filter p, (l.drop (i + 1)).filter p, ?_, fun y => ?_⟩
  · rw [← filter_append, ← filter_append, append_assoc, singleton_append,
      ← drop_eq_getElem_cons hi, take_append_drop]
  · rw [← filter_append, ← filter_append, append_assoc, singleton_append,
      set_eq_take_append_cons_drop, if_pos hi]

/-! ## Every entry once -/

def Complete (s : LedgerRun) : Prop :=
  (s.ledger.log.map (·.content)).Perm
    ((s.threads.filter fun x => x.2 = .returned).map fun x => x.1.content)

theorem complete_step (h : s.Complete) (i : ℕ) : (s.step H J i).Complete := by
  unfold Complete at h ⊢
  cases hi : s.threads[i]? with
  | none => simpa only [step, hi] using h
  | some x =>
    obtain ⟨e, stage⟩ := x
    obtain ⟨l₁, l₂, hfilter, hset⟩ :=
      filter_set (fun x : CryptoLedgerEntry × LedgerStage => decide (x.2 = .returned)) hi
    rw [step_of_some hi]
    simp only [hset]
    rw [hfilter] at h
    cases stage with
    | idle | read | returned => simpa [advance] using h
    | written hash =>
      have hmiddle : ∀ (a b : List CryptoLedgerEntry) c, (a ++ b ++ [c]).Perm (a ++ [c] ++ b) := by
        intro a b c
        rw [append_assoc, append_assoc]
        exact perm_append_comm.append_left a
      rw [show filter _ [(e, written hash)] = [] from rfl, append_nil, map_append] at h
      show (map _ (s.ledger.log ++ [{ e with entry_hash := hash }])).Perm
        (map _ (l₁ ++ [(e, .returned)] ++ l₂))
      rw [map_append, map_append, map_append]
      exact (h.append_right [e.content]).trans (hmiddle _ _ _)

/-! ## One unbroken chain -/

def head (s : LedgerRun) : Text :=
  HashChain.head (·.entry_hash) GENESIS_LEDGER_HASH s.ledger.log

theorem verify_from_concat (prev : Text) (log : List CryptoLedgerEntry) (e : CryptoLedgerEntry) :
    verify_from H J prev (log ++ [e]) =
      (verify_from H J prev log && constant_time_eq_hex e.entry_hash
        (link_hash H J (HashChain.head (·.entry_hash) prev log) e)) := by
  induction log generalizing prev with
  | nil => simp [verify_from]
  | cons x log ih => simp [verify_from, ih, HashChain.head_cons, Bool.and_assoc]

/-- The log is a chain. No append is in progress and the last hash is that of the last entry; or one
is, and has read it, or has written the hash that continues it. -/
def Linked (H : Hashes) (J : Json → Text) (s : LedgerRun) : Prop :=
  s.ledger.verify_chain H J = true ∧
    (s.busy = [] ∧ s.ledger.last_hash = s.head ∨
      ∃ x, s.busy = [x] ∧ (x.2 = .read s.head ∨ x.2 = .written s.ledger.last_hash ∧
        s.ledger.last_hash = link_hash H J s.head x.1))

theorem busy_set {x y : CryptoLedgerEntry × LedgerStage} (hone : s.busy = [x])
    (hi : s.threads[i]? = some y) (hy : y.2.in_progress = true) :
    x = y ∧ ∀ z, (s.threads.set i z).filter (fun x => x.2.in_progress) =
      [z].filter fun x => x.2.in_progress := by
  obtain ⟨l₁, l₂, hfilter, hset⟩ := filter_set (fun x => x.2.in_progress) hi
  have hall : [x] = l₁ ++ y :: l₂ := by
    rw [← hone, busy, hfilter, filter_singleton, hy, append_assoc]
    rfl
  obtain ⟨rfl, hrest⟩ | ⟨-, hnil⟩ := append_eq_singleton_iff.mp hall.symm
  · obtain ⟨rfl, rfl⟩ := cons_eq_cons.mp hrest
    exact ⟨rfl, fun z => by rw [hset, nil_append, append_nil]⟩
  · cases hnil

theorem linked_step (h : s.Linked H J)
    (hapart : s.threads[i]?.map Prod.snd = some .idle → s.busy = []) :
    (s.step H J i).Linked H J := by
  obtain ⟨hverify, hbusy⟩ := h
  rcases hi : s.threads[i]? with _ | ⟨e, stage⟩
  · simpa only [step, hi] using ⟨hverify, hbusy⟩
  have hmem : (e, stage).2.in_progress = true → s.busy ≠ [] := fun hmoving =>
    ne_nil_of_mem (mem_filter.mpr ⟨mem_of_getElem? hi, hmoving⟩)
  rw [step_of_some hi]
  cases stage with
  | idle =>
    have hnone := hapart (by rw [hi]; rfl)
    obtain ⟨l₁, l₂, hfilter, hset⟩ := filter_set (fun x => x.2.in_progress) hi
    have hlast : s.ledger.last_hash = s.head := by
      rcases hbusy with ⟨-, hlast⟩ | ⟨x, hone, -⟩
      · exact hlast
      · cases hone.symm.trans hnone
    obtain ⟨hl, rfl⟩ := append_eq_nil_iff.mp (hfilter.symm.trans hnone)
    obtain ⟨rfl, -⟩ := append_eq_nil_iff.mp hl
    refine ⟨hverify, .inr ⟨_, hset _, .inl ?_⟩⟩
    exact congrArg read hlast
  | read prev =>
    obtain ⟨hnone, -⟩ | ⟨x, hone, hx⟩ := hbusy
    · exact absurd hnone (hmem rfl)
    · obtain ⟨rfl, hset⟩ := busy_set hone hi rfl
      obtain hread | ⟨hwritten, -⟩ := hx
      · obtain rfl := read.inj hread
        exact ⟨hverify, .inr ⟨_, hset _, .inr ⟨rfl, rfl⟩⟩⟩
      · cases hwritten
  | written hash =>
    obtain ⟨hnone, -⟩ | ⟨x, hone, hx⟩ := hbusy
    · exact absurd hnone (hmem rfl)
    · obtain ⟨rfl, hset⟩ := busy_set hone hi rfl
      obtain hread | ⟨hwritten, hlast⟩ := hx
      · cases hread
      · obtain rfl := written.inj hwritten
        refine ⟨?_, .inl ⟨hset _, by simp [head, advance]⟩⟩
        simp only [verify_chain, advance, verify_from_concat, Bool.and_eq_true]
        refine ⟨hverify, ?_⟩
        rw [hlast]
        exact constant_time_eq_hex_self _
  | returned =>
    obtain ⟨hlt, hself⟩ := List.getElem?_eq_some_iff.mp hi
    have hsame : s.threads.set i (e, .returned) = s.threads := by rw [← hself, set_getElem_self]
    simpa only [advance, hsame] using ⟨hverify, hbusy⟩

/-! ## Whole runs -/

theorem complete_run (h : s.Complete) (schedule : List ℕ) : (s.run H J schedule).Complete := by
  exact List.foldlRecOn schedule _ h fun _ hs i _ => complete_step hs i

theorem linked_run (h : s.Linked H J) {schedule : List ℕ} (hapart : s.apart H J schedule = true) :
    (s.run H J schedule).Linked H J := by
  induction schedule generalizing s with
  | nil => exact h
  | cons i schedule ih =>
    rw [apart, Bool.and_eq_true] at hapart
    exact ih (linked_step h (of_decide_eq_true hapart.1)) hapart.2

theorem busy_start (entries : List CryptoLedgerEntry) : (start entries).busy = [] := by
  simp [start, busy, in_progress]

end LedgerRun

open LedgerRun in
/-- **The ledger under concurrent appends.** Every append that has returned has its entry in the log
exactly once, under any schedule. The log verifies whenever no append is in progress, if no append
begins while another one is. -/
theorem ledger_verifies (H : Hashes) (J : Json → Text)
    (entries : List CryptoLedgerEntry) (schedule : List ℕ) :
    (((start entries).run H J schedule).ledger.log.map (·.content)).Perm
        ((((start entries).run H J schedule).threads.filter fun x =>
          x.2 = .returned).map fun x => x.1.content) ∧
      ((start entries).apart H J schedule = true → ((start entries).run H J schedule).busy = [] →
          ((start entries).run H J schedule).ledger.verify_chain H J = true) := by
  constructor
  · refine complete_run ?_ schedule
    simp [start, Complete, CryptoTransparencyLedger.new]
  · intro hapart _
    exact (linked_run ⟨rfl, .inl ⟨busy_start entries, rfl⟩⟩ hapart).1

def sampleLedgerEntry (details : Text) : CryptoLedgerEntry :=
  ⟨.number ⟨0, F64.finite_zero⟩, [], [], [], [], [], details, []⟩

def sampleDetails (value : Json) : Text := (value.index "details").as_str.getD []

def sampleLedger (schedule : List ℕ) : LedgerRun :=
  (LedgerRun.start [sampleLedgerEntry [97], sampleLedgerEntry [98]]).run sampleHashes sampleDetails
    schedule

theorem ledger_verifies_sample :
    (sampleLedger [0, 0, 0, 1, 1, 1]).ledger.verify_chain sampleHashes sampleDetails = true :=
  (ledger_verifies sampleHashes sampleDetails [sampleLedgerEntry [97], sampleLedgerEntry [98]]
    [0, 0, 0, 1, 1, 1]).2 (by decide +kernel) (by decide +kernel)

/-- Two appends that read the same last hash: both return, and the chain is broken. -/
theorem ledger_forked : (sampleLedger [0, 1, 0, 0, 1, 1]).busy = [] ∧
      (sampleLedger [0, 1, 0, 0, 1, 1]).ledger.log.length = 2 ∧
      (sampleLedger [0, 1, 0, 0, 1, 1]).ledger.verify_chain sampleHashes sampleDetails = false := by
  decide +kernel

end Saacp
