/-
**Verification of the log file**, and what a restart reads out of it.

`verify_chain_disk` replays the file line by line with a `Walk`: what the next record of each shard,
the next record of the first version and the next anchor have to chain to. `initialize_chain` goes
over the same lines with a `Scan`; the two agree on a file that verifies (`scan_agrees`).
-/
import Saacp.AuditRecord
import Mathlib.Data.List.Basic
import Mathlib.Logic.Function.Basic

set_option autoImplicit false

open ByteCodec

namespace Saacp

open CanonicalAuditRecord

/-- The two files of a log. `none` means that the file does not exist. -/
structure Disk (S : SerdeJson) where
  log : Option (List S.Line)
  sentinel : Option UInt64

structure Walk where
  expected_v1_hash : Text
  final_v1_hash : Option Text
  expected_v2 : ShardIdx → Option Text
  expected_prev_root : Text

def Walk.start : Walk := ⟨GENESIS_HASH, none, fun _ => none, ANCHOR_GENESIS_ROOT⟩

section

variable (H : Hashes) (S : SerdeJson) (key : List UInt8)

def Walk.head (w : Walk) (i : ShardIdx) : Text :=
  (w.expected_v2 i).getD (migration_seed_hash H i w.final_v1_hash)

/-- An anchor chains to the previous one, and its heads are those the records before it produced. -/
def Walk.anchor (w : Walk) (anchor_val : Json) : Option Walk := do
  let anchor ← S.merkle_anchor_from_value anchor_val
  guard (anchor.heads.length = AUDIT_SHARDS)
  guard (anchor.prev_root = w.expected_prev_root)
  guard (heads_root H anchor.heads = anchor.root)
  guard (∀ i : ShardIdx, anchor.heads.getD i [] = w.head H i)
  return { w with expected_prev_root := anchor.root }

/-- The fields every record must have, with the hash of the entry. -/
def read_entry (entry : Json) : Option (Text × CanonicalAuditRecord) := do
  let record := entry.index "record"
  let chain_hash ← (entry.index "chain_hash").as_str
  let intent ← (record.index "intent").as_str
  let seq ← (record.index "seq").as_u64
  let source ← (record.index "source").as_str
  let target ← (record.index "target").as_str
  let timestamp ← S.as_f64 (record.index "timestamp")
  let token_signature ← (record.index "token_signature").as_str
  let traceparent ← (record.index "traceparent").as_str
  return (chain_hash,
    { intent, seq, source, target, timestamp, token_signature, traceparent
      prev_hash := (record.index "prev_hash").as_str.getD []
      anchor_epoch := none, shard_id := none, shard_seq := none, v := none })

def record_u64 (entry : Json) (key : String) : Option UInt64 :=
  ((entry.index "record").get key).bind Json.as_u64

def Walk.record_v2 (w : Walk) (entry : Json) (hash : Text) (r : CanonicalAuditRecord)
    (shard_id_raw : UInt64) : Option Walk :=
  if hsid : shard_id_raw.toNat < AUDIT_SHARDS then do
    let shard_id : ShardIdx := ⟨shard_id_raw.toNat, hsid⟩
    let shard_seq ← record_u64 entry "shard_seq"
    let anchor_epoch ← record_u64 entry "anchor_epoch"
    guard (record_u64 entry "v" = some AUDIT_RECORD_VERSION_V2.toUInt64)
    guard (r.prev_hash = w.head H shard_id)
    -- the hash covers the fields as they were read, and becomes the head as it was given
    let r := { r with anchor_epoch := some anchor_epoch, shard_id := some shard_id_raw.toUInt16,
                      shard_seq := some shard_seq, v := some AUDIT_RECORD_VERSION_V2 }
    guard (constant_time_eq_hex (r.chain_hash H S key) hash)
    return { w with expected_v2 := Function.update w.expected_v2 shard_id (some hash) }
  else none

/-- A record of the first version, accepted only before the first record of a shard. -/
def Walk.record_v1 (w : Walk) (hash : Text) (r : CanonicalAuditRecord) : Option Walk := do
  guard (∀ i : ShardIdx, w.expected_v2 i = none)
  guard (r.prev_hash = w.expected_v1_hash)
  guard (constant_time_eq_hex (r.chain_hash H S key) hash)
  return { w with expected_v1_hash := hash, final_v1_hash := some hash }

/-- One line of the replay; `none` is `return false`. -/
def Walk.line (w : Walk) (line : S.Line) : Option Walk := do
  let entry ← S.from_str line
  match entry.get ANCHOR_LINE_KEY with
  | some anchor_val => w.anchor H S anchor_val
  | none =>
    let (hash, r) ← read_entry S entry
    -- the version is decided by the shard id alone
    match record_u64 entry "shard_id" with
    | some shard_id_raw => w.record_v2 H S key entry hash r shard_id_raw
    | none => w.record_v1 H S key hash r

variable (content : List S.Line)

/-- `content.lines().filter(|l| !l.is_empty())`. -/
def nonempty_lines : List S.Line :=
  content.filter fun line => !(S.as_bytes line).isEmpty

def replay : Option Walk :=
  (nonempty_lines S content).foldlM (Walk.line H S key) Walk.start

def is_record (line : S.Line) : Bool :=
  (S.from_str line).any fun v => (v.get ANCHOR_LINE_KEY).isNone

/-- A line without the text `"anchor"` is not even parsed. -/
def is_record_line (line : S.Line) : Bool :=
  !containsSub ANCHOR_MARK (S.as_bytes line) || is_record S line

def record_lines : ℕ := (nonempty_lines S content).countP (is_record_line S)

/-- `verify_chain_disk`. The counter is read only when there is no file. -/
def verify_chain_disk (disk : Disk S) (global_seq : UInt64) : Bool :=
  match disk.log with
  | none => global_seq == 0
  | some content =>
    -- fewer records than the sentinel has counted: the file was cut
    if disk.sentinel.any fun sentinel => record_lines S content < sentinel.toNat then false
    else if (nonempty_lines S content).isEmpty then true
    else (replay H S key content).isSome

/-- What `initialize_chain` collects from the file. -/
structure Scan where
  record_count : UInt64
  final_v1_hash : Option Text
  heads : ShardIdx → Option (Text × UInt64)
  max_anchor_epoch : UInt64

def Scan.start : Scan := ⟨0, none, fun _ => none, 0⟩

def Scan.record (sc : Scan) (entry : Json) (hash : Text) : Scan :=
  let sc := { sc with record_count := sc.record_count + 1 }
  match record_u64 entry "shard_id", record_u64 entry "shard_seq" with
  | some sid, some sseq =>
    if hsid : sid.toNat < AUDIT_SHARDS then
      { sc with heads := Function.update sc.heads ⟨sid.toNat, hsid⟩ (some (hash, sseq + 1)) }
    else { sc with final_v1_hash := some hash } -- verification has ruled this out
  | _, _ => { sc with final_v1_hash := some hash }

/-- One line of the scan. A line that does not parse, or has no hash, is skipped. -/
def Scan.line (sc : Scan) (line : S.Line) : Scan :=
  match S.from_str line with
  | none => sc
  | some entry =>
    match entry.get ANCHOR_LINE_KEY with
    | some anchor =>
      let epoch := ((anchor.get "epoch").bind Json.as_u64).getD 0
      { sc with max_anchor_epoch := max sc.max_anchor_epoch epoch }
    | none =>
      match (entry.index "chain_hash").as_str with
      | none => sc
      | some hash => sc.record entry hash

def scan : Scan := (nonempty_lines S content).foldl (Scan.line S) Scan.start

end

/-! ## Honest lines -/

structure AuditLogEntry where
  record : AuditRecord
  chain_hash : Text

section

variable (H : Hashes) (S : SerdeJson) (key : List UInt8)

def AuditLogEntry.line (e : AuditLogEntry) : S.Line :=
  S.entry_line (.from_record e.record) e.chain_hash

structure AuditLogEntry.Sealed (e : AuditLogEntry) (i : ShardIdx) : Prop where
  shard : e.record.shard_id = some (UInt16.ofNat i)
  position : ∃ n, e.record.shard_seq = some n
  epoch : ∃ n, e.record.anchor_epoch = some n
  hash : e.chain_hash = (CanonicalAuditRecord.from_record e.record).chain_hash H S key

end

section

variable {H : Hashes} {S : SerdeJson} {key : List UInt8}

variable (r : CanonicalAuditRecord)

def entry_value (hash : Text) : Json :=
  .obj [("chain_hash", .str hash), ("record", r.to_value)]

open List

theorem get_anchor_entry_value (hash : Text) : (entry_value r hash).get ANCHOR_LINE_KEY = none := by
  simp [entry_value, Json.get, lookup_cons, lookup_nil, ANCHOR_LINE_KEY]

theorem record_u64_entry_value (hash : Text) :
    record_u64 (entry_value r hash) "shard_id" = r.shard_id.map UInt16.toUInt64 ∧
    record_u64 (entry_value r hash) "shard_seq" = r.shard_seq ∧
    record_u64 (entry_value r hash) "anchor_epoch" = r.anchor_epoch ∧
    record_u64 (entry_value r hash) "v" = r.v.map UInt8.toUInt64 := by
  obtain ⟨epoch, _, _, _, shard_id, shard_seq, _, _, _, _, _, v⟩ := r
  rcases epoch with _ | _ <;> rcases shard_id with _ | _ <;>
    rcases shard_seq with _ | _ <;> rcases v with _ | _ <;>
    simp [record_u64, entry_value, to_value, optional_field, Json.index,
      Json.get, lookup_cons, lookup_nil, Json.as_u64]

theorem read_entry_entry_value (hash : Text) : read_entry S (entry_value r hash) =
      some (hash, { r with anchor_epoch := none, shard_id := none, shard_seq := none,
                           v := none }) := by
  obtain ⟨anchor_epoch, _, _, _, shard_id, shard_seq, _, _, _, _, _, v⟩ := r
  rcases anchor_epoch with _ | _ <;> rcases shard_id with _ | _ <;>
    rcases shard_seq with _ | _ <;> rcases v with _ | _ <;>
    simp [read_entry, entry_value, to_value, optional_field, Json.index,
      Json.get, lookup_cons, Json.as_u64, Json.as_str, SerdeJson.as_f64, Json.as_f64]

variable {e : AuditLogEntry} {i : ShardIdx} {w : Walk} {content : List S.Line}

theorem AuditLogEntry.Sealed.from_str (hS : S.Lawful) (he : e.Sealed H S key i) :
    S.from_str (e.line S) = some (entry_value (.from_record e.record) e.chain_hash) := by
  rw [AuditLogEntry.line, he.hash]
  exact hS.from_entry_line _ _

theorem AuditLogEntry.Sealed.fields (he : e.Sealed H S key i) :
    let read := record_u64 (entry_value (.from_record e.record) e.chain_hash)
    ∃ shard_seq anchor_epoch, read "shard_id" = some (UInt16.ofNat i).toUInt64 ∧
      read "shard_seq" = some shard_seq ∧ read "anchor_epoch" = some anchor_epoch ∧
      read "v" = some AUDIT_RECORD_VERSION_V2.toUInt64 ∧
      { from_record e.record with
        anchor_epoch := some anchor_epoch
        shard_id := some (UInt16.ofNat i.val).toUInt64.toUInt16
        shard_seq := some shard_seq
        v := some AUDIT_RECORD_VERSION_V2 } = from_record e.record := by
  obtain ⟨shard_seq, hseq⟩ := he.position
  obtain ⟨anchor_epoch, hepoch⟩ := he.epoch
  have hv2 : e.record.v2_fields = (some (UInt16.ofNat i), some shard_seq, some anchor_epoch,
      some AUDIT_RECORD_VERSION_V2) := by
    rw [AuditRecord.v2_fields, he.shard, hseq, hepoch]
  obtain ⟨hshard, hsseq, hep, hver⟩ := record_u64_entry_value (.from_record e.record) e.chain_hash
  refine ⟨shard_seq, anchor_epoch, ?_, ?_, ?_, ?_, ?_⟩
  · rw [hshard, show (from_record e.record).shard_id = _ from
      congrArg (·.1) hv2]
    rfl
  · rw [hsseq, show (from_record e.record).shard_seq = _ from
      congrArg (·.2.1) hv2]
  · rw [hep, show (from_record e.record).anchor_epoch = _ from
      congrArg (·.2.2.1) hv2]
  · rw [hver, show (from_record e.record).v = _ from
      congrArg (·.2.2.2) hv2]
    rfl
  · simp only [from_record, hv2, UInt16.toUInt16_toUInt64]

open Walk

theorem Walk.line_entry (hS : S.Lawful)
    (he : e.Sealed H S key i) (hprev : e.record.prev_hash = w.head H i) :
    w.line H S key (e.line S) =
      some { w with expected_v2 := Function.update w.expected_v2 i (some e.chain_hash) } := by
  obtain ⟨shard_seq, epoch, hshard, hsseq, hep, hver, hsame⟩ := he.fields
  have hself : constant_time_eq_hex ((from_record e.record).chain_hash H S key)
      e.chain_hash = true := by
    rw [he.hash]
    exact constant_time_eq_hex_self _
  have hsid : (UInt16.ofNat i.val).toUInt64.toNat = i.val := by
    have : i.val < 16 := i.isLt
    rw [UInt16.toNat_toUInt64, UInt16.toNat_ofNat']
    omega
  simp only [line, he.from_str hS, Option.bind_eq_bind, Option.bind_some,
    get_anchor_entry_value, read_entry_entry_value, hshard]
  rw [record_v2, dif_pos (by rw [hsid]; exact i.isLt)]
  simp only [hsseq, hep, hver, Option.bind_eq_bind, Option.bind_some, hsid, hsame, hself, guard,
    if_true]
  rw [if_pos (show (from_record e.record).prev_hash = _ from hprev)]
  rfl

theorem Walk.line_anchor (hS : S.Lawful) {a : MerkleAnchor}
    (hheads : a.heads = List.ofFn (w.head H)) (hroot : a.root = heads_root H a.heads)
    (hprev : a.prev_root = w.expected_prev_root) :
    w.line H S key (S.anchor_line a) = some { w with expected_prev_root := a.root } := by
  have hget : (Json.obj [("anchor", a.to_value)]).get ANCHOR_LINE_KEY = some a.to_value := by
    simp [Json.get, ANCHOR_LINE_KEY]
  have hlen : a.heads.length = AUDIT_SHARDS := by rw [hheads, length_ofFn]
  have hall : ∀ i : ShardIdx, a.heads.getD i [] = w.head H i := by
    intro i
    rw [hheads, List.getD_eq_getElem?_getD, List.getElem?_ofFn, dif_pos i.isLt]
    rfl
  simp only [line, hS.from_anchor_line, Option.bind_eq_bind, Option.bind_some, hget,
    anchor, SerdeJson.merkle_anchor_from_to_value, hlen, hprev, ← hroot, guard, if_true]
  rw [if_pos hall]
  rfl

/-! ## Files -/

theorem entry_line_ne_nil (hS : S.Lawful) (e : AuditLogEntry) : S.as_bytes (e.line S) ≠ [] := by
  have hopen : ascii "\x7b\"record\":" ≠ [] := by decide +kernel
  rw [AuditLogEntry.line, SerdeJson.entry_line, hS.as_bytes_format_entry]
  simp [hopen]

theorem anchor_line_ne_nil (hS : S.Lawful) (a : MerkleAnchor) :
    S.as_bytes (S.anchor_line a) ≠ [] := by
  intro hnil
  have hmark := hS.anchor_line_marked a
  rw [hnil] at hmark
  exact absurd hmark (by decide)

theorem nonempty_lines_append {line : S.Line} (hline : S.as_bytes line ≠ []) :
    nonempty_lines S (content ++ [line]) = nonempty_lines S content ++ [line] := by
  simp [nonempty_lines, filter_append, hline]

theorem replay_append {line : S.Line} (hline : S.as_bytes line ≠ [])
    (hreplay : replay H S key content = some w) :
    replay H S key (content ++ [line]) = w.line H S key line := by
  unfold replay at hreplay ⊢
  rw [nonempty_lines_append hline, foldlM_append, hreplay]
  simp

theorem record_lines_add (lines rest : List S.Line) :
    record_lines S (lines ++ rest) = record_lines S lines + record_lines S rest := by
  simp only [record_lines, nonempty_lines, filter_append, countP_append]

theorem record_lines_append {line : S.Line} (hline : S.as_bytes line ≠ []) :
    record_lines S (content ++ [line]) =
      record_lines S content + if is_record_line S line then 1 else 0 := by
  rw [record_lines, nonempty_lines_append hline, countP_append, countP_singleton, record_lines]

theorem is_record_line_entry (hS : S.Lawful)
    (he : e.Sealed H S key i) : is_record_line S (e.line S) = true := by
  rw [is_record_line, is_record, he.from_str hS, Option.any_some, get_anchor_entry_value]
  exact Bool.or_true _

theorem is_record_line_anchor (hS : S.Lawful) (a : MerkleAnchor) :
    is_record_line S (S.anchor_line a) = false := by
  rw [is_record_line, hS.anchor_line_marked, is_record, hS.from_anchor_line]
  simp [Json.get, ANCHOR_LINE_KEY]

theorem verify_chain_disk_iff (content : List S.Line) (sentinel : Option UInt64)
    (global_seq : UInt64) :
    verify_chain_disk H S key ⟨some content, sentinel⟩ global_seq = true ↔
      (replay H S key content).isSome ∧
        ∀ n, sentinel = some n → n.toNat ≤ record_lines S content := by
  have hsentinel : (sentinel.any fun n => decide (record_lines S content < n.toNat)) = true ↔
      ¬ ∀ n, sentinel = some n → n.toNat ≤ record_lines S content := by
    rcases sentinel with _ | n
    · simp
    · simp
  simp only [verify_chain_disk]
  by_cases hany : ∀ n, sentinel = some n → n.toNat ≤ record_lines S content
  · rw [if_neg (by rw [hsentinel]; exact fun hnot => hnot hany)]
    by_cases hempty : (nonempty_lines S content).isEmpty = true
    · have hreplay : replay H S key content = some start := by
        rw [replay, isEmpty_iff.mp hempty]
        rfl
      rw [if_pos hempty, hreplay]
      simpa using hany
    · rw [if_neg hempty]
      simpa using fun _ => hany
  · rw [if_pos (hsentinel.mpr hany)]
    simp [hany]

/-- The log replays, and the sentinel asks for no more records than there are. -/
structure Disk.Sound (H : Hashes) (issuer_secret : List UInt8) (disk : Disk S) : Prop where
  replays : ∃ w, replay H S issuer_secret (disk.log.getD []) = some w
  sentinel : ∀ n, disk.sentinel = some n → n.toNat ≤ record_lines S (disk.log.getD [])

theorem Disk.Sound.verify {disk : Disk S} (h : disk.Sound H key) {global_seq : UInt64}
    (hnone : disk.log = none → global_seq = 0) :
    verify_chain_disk H S key disk global_seq = true := by
  obtain ⟨_ | content, sentinel⟩ := disk
  · rw [verify_chain_disk, hnone rfl]
    rfl
  · obtain ⟨w, hw⟩ := h.replays
    refine (verify_chain_disk_iff content sentinel _).mpr ⟨?_, h.sentinel⟩
    rw [show replay H S key content = some w from hw]
    rfl

/-- Files that verify in a new instance are in order, unless there is a count file without a log
file. -/
theorem Disk.sound_of_verify {disk : Disk S} (hfile : disk.log.isSome ∨ disk.sentinel = none)
    {global_seq : UInt64} (h : verify_chain_disk H S key disk global_seq = true) :
    disk.Sound H key := by
  obtain ⟨_ | content, sentinel⟩ := disk
  · obtain rfl : sentinel = none := by simpa using hfile
    exact ⟨⟨start, rfl⟩, fun _ hn => nomatch hn⟩
  · obtain ⟨hreplay, hsentinel⟩ := (verify_chain_disk_iff content sentinel _).mp h
    exact ⟨Option.isSome_iff_exists.mp hreplay, hsentinel⟩

/-! ## Walk and scan -/

theorem read_entry_some {entry : Json} {hash : Text} {r : CanonicalAuditRecord}
    (h : read_entry S entry = some (hash, r)) :
    (entry.index "chain_hash").as_str = some hash ∧ r.shard_id = none := by
  simp only [read_entry, Option.bind_eq_bind, Option.bind_eq_some_iff, Option.pure_def,
    Option.some.injEq, Prod.mk.injEq] at h
  obtain ⟨_, hhash, _, _, _, _, _, _, _, _, _, _, _, _, _, _, rfl, rfl⟩ := h
  exact ⟨hhash, rfl⟩

/-- **Everything a line that passes can do.** -/
theorem Walk.line_cases {w' : Walk} {line : S.Line} (h : w.line H S key line = some w') :
    ∃ entry, S.from_str line = some entry ∧
      ((∃ anchor_val a, entry.get ANCHOR_LINE_KEY = some anchor_val ∧
          S.merkle_anchor_from_value anchor_val = some a ∧
          (∀ i : ShardIdx, a.heads.getD i [] = w.head H i) ∧
          w' = { w with expected_prev_root := a.root }) ∨
        (entry.get ANCHOR_LINE_KEY = none ∧ ∃ hash r, read_entry S entry = some (hash, r) ∧
          ((∃ sid sseq epoch, ∃ hsid : sid.toNat < AUDIT_SHARDS,
              record_u64 entry "shard_id" = some sid ∧ record_u64 entry "shard_seq" = some sseq ∧
              record_u64 entry "anchor_epoch" = some epoch ∧
              r.prev_hash = w.head H ⟨sid.toNat, hsid⟩ ∧
              constant_time_eq_hex (chain_hash H S key { r with
                anchor_epoch := some epoch, shard_id := some sid.toUInt16,
                shard_seq := some sseq, v := some AUDIT_RECORD_VERSION_V2 }) hash = true ∧
              w' = { w with expected_v2 :=
                Function.update w.expected_v2 ⟨sid.toNat, hsid⟩ (some hash) }) ∨
            (record_u64 entry "shard_id" = none ∧
              constant_time_eq_hex (r.chain_hash H S key) hash = true ∧
              w' = { w with expected_v1_hash := hash, final_v1_hash := some hash })))) := by
  rw [Walk.line, Option.bind_eq_bind, Option.bind_eq_some_iff] at h
  obtain ⟨entry, hparse, h⟩ := h
  refine ⟨entry, hparse, ?_⟩
  rcases hget : entry.get ANCHOR_LINE_KEY with _ | anchor_val
  · right
    simp only [hget, Option.bind_eq_bind, Option.bind_eq_some_iff] at h
    obtain ⟨⟨hash, r⟩, hread, h⟩ := h
    refine ⟨rfl, hash, r, hread, ?_⟩
    rcases hsid : record_u64 entry "shard_id" with _ | sid
    · right
      simp only [hsid, record_v1, Option.bind_eq_bind, Option.bind_eq_some_iff,
        Option.guard_eq_some'] at h
      obtain ⟨_, _, _, _, _, hmac, hw⟩ := h
      exact ⟨rfl, hmac, (Option.some.inj hw).symm⟩
    · left
      simp only [hsid, record_v2] at h
      split at h
      · rename_i hlt
        simp only [Option.bind_eq_bind, Option.bind_eq_some_iff, Option.guard_eq_some'] at h
        obtain ⟨sseq, hseq, epoch, hepoch, _, _, _, hprev, _, hmac, hw⟩ := h
        exact ⟨sid, sseq, epoch, hlt, rfl, hseq, hepoch, hprev, hmac, (Option.some.inj hw).symm⟩
      · cases h
  · left
    simp only [hget, anchor, Option.bind_eq_bind, Option.bind_eq_some_iff,
      Option.guard_eq_some'] at h
    obtain ⟨a, ha, _, _, _, _, _, _, _, hheads, hw⟩ := h
    exact ⟨anchor_val, a, rfl, ha, hheads, (Option.some.inj hw).symm⟩

/-- **Induction along the replay.** -/
theorem foldlM_line_inv {I : List S.Line → Walk → Prop} {w₀ : Walk} (hstart : I [] w₀)
    {lines : List S.Line} (hstep : ∀ done, ∀ line ∈ lines, ∀ w w', I done w →
      w.line H S key line = some w' → I (done ++ [line]) w')
    (h : lines.foldlM (Walk.line H S key) w₀ = some w) : I lines w := by
  induction lines using reverseRecOn generalizing w with
  | nil => exact Option.some.inj h ▸ hstart
  | append_singleton lines line ih =>
    rw [foldlM_append, Option.bind_eq_bind, Option.bind_eq_some_iff] at h
    obtain ⟨w₁, hlines, hline⟩ := h
    have hdone := ih (fun done l hl => hstep done l (mem_append_left _ hl)) hlines
    exact hstep lines line (by simp) w₁ w hdone (by simpa using hline)

def is_anchor (S : SerdeJson) (line : S.Line) : Bool :=
  (S.from_str line).any fun v => (v.get ANCHOR_LINE_KEY).isSome

theorem prev_root_of_no_anchor (hnone : content.any (is_anchor S) = false)
    (h : replay H S key content = some w) : w.expected_prev_root = ANCHOR_GENESIS_ROOT := by
  refine foldlM_line_inv (I := fun _ w => w.expected_prev_root = ANCHOR_GENESIS_ROOT) rfl ?_ h
  intro _ line hline w w' hw hstep
  have hno := any_eq_false.mp hnone line (mem_of_mem_filter hline)
  obtain ⟨entry, hparse, ⟨_, _, hget, -⟩ | ⟨-, hash, r, -, hcases⟩⟩ := line_cases hstep
  · simp [is_anchor, hparse, hget] at hno
  · rcases hcases with ⟨_, _, _, _, -, -, -, -, -, rfl⟩ | ⟨-, -, rfl⟩
    · exact hw
    · exact hw

structure Scan.Agrees (sc : Scan) (w : Walk) : Prop where
  heads : ∀ i, (sc.heads i).map Prod.fst = w.expected_v2 i
  final_v1_hash : sc.final_v1_hash = w.final_v1_hash

theorem Scan.Agrees.line {sc : Scan} {w' : Walk} {line : S.Line} (hag : sc.Agrees w)
    (h : w.line H S key line = some w') :
    (sc.line S line).Agrees w' ∧ (sc.line S line).record_count.toNat ≤
      sc.record_count.toNat + if is_record_line S line then 1 else 0 := by
  have hsucc : (sc.record_count + 1).toNat ≤ sc.record_count.toNat + 1 := by
    rw [UInt64.toNat_add]
    exact Nat.mod_le _ _
  obtain ⟨entry, hparse, ⟨_, _, hget, -, -, rfl⟩ | ⟨hget, hash, r, hread, hcases⟩⟩ := line_cases h
  · simp only [Scan.line, hparse, hget]
    exact ⟨⟨hag.heads, hag.final_v1_hash⟩, Nat.le_add_right _ _⟩
  · have hcounted : is_record_line S line = true := by
      rw [is_record_line, is_record, hparse, Option.any_some, hget]
      exact Bool.or_true _
    simp only [Scan.line, hparse, hget, (read_entry_some hread).1, Scan.record, hcounted, if_true]
    rcases hcases with ⟨sid, sseq, _, hsid, hs, hq, -, -, -, rfl⟩ | ⟨hs, -, rfl⟩
    · simp only [hs, hq, dif_pos hsid]
      refine ⟨⟨?_, hag.final_v1_hash⟩, hsucc⟩
      intro i
      by_cases hi : i = ⟨sid.toNat, hsid⟩
      · subst hi
        simp
      · simp only [Function.update_of_ne hi]
        exact hag.heads i
    · simp only [hs]
      exact ⟨⟨hag.heads, rfl⟩, hsucc⟩

/-- **Scan and walk agree** on a file that verifies. -/
theorem scan_agrees (h : replay H S key content = some w) :
    (scan S content).Agrees w ∧ (scan S content).record_count.toNat ≤ record_lines S content := by
  refine foldlM_line_inv (I := fun done w => (done.foldl (Scan.line S) Scan.start).Agrees w ∧
    (done.foldl (Scan.line S) Scan.start).record_count.toNat ≤ done.countP (is_record_line S))
    ⟨⟨fun _ => rfl, rfl⟩, Nat.le_refl _⟩ ?_ h
  intro done line _ w w' ⟨hag, hcount⟩ hstep
  obtain ⟨hag', hcount'⟩ := hag.line hstep
  rw [foldl_append, countP_append, countP_singleton]
  exact ⟨hag', hcount'.trans (Nat.add_le_add_right hcount _)⟩

end

end Saacp
